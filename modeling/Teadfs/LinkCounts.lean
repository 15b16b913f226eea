/-
# Teadfs.LinkCounts — the link counts of cached inodes

An upper inode copies the count of its lower inode when it is made (`teadfs_inode_set`) and
again wherever an operation sets it: `teadfs_link` and `teadfs_unlink` for the file,
`teadfs_mkdir` and `teadfs_rmdir` for the parent, `teadfs_rename` for the target it replaces
and for both parents.

Which inodes an operation changes below is known by name, which of them it refreshes above
by dentry. So the counts stay right only together with the dentry cache: a positive dentry
names the inode that the lower tree has at its place, and a negative one hides at most an
inode that has no other name and is not cached (`Mirror`). A lower `mkdir` or `link` that
succeeds and leaves its dentry without an inode breaks it: the code then stops before it
sets the count, and returns success.
-/
import Teadfs.DirOps
import Teadfs.Lib.Simulation

namespace Teadfs

set_option autoImplicit false

open Relation

/-- A lower `mkdir` or `link` that succeeds leaves the inode in its dentry. -/
def DirOp.Instantiates (a : DirAnswer) : DirOp → Prop
  | .mkdir _ | .link _ _ => a.instantiated = true
  | _ => True

/-- Every cached inode has the link count of its lower inode. -/
def LinksMirrored (t : MountTree) : Prop := ∀ i n, t.nlink i = some n → n = t.lower.nlink i

/-! ## What one operation changes -/

/-- Counts and dentries agree with the lower tree, but for the counts of the `stale` inodes
and the dentries at the `loose` places. -/
structure Mirror (stale : List Nat) (loose : List Place) (t : MountTree) : Prop where
  counts : ∀ i n, i ∉ stale → t.nlink i = some n → n = t.lower.nlink i
  positive : ∀ p i, p ∉ loose → t.dentry p = some (some i) →
    t.lower.entry p = some i ∧ (t.nlink i).isSome
  negative : ∀ p i, p ∉ loose → t.dentry p = some none → t.lower.entry p = some i →
    t.nlink i = none ∧ ∀ q, t.lower.entry q = some i → q = p
  named : ∀ p i, t.lower.entry p = some i → i < t.lower.next
  cached : ∀ i, (t.nlink i).isSome → i < t.lower.next

theorem isSome_update_map {f : Nat → Option Nat} {i : Nat} (g : Nat → Nat) (j : Nat) :
    (Function.update f i ((f i).map g) j).isSome = (f j).isSome := by
  by_cases same : j = i
  · subst same
    simp
  · simp [same]

@[simp] theorem isSome_setNlink (i j : Nat) (t : MountTree) :
    ((t.setNlink i).nlink j).isSome = (t.nlink j).isSome :=
  isSome_update_map _ j

/-- The one stale inode, or the one loose place, is the one that an operation takes care of. -/
theorem mem_one {α : Type} {x : α} {rest : List α} : ∀ y ∈ [x], y = x ∨ y ∈ rest :=
  fun _ one => .inl (List.mem_singleton.mp one)

/-- `iget5_locked` finds what is cached. -/
theorem iget_cached {i : Nat} {t : MountTree} (cached : (t.nlink i).isSome) : t.iget i = t := by
  obtain ⟨n, count⟩ := Option.isSome_iff_exists.mp cached
  rw [MountTree.iget, count, Option.getD_some, ← count, Function.update_eq_self]

namespace Mirror

variable {stale stale' : List Nat} {loose loose' : List Place} {t : MountTree} {i : Nat}
  {p q : Place}

/-- Giving an inode a count, whichever, keeps everything but the counts. -/
theorem recount (kept : Mirror stale loose t) (g : Nat → Nat)
    (counts : ∀ j n, j ∉ stale' → Function.update t.nlink i ((t.nlink i).map g) j = some n →
      n = t.lower.nlink j) :
    Mirror stale' loose { t with nlink := Function.update t.nlink i ((t.nlink i).map g) } where
  counts := counts
  positive p j tight there := by
    obtain ⟨entry, cached⟩ := kept.positive p j tight there
    exact ⟨entry, (isSome_update_map g j).trans cached⟩
  negative p j tight there entry := by
    obtain ⟨uncached, only⟩ := kept.negative p j tight there entry
    have same := @isSome_update_map t.nlink i g j
    rw [uncached, Option.isSome_none, Option.isSome_eq_false_iff, Option.isNone_iff_eq_none] at same
    exact ⟨same, only⟩
  named := kept.named
  cached j cached := kept.cached j ((isSome_update_map g j).symm.trans cached)

/-- `set_nlink` of a stale inode. -/
theorem setNlink (kept : Mirror stale loose t) (left : ∀ j ∈ stale, j = i ∨ j ∈ stale') :
    Mirror stale' loose (t.setNlink i) := by
  refine kept.recount _ ?_
  intro j n fresh count
  by_cases same : j = i
  · subst same
    rw [Function.update_self, Option.map_eq_some_iff] at count
    obtain ⟨-, -, rfl⟩ := count
    rfl
  · rw [Function.update_of_ne same] at count
    exact kept.counts j n (fun old => (left j old).elim same fresh) count

/-- `clear_nlink` of an inode that has no link left. -/
theorem clearNlink (kept : Mirror stale loose t) (left : ∀ j ∈ stale, j = i ∨ j ∈ stale')
    (none : t.lower.nlink i = 0) : Mirror stale' loose (t.clearNlink i) := by
  have same : t.clearNlink i = t.setNlink i := by
    rw [MountTree.clearNlink, MountTree.setNlink, none]
  rw [same]
  exact kept.setNlink left

/-- A dentry that is dropped is not wrong. -/
theorem dropped (kept : Mirror stale loose t) (left : ∀ q ∈ loose, q = p ∨ q ∈ loose') :
    Mirror stale loose' (t.setDentry p none) where
  counts := kept.counts
  positive q j tight there := by
    have other : q ≠ p := by
      rintro rfl
      simp [MountTree.setDentry] at there
    simp only [MountTree.setDentry, Function.update_of_ne other] at there
    exact kept.positive q j (fun old => (left q old).elim other tight) there
  negative q j tight there := by
    have other : q ≠ p := by
      rintro rfl
      simp [MountTree.setDentry] at there
    simp only [MountTree.setDentry, Function.update_of_ne other] at there
    exact kept.negative q j (fun old => (left q old).elim other tight) there
  named := kept.named
  cached := kept.cached

/-- A dentry gets the inode its place has below, which may have to be made. No negative
dentry hides that inode, or it would have but one name. -/
theorem interposed (kept : Mirror stale loose t) (left : ∀ q ∈ loose, q = p ∨ q ∈ loose')
    (entry : t.lower.entry p = some i) :
    Mirror stale loose' ((t.iget i).setDentry p (some (some i))) := by
  have stays : ∀ j, (t.nlink j).isSome → ((t.iget i).nlink j).isSome := by
    intro j cached
    by_cases same : j = i
    · subst same
      simp [MountTree.iget]
    · simpa [MountTree.iget, same] using cached
  refine ⟨?_, ?_, ?_, kept.named, ?_⟩
  · intro j n fresh count
    by_cases same : j = i
    · subst same
      cases before : t.nlink j with
      | none =>
          simp [MountTree.setDentry, MountTree.iget, before] at count
          exact count.symm
      | some m =>
          simp [MountTree.setDentry, MountTree.iget, before] at count
          subst count
          exact kept.counts j m fresh before
    · simp only [MountTree.setDentry, MountTree.iget, Function.update_of_ne same] at count
      exact kept.counts j n fresh count
  · intro q j tight there
    by_cases here : q = p
    · subst here
      simp only [MountTree.setDentry, Function.update_self, Option.some.injEq] at there
      subst there
      exact ⟨entry, by simp [MountTree.setDentry, MountTree.iget]⟩
    · simp only [MountTree.setDentry, MountTree.iget, Function.update_of_ne here] at there
      obtain ⟨below, cached⟩ := kept.positive q j (fun old => (left q old).elim here tight) there
      exact ⟨below, stays j cached⟩
  · intro q j tight there below
    by_cases here : q = p
    · subst here
      simp [MountTree.setDentry] at there
    · simp only [MountTree.setDentry, MountTree.iget, Function.update_of_ne here] at there
      obtain ⟨uncached, only⟩ :=
        kept.negative q j (fun old => (left q old).elim here tight) there below
      have other : j ≠ i := by
        rintro rfl
        exact here (only p entry).symm
      refine ⟨?_, only⟩
      simpa [MountTree.setDentry, MountTree.iget, other] using uncached
  · intro j cached
    by_cases same : j = i
    · subst same
      exact kept.named p j entry
    · simp only [MountTree.setDentry, MountTree.iget, Function.update_of_ne same] at cached
      exact kept.cached j cached

/-- A place that has nothing below gets a negative dentry. -/
theorem absent (kept : Mirror stale loose t) (nothing : t.lower.entry p = none) :
    Mirror stale loose (t.setDentry p (some none)) where
  counts := kept.counts
  positive q j tight there := by
    have other : q ≠ p := by
      rintro rfl
      simp [MountTree.setDentry] at there
    simp only [MountTree.setDentry, Function.update_of_ne other] at there
    exact kept.positive q j tight there
  negative q j tight there entry := by
    have other : q ≠ p := by
      rintro rfl
      exact absurd (nothing.symm.trans entry) (by simp)
    simp only [MountTree.setDentry, Function.update_of_ne other] at there
    exact kept.negative q j tight there entry
  named := kept.named
  cached := kept.cached

/-- The lower tree changes: the cached inodes whose count is another are stale, and the
places whose entry is another are loose. An inode that gets a name is new or cached. -/
theorem lowered (kept : Mirror stale loose t) {l : LowerTree} (grows : t.lower.next ≤ l.next)
    (more : stale ⊆ stale') (looser : loose ⊆ loose')
    (counts : ∀ j, j ∉ stale' → (t.nlink j).isSome → l.nlink j = t.lower.nlink j)
    (entries : ∀ q, l.entry q = t.lower.entry q ∨ q ∈ loose' ∧ ∀ j, l.entry q = some j →
      j < l.next ∧ ((t.nlink j).isSome ∨ t.lower.next ≤ j)) :
    Mirror stale' loose' (t.setLower l) := by
  have same : ∀ q, q ∉ loose' → l.entry q = t.lower.entry q := fun q tight =>
    (entries q).resolve_right fun changed => tight changed.1
  refine ⟨?_, ?_, ?_, ?_, ?_⟩
  · intro j n fresh count
    rw [kept.counts j n (fun old => fresh (more old)) count]
    exact (counts j fresh (Option.isSome_of_mem count)).symm
  · intro q j tight there
    obtain ⟨entry, cached⟩ := kept.positive q j (fun old => tight (looser old)) there
    exact ⟨(same q tight).trans entry, cached⟩
  · intro q j tight there entry
    have old := (same q tight).symm.trans entry
    obtain ⟨uncached, only⟩ := kept.negative q j (fun old => tight (looser old)) there old
    refine ⟨uncached, ?_⟩
    intro r below
    rcases entries r with unchanged | ⟨-, changed⟩
    · exact only r (unchanged.symm.trans below)
    · exfalso
      rcases (changed j below).2 with cached | new
      · rw [uncached] at cached
        cases cached
      · exact absurd (kept.named q j old) (Nat.not_lt.mpr new)
  · intro q j entry
    rcases entries q with unchanged | ⟨-, changed⟩
    · exact Nat.lt_of_lt_of_le (kept.named q j (unchanged.symm.trans entry)) grows
    · exact (changed j entry).1
  · intro j cached
    exact Nat.lt_of_lt_of_le (kept.cached j cached) grows

theorem weaken (kept : Mirror stale loose t) (more : stale ⊆ stale') (looser : loose ⊆ loose') :
    Mirror stale' loose' t :=
  kept.lowered (Nat.le_refl _) more looser (fun _ _ _ => rfl) fun _ => .inl rfl

/-- A count changes. -/
theorem counted (kept : Mirror stale loose t) (i : Nat) (f : Nat → Nat) :
    Mirror (i :: stale) loose (t.setLower (t.lower.count i f)) := by
  refine kept.lowered (Nat.le_refl _) (List.subset_cons_self _ _) (List.Subset.refl _) ?_
    fun q => .inl rfl
  intro j fresh _
  refine Function.update_of_ne ?_ _ _
  rintro rfl
  exact fresh List.mem_cons_self

/-- The count of an inode that is not cached changes. -/
theorem counted_uncached (kept : Mirror stale loose t) (f : Nat → Nat)
    (uncached : t.nlink i = none) : Mirror stale loose (t.setLower (t.lower.count i f)) := by
  refine kept.lowered (Nat.le_refl _) (List.Subset.refl _) (List.Subset.refl _) ?_
    fun q => .inl rfl
  intro j _ cached
  refine Function.update_of_ne ?_ _ _
  rintro rfl
  rw [uncached] at cached
  cases cached

/-- A place loses its name, or gets that of a cached inode. -/
theorem renamed (kept : Mirror stale loose t) (p : Place) {name : Option Nat}
    (cached : ∀ j, name = some j → (t.nlink j).isSome) :
    Mirror stale (p :: loose) (t.setLower (t.lower.name p name)) := by
  refine kept.lowered (Nat.le_refl _) (List.Subset.refl _) (List.subset_cons_self _ _)
    (fun j _ _ => rfl) ?_
  intro q
  by_cases here : q = p
  · subst here
    refine .inr ⟨List.mem_cons_self, ?_⟩
    intro j entry
    rw [LowerTree.entry_name] at entry
    exact ⟨kept.cached j (cached j entry), .inl (cached j entry)⟩
  · exact .inl (Function.update_of_ne here _ _)

theorem unnamed (kept : Mirror stale loose t) (p : Place) :
    Mirror stale (p :: loose) (t.setLower (t.lower.name p none)) :=
  kept.renamed p nofun

/-- A new inode is made at a place that has no inode above. Where the dentry there stays
negative, it hides an inode with one name. -/
theorem made (kept : Mirror stale [] t) (negative : t.inodeAt p = none) (dir : Bool)
    (count : Nat) : Mirror stale [] (t.setLower (t.lower.make p dir count)) := by
  have fresh : ∀ j, (t.nlink j).isSome → j ≠ t.lower.next := by
    rintro j cached rfl
    exact Nat.lt_irrefl _ (kept.cached _ cached)
  have loose : Mirror stale [p] (t.setLower (t.lower.make p dir count)) := by
    refine kept.lowered (Nat.le_succ _) (List.Subset.refl _) (List.nil_subset _) ?_ ?_
    · intro j _ cached
      exact Function.update_of_ne (fresh j cached) _ _
    · intro q
      by_cases here : q = p
      · subst here
        refine .inr ⟨List.mem_cons_self, ?_⟩
        intro j entry
        rw [LowerTree.entry_make, Option.some.injEq] at entry
        subst entry
        exact ⟨Nat.lt_succ_self _, .inr (Nat.le_refl _)⟩
      · exact .inl (Function.update_of_ne here _ _)
  refine ⟨loose.counts, ?_, ?_, loose.named, loose.cached⟩
  · intro q j _ there
    by_cases here : q = p
    · subst here
      have at_place : t.dentry q = some (some j) := there
      rw [MountTree.inodeAt, at_place] at negative
      cases negative
    · exact loose.positive q j (by simpa using here) there
  · intro q j _ there entry
    by_cases here : q = p
    · subst here
      have new : (t.lower.make q dir count).entry q = some j := entry
      rw [LowerTree.entry_make, Option.some.injEq] at new
      subst new
      refine ⟨?_, ?_⟩
      · by_contra cached
        exact fresh _ (Option.isSome_iff_ne_none.mpr cached) rfl
      · intro r below
        by_contra other
        have old : t.lower.entry r = some t.lower.next :=
          (Function.update_of_ne other _ _).symm.trans below
        exact Nat.lt_irrefl _ (kept.named r _ old)
    · exact loose.negative q j (by simpa using here) there entry

/-- A negative dentry is right where nothing has the name. -/
theorem tightened (kept : Mirror stale (p :: loose) t) (negative : t.inodeAt p = none)
    (nothing : t.lower.entry p = none) : Mirror stale loose t where
  counts := kept.counts
  positive q j tight there := by
    refine kept.positive q j ?_ there
    rw [List.mem_cons, not_or]
    refine ⟨?_, tight⟩
    rintro rfl
    rw [MountTree.inodeAt, there] at negative
    cases negative
  negative q j tight there entry := by
    refine kept.negative q j ?_ there entry
    rw [List.mem_cons, not_or]
    refine ⟨?_, tight⟩
    rintro rfl
    rw [nothing] at entry
    cases entry
  named := kept.named
  cached := kept.cached

theorem dropNegative (kept : Mirror stale loose t) (p : Place) :
    Mirror stale loose (t.dropNegative p) := by
  rw [MountTree.dropNegative]
  split
  · exact kept.dropped fun q old => .inr old
  · exact kept

/-- The inode of a dentry is the one its place has below, and it is cached. -/
theorem inodeAt (kept : Mirror stale [] t) (there : t.inodeAt p = some i) :
    t.lower.entry p = some i ∧ (t.nlink i).isSome :=
  kept.positive p i List.not_mem_nil (Option.join_eq_some_iff.mp there)

end Mirror

/-! ## Each operation -/

section Operations

variable {a : DirAnswer} {p q : Place} {t : MountTree}

theorem vfsCreate_ok {refused : Option Errno} {l : LowerTree}
    (success : (l.vfsCreate refused p).1 = 0) : (l.vfsCreate refused p).2 = l.make p false 1 := by
  cases refused with
  | some errno => exact absurd success errno.property.ne
  | none =>
      cases entry : l.entry p with
      | some i =>
          simp only [LowerTree.vfsCreate, entry] at success
          cases success
      | none => simp only [LowerTree.vfsCreate, entry]

theorem vfsMkdir_ok {refused : Option Errno} {l : LowerTree}
    (success : (l.vfsMkdir refused p).1 = 0) :
    (l.vfsMkdir refused p).2 = (l.make p true 2).count p.dir (· + 1) := by
  cases refused with
  | some errno => exact absurd success errno.property.ne
  | none =>
      cases entry : l.entry p with
      | some i =>
          simp only [LowerTree.vfsMkdir, entry] at success
          cases success
      | none => simp only [LowerTree.vfsMkdir, entry]

section Named

variable {refused : Option Errno} {l : LowerTree} {i : Nat} (entry : l.entry p = some i)

include entry

theorem vfsLink_ok (success : (l.vfsLink refused p q).1 = 0) :
    (l.vfsLink refused p q).2 = (l.count i (· + 1)).name q (some i) := by
  cases refused with
  | some errno => exact absurd success errno.property.ne
  | none =>
      cases there : l.entry q with
      | some j =>
          simp only [LowerTree.vfsLink, entry, there] at success
          cases success
      | none =>
          simp only [LowerTree.vfsLink, entry, there] at success ⊢
          split at success
          · cases success
          · rename_i file
            rw [if_neg file]

theorem vfsUnlink_ok (success : (l.vfsUnlink refused p).1 = 0) :
    (l.vfsUnlink refused p).2 = (l.count i (· - 1)).name p none := by
  cases refused with
  | some errno => exact absurd success errno.property.ne
  | none =>
      simp only [LowerTree.vfsUnlink, entry] at success ⊢
      split at success
      · cases success
      · rename_i file
        rw [if_neg file]

theorem vfsRmdir_ok (success : (l.vfsRmdir refused p).1 = 0) :
    (l.vfsRmdir refused p).2 = l.dropDir p i := by
  cases refused with
  | some errno => exact absurd success errno.property.ne
  | none =>
      simp only [LowerTree.vfsRmdir, entry] at success ⊢
      split at success
      · rename_i dir
        rw [if_pos dir]
      · cases success

/-- A rename to a name that is not one of the file's yet moves it. -/
theorem vfsRename_ok (other : l.entry q ≠ some i) (success : (l.vfsRename refused p q).1 = 0) :
    (l.vfsRename refused p q).2 = l.move p q i := by
  cases refused with
  | some errno => exact absurd success errno.property.ne
  | none => simp only [LowerTree.vfsRename, entry, if_neg other]

end Named

theorem teadfsInterpose_ok {i : Nat} (success : (teadfsInterpose a p i t).1 = 0) :
    (teadfsInterpose a p i t).2 = (t.iget i).setDentry p (some (some i)) := by
  unfold teadfsInterpose at success ⊢
  cases got : a.getInode with
  | some errno =>
      simp only [got] at success
      exact absurd success errno.property.ne
  | none => rfl

theorem teadfsLookup_mirror (kept : Mirror [] [] t) (a : DirAnswer) (p : Place) :
    Mirror [] [] (teadfsLookup a p t).2 := by
  unfold teadfsLookup
  split
  · exact kept
  · rename_i nothing
    exact kept.absent nothing
  · rename_i i entry
    unfold teadfsInterpose
    split
    · exact kept
    · exact kept.interposed nofun entry

theorem teadfsCreate_mirror (kept : Mirror [] [] t) (negative : t.inodeAt p = none)
    {t' : MountTree} (success : teadfsCreate a p t = some (0, t')) : Mirror [] [] t' := by
  simp only [teadfsCreate] at success
  split at success
  · rename_i failed
    exact absurd (congrArg Prod.fst (Option.some.inj success)) failed
  · rename_i lower
    rw [vfsCreate_ok (not_not.mp lower)] at success
    have made := kept.made negative false 1
    split at success
    · cases success
    · rename_i i instantiated
      have entry : (t.lower.make p false 1).entry p = some i := by
        split at instantiated
        · exact instantiated
        · cases instantiated
      split at success
      · -- undone or not, the name hides nothing that is cached
        cases success
        unfold LowerTree.vfsUnlink
        rw [LowerTree.entry_make]
        split
        · exact made
        · exact made
        · rename_i i there
          cases there
          split
          · exact made
          · have uncached : t.nlink t.lower.next = none := by
              by_contra cached
              exact Nat.lt_irrefl _ (kept.cached _ (Option.isSome_iff_ne_none.mpr cached))
            have gone := (made.counted_uncached (· - 1) uncached).unnamed p
            exact gone.tightened negative (LowerTree.entry_name ..)
      · cases success
        exact made.interposed nofun entry

/-- What `symlink`, `mkdir` and `mknod` have in common. -/
theorem makeNode_mirror (stale : List Nat) (i : Nat) {r : Int × LowerTree}
    {done : MountTree → MountTree} (success : (makeNode a p r done t).1 = 0)
    (entry : r.1 = 0 → r.2.entry p = some i) (made : r.1 = 0 → Mirror stale [] (t.setLower r.2))
    (cleared : ∀ {t'}, Mirror stale [] t' → Mirror [] [] (done t'))
    (lucky : a.instantiated = true ∨ stale = []) :
    Mirror [] [] (makeNode a p r done t).2 := by
  unfold makeNode at success ⊢
  split at success
  · rename_i failed
    exact absurd success failed
  rename_i lower
  have named := entry (not_not.mp lower)
  have after := made (not_not.mp lower)
  rw [if_neg lower]
  cases instantiated : a.instantiated with
  | false =>
      rw [instantiated, Bool.false_eq_true, false_or] at lucky
      subst lucky
      exact after.dropNegative p
  | true =>
      simp only [instantiated, if_true, named] at success ⊢
      split at success
      · rename_i failed
        exact absurd success failed
      · rename_i interposed
        rw [if_neg interposed, teadfsInterpose_ok (not_not.mp interposed)]
        exact (cleared (after.interposed nofun named)).dropNegative p

/-- `teadfs_symlink` and `teadfs_mknod` change no count that is cached. -/
theorem makeFile_mirror (kept : Mirror [] [] t) (negative : t.inodeAt p = none)
    (success : (makeNode a p (t.lower.vfsCreate a.vfs p) id t).1 = 0) :
    Mirror [] [] (makeNode a p (t.lower.vfsCreate a.vfs p) id t).2 := by
  refine makeNode_mirror [] t.lower.next success (fun lower => ?_) (fun lower => ?_)
    (fun clear => clear) (.inr rfl)
  · rw [vfsCreate_ok lower]
    exact LowerTree.entry_make ..
  · rw [vfsCreate_ok lower]
    exact kept.made negative false 1

theorem teadfsMkdir_mirror (kept : Mirror [] [] t) (negative : t.inodeAt p = none)
    (instantiated : a.instantiated = true) (success : (teadfsMkdir a p t).1 = 0) :
    Mirror [] [] (teadfsMkdir a p t).2 := by
  refine makeNode_mirror [p.dir] t.lower.next success (fun lower => ?_) (fun lower => ?_)
    (fun stale => stale.setNlink mem_one) (.inl instantiated)
  · rw [vfsMkdir_ok lower]
    exact LowerTree.entry_make p true 2 t.lower
  · rw [vfsMkdir_ok lower]
    exact (kept.made negative true 2).counted p.dir (· + 1)

theorem teadfsLink_mirror {i : Nat} (kept : Mirror [] [] t) (there : t.inodeAt p = some i)
    (instantiated : a.instantiated = true) (success : (teadfsLink a p q t).1 = 0) :
    Mirror [] [] (teadfsLink a p q t).2 := by
  obtain ⟨entry, cached⟩ := kept.inodeAt there
  unfold teadfsLink at success ⊢
  dsimp only at success ⊢
  split at success
  · rename_i failed
    exact absurd success failed
  rename_i lower
  rw [if_neg lower]
  simp only [vfsLink_ok entry (not_not.mp lower), instantiated, if_true,
    LowerTree.entry_name] at success ⊢
  have linked : Mirror [i] [q] (t.setLower ((t.lower.count i (· + 1)).name q (some i))) :=
    (kept.counted i (· + 1)).renamed q fun j same => by
      cases same
      exact cached
  split at success
  · rename_i failed
    exact absurd success failed
  · rename_i interposed
    rw [if_neg interposed, teadfsInterpose_ok (not_not.mp interposed), there,
      MountTree.setNlinkOf]
    exact Mirror.setNlink (linked.interposed mem_one (LowerTree.entry_name ..)) mem_one

theorem teadfsUnlink_mirror {i : Nat} (kept : Mirror [] [] t) (there : t.inodeAt p = some i)
    (success : (teadfsUnlink a p t).1 = 0) : Mirror [] [] (teadfsUnlink a p t).2 := by
  obtain ⟨entry, cached⟩ := kept.inodeAt there
  unfold teadfsUnlink at success ⊢
  dsimp only at success ⊢
  split at success
  · rename_i failed
    exact absurd success failed
  rename_i lower
  rw [if_neg lower]
  simp only [there, vfsUnlink_ok entry (not_not.mp lower), MountTree.setNlinkOf]
  have gone : Mirror [i] [p] (t.setLower ((t.lower.count i (· - 1)).name p none)) :=
    (kept.counted i (· - 1)).unnamed p
  exact Mirror.dropped (gone.setNlink mem_one) mem_one

/-- A directory loses its name: its own count and that of its parent are stale. -/
theorem Mirror.dirDropped {stale : List Nat} {loose : List Place} (kept : Mirror stale loose t)
    (p : Place) (i : Nat) :
    Mirror (i :: p.dir :: stale) (p :: loose) (t.setLower (t.lower.dropDir p i)) :=
  ((kept.counted p.dir (· - 1)).counted i fun _ => 0).unnamed p

theorem teadfsRmdir_mirror {i : Nat} (kept : Mirror [] [] t) (there : t.inodeAt p = some i)
    (success : (teadfsRmdir a p t).1 = 0) : Mirror [] [] (teadfsRmdir a p t).2 := by
  obtain ⟨entry, cached⟩ := kept.inodeAt there
  unfold teadfsRmdir at success ⊢
  dsimp only at success ⊢
  split at success
  · rename_i failed
    exact absurd success failed
  rename_i lower
  rw [if_neg lower]
  simp only [there, vfsRmdir_ok entry (not_not.mp lower)]
  have noLink : (t.setLower (t.lower.dropDir p i)).lower.nlink i = 0 :=
    Function.update_self ..
  have cleared : Mirror [p.dir] [p] ((t.setLower (t.lower.dropDir p i)).clearNlink i) :=
    (kept.dirDropped p i).clearNlink (fun j stale => List.mem_cons.mp stale) noLink
  exact Mirror.dropped (cleared.setNlink mem_one) mem_one

/-- The target of a rename loses its name. It is stale if its dentry has it; if the dentry
is negative, it is not cached. -/
theorem Mirror.replaced (kept : Mirror [] [] t) (seen : t.dentry q ≠ none) :
    Mirror (q.dir :: (t.inodeAt q).toList) [q] (t.setLower (t.lower.replace q)) := by
  unfold LowerTree.replace
  cases entry : t.lower.entry q with
  | none => exact kept.weaken (List.nil_subset _) (List.nil_subset _)
  | some k =>
      cases dentry : t.dentry q with
      | none => exact absurd dentry seen
      | some inode =>
          cases inode with
          | none =>
              have uncached := (kept.negative q k List.not_mem_nil dentry entry).1
              have negative : t.inodeAt q = none := by
                rw [MountTree.inodeAt, dentry]
                rfl
              rw [negative]
              dsimp only
              split
              · exact ((kept.counted q.dir (· - 1)).counted_uncached _ uncached).unnamed q
              · exact ((kept.counted_uncached _ uncached).unnamed q).weaken (List.nil_subset _)
                  (List.Subset.refl _)
          | some j =>
              have positive : t.inodeAt q = some j := by
                rw [MountTree.inodeAt, dentry]
                rfl
              have same := (kept.inodeAt positive).1.symm.trans entry
              cases same
              rw [positive]
              dsimp only
              split
              · refine (kept.dirDropped q k).weaken ?_ (List.Subset.refl _)
                intro j one
                simpa [or_comm] using one
              · exact ((kept.counted k (· - 1)).unnamed q).weaken (List.subset_cons_self _ _)
                  (List.Subset.refl _)

/-- An inode moves: stale are the target, the new parent and the old one at most. -/
theorem Mirror.moved {i : Nat} (kept : Mirror [] [] t) (seen : t.dentry q ≠ none)
    (cached : (t.nlink i).isSome) :
    Mirror (q.dir :: p.dir :: (t.inodeAt q).toList) [q, p]
      (t.setLower (t.lower.move p q i)) := by
  have replaced := kept.replaced seen
  have counted : Mirror (q.dir :: p.dir :: (t.inodeAt q).toList) [q]
      (t.setLower (if (t.lower.replace q).isDir i then
        ((t.lower.replace q).count p.dir (· - 1)).count q.dir (· + 1) else t.lower.replace q)) := by
    split
    · refine ((replaced.counted p.dir (· - 1)).counted q.dir (· + 1)).weaken ?_
        (List.Subset.refl _)
      intro j one
      grind
    · refine replaced.weaken ?_ (List.Subset.refl _)
      intro j one
      grind
  have named : ∀ j, some i = some j → (t.nlink j).isSome := by
    rintro j ⟨⟩
    exact cached
  exact ((counted.unnamed p).renamed q named).weaken (List.Subset.refl _) (by simp)

/-- A place that has been looked up, and has another inode above than `i`, has another one
below if `i` is cached. -/
theorem Mirror.entry_ne {i : Nat} (kept : Mirror [] [] t) (cached : (t.nlink i).isSome)
    (seen : t.dentry q ≠ none) (distinct : t.inodeAt q ≠ some i) : t.lower.entry q ≠ some i := by
  intro same
  cases dentry : t.dentry q with
  | none => exact seen dentry
  | some inode =>
      cases inode with
      | none =>
          rw [(kept.negative q i List.not_mem_nil dentry same).1] at cached
          cases cached
      | some j =>
          have below := (kept.positive q j List.not_mem_nil dentry).1
          have inode : i = j := Option.some.inj (same.symm.trans below)
          subst inode
          exact distinct (by rw [MountTree.inodeAt, dentry]; rfl)

/-- `teadfs_rename` refreshes all that is stale. -/
theorem teadfsRename_mirror {i : Nat} (kept : Mirror [] [] t) (there : t.inodeAt p = some i)
    (seen : t.dentry q ≠ none) (distinct : t.inodeAt q ≠ some i)
    (success : (teadfsRename a p q t).1 = 0) :
    Mirror [] [q, p] (teadfsRename a p q t).2 ∧
      (teadfsRename a p q t).2.lower.entry q = some i ∧
      ((teadfsRename a p q t).2.nlink i).isSome := by
  obtain ⟨entry, cached⟩ := kept.inodeAt there
  have other := kept.entry_ne cached seen distinct
  unfold teadfsRename at success ⊢
  dsimp only at success ⊢
  split at success
  · rename_i failed
    exact absurd success failed
  rename_i lower
  rw [if_neg lower]
  simp only [vfsRename_ok entry other (not_not.mp lower)]
  have moved := @Mirror.moved p q t i kept seen cached
  have target : Mirror [q.dir, p.dir] [q, p]
        ((t.setLower (t.lower.move p q i)).setNlinkOf (t.inodeAt q)) ∧
      ((t.setLower (t.lower.move p q i)).setNlinkOf (t.inodeAt q)).lower = t.lower.move p q i ∧
      (((t.setLower (t.lower.move p q i)).setNlinkOf (t.inodeAt q)).nlink i).isSome := by
    cases above : t.inodeAt q with
    | none =>
        rw [above] at moved
        exact ⟨moved, rfl, cached⟩
    | some target =>
        rw [above] at moved
        refine ⟨moved.setNlink ?_, rfl, (isSome_setNlink ..).trans cached⟩
        intro j one
        simp only [Option.toList_some, List.mem_cons, List.not_mem_nil, or_false] at one ⊢
        tauto
  generalize (t.setLower (t.lower.move p q i)).setNlinkOf (t.inodeAt q) = t' at target ⊢
  obtain ⟨mirror, tree, still⟩ := target
  have named : t'.lower.entry q = some i := by
    rw [tree]
    exact LowerTree.entry_name ..
  split
  · refine ⟨(mirror.setNlink fun j one => List.mem_cons.mp one).setNlink mem_one, named, ?_⟩
    simpa using still
  · rename_i sameDir
    refine ⟨mirror.setNlink ?_, named, by simpa using still⟩
    intro j one
    rw [not_not] at sameDir
    rw [← sameDir] at one
    exact .inl (by simpa using one)

theorem nlink_evict (i j : Nat) (t : MountTree) :
    (t.evict i).nlink j = if j = i then none else t.nlink j :=
  Function.update_apply ..

/-- An inode that no dentry has is given up. -/
theorem Mirror.evicted {i : Nat} (kept : Mirror [] [] t)
    (unused : ∀ p, t.dentry p ≠ some (some i)) :
    Mirror [] [] (t.evict i) where
  counts j n fresh count := by
    rw [nlink_evict] at count
    split at count
    · cases count
    · exact kept.counts j n fresh count
  positive p j tight there := by
    have other : j ≠ i := by
      rintro rfl
      exact unused p there
    rw [nlink_evict, if_neg other]
    exact kept.positive p j tight there
  negative p j tight there entry := by
    obtain ⟨uncached, only⟩ := kept.negative p j tight there entry
    refine ⟨?_, only⟩
    rw [nlink_evict, uncached, ite_self]
  named := kept.named
  cached j cached := by
    rw [nlink_evict] at cached
    split at cached
    · cases cached
    · exact kept.cached j cached

/-- Every operation that is called as the VFS calls it, succeeds, and instantiates what it
makes, keeps counts and dentries right. -/
theorem DirOp.run_mirror {op : DirOp} (kept : Mirror [] [] t) (called : op.Called t)
    {t' : MountTree} (success : op.run a t = some (0, t')) (instantiates : op.Instantiates a) :
    Mirror [] [] t' := by
  have negative : ∀ {p}, t.dentry p = some none → t.inodeAt p = none := by
    intro p none
    rw [MountTree.inodeAt, none]
    rfl
  -- all but `create` return
  have returned : ∀ {r : Int × MountTree}, some r = some (0, t') → r.1 = 0 ∧ r.2 = t' := by
    intro r same
    exact Prod.mk.inj (Option.some.inj same)
  cases op with
  | create p => exact teadfsCreate_mirror kept (negative called) success
  | lookup p =>
      obtain ⟨-, rfl⟩ := returned success
      exact teadfsLookup_mirror kept a p
  | link p q =>
      obtain ⟨zero, rfl⟩ := returned success
      obtain ⟨i, there⟩ := Option.isSome_iff_exists.mp called.1
      exact teadfsLink_mirror kept there instantiates zero
  | unlink p =>
      obtain ⟨zero, rfl⟩ := returned success
      obtain ⟨i, there⟩ := Option.isSome_iff_exists.mp called
      exact teadfsUnlink_mirror kept there zero
  | symlink p =>
      obtain ⟨zero, rfl⟩ := returned success
      exact makeFile_mirror kept (negative called) zero
  | mkdir p =>
      obtain ⟨zero, rfl⟩ := returned success
      exact teadfsMkdir_mirror kept (negative called) instantiates zero
  | rmdir p =>
      obtain ⟨zero, rfl⟩ := returned success
      obtain ⟨i, there⟩ := Option.isSome_iff_exists.mp called
      exact teadfsRmdir_mirror kept there zero
  | mknod p =>
      obtain ⟨zero, rfl⟩ := returned success
      exact makeFile_mirror kept (negative called) zero
  | rename p q =>
      obtain ⟨someInode, seen, distinct⟩ := called
      obtain ⟨i, there⟩ := Option.isSome_iff_exists.mp someInode
      have dentry : t.dentry p = some (some i) := Option.join_eq_some_iff.mp there
      obtain ⟨zero, rfl⟩ := returned success
      split at zero
      · rename_i failed
        exact absurd zero failed
      · rename_i lower
        rw [if_neg lower, dentry]
        obtain ⟨moved, named, cached⟩ := teadfsRename_mirror kept there seen
          (fun same => distinct (same.trans there.symm)) (not_not.mp lower)
        have dropped : Mirror [] [q] ((teadfsRename a p q t).2.setDentry p none) := by
          refine moved.dropped ?_
          intro r one
          simpa [or_comm] using one
        have found : ((teadfsRename a p q t).2.setDentry p none).iget i =
            (teadfsRename a p q t).2.setDentry p none := iget_cached cached
        rw [← found]
        exact dropped.interposed mem_one named
  | prune p =>
      obtain ⟨-, rfl⟩ := returned success
      exact kept.dropped nofun
  | evict i =>
      obtain ⟨-, rfl⟩ := returned success
      exact kept.evicted called

end Operations

/-! ## Runs -/

/-- A mount on which no name has been looked up yet. -/
structure Mounted (t : MountTree) : Prop where
  unseen : ∀ p, t.dentry p = none
  counts : LinksMirrored t
  named : ∀ p i, t.lower.entry p = some i → i < t.lower.next
  cached : ∀ i, (t.nlink i).isSome → i < t.lower.next

theorem Mounted.mirror {t : MountTree} (mounted : Mounted t) : Mirror [] [] t where
  counts i n _ count := mounted.counts i n count
  positive p i _ there := by
    rw [mounted.unseen p] at there
    cases there
  negative p i _ there := by
    rw [mounted.unseen p] at there
    cases there
  named := mounted.named
  cached := mounted.cached

/-- The state after an operation that returns. -/
def afterDirOp (t : MountTree) (step : DirAnswer × DirOp) : MountTree :=
  (step.2.run step.1 t).elim t Prod.snd

/-- A successful operation that instantiates what it makes. -/
def InstantiatingStep (t t' : MountTree) : Prop :=
  ∃ step : DirAnswer × DirOp, ((step.2.Called t ∧ step.2.Succeeds step.1 t) ∧
    step.2.Instantiates step.1) ∧ t' = afterDirOp t step

theorem DirOp.Succeeds.run_eq {a : DirAnswer} {t : MountTree} {op : DirOp}
    (success : op.Succeeds a t) : op.run a t = some (0, afterDirOp t (a, op)) := by
  obtain ⟨r, run, zero⟩ := Option.map_eq_some_iff.mp success
  rw [afterDirOp, run, ← zero]
  rfl

/-- **Link counts are mirrored.** After any run of successful lookups, creates, links,
unlinks, symlinks, mkdirs, rmdirs, mknods and renames on a mount, with dentries and inodes
given up at any time, every cached inode has the link count of its lower inode, if no lower
`mkdir` or `link` of the run succeeded without leaving an inode in its dentry. -/
theorem instantiating_run_mirrored {t t' : MountTree} (mounted : Mounted t)
    (run : ReflTransGen InstantiatingStep t t') : LinksMirrored t' := by
  have mirror := Simulation.invariant (P := Mirror [] []) ?_ run mounted.mirror
  · intro i n count
    exact mirror.counts i n List.not_mem_nil count
  · rintro s s' ⟨step, ⟨⟨called, success⟩, instantiates⟩, rfl⟩ kept
    exact DirOp.run_mirror kept called success.run_eq instantiates

/-- The root with nothing in it, its inode cached. -/
def emptyMount : MountTree where
  lower := ⟨fun _ => true, fun _ => 2, fun _ => none, 1⟩
  nlink := fun i => if i = 0 then some 2 else none
  dentry := fun _ => none

theorem emptyMount_mounted : Mounted emptyMount where
  unseen _ := rfl
  counts i n count := by
    by_cases root : i = 0
    · subst root
      exact (Option.some.inj count).symm
    · simp [emptyMount, root] at count
  named _ _ entry := by cases entry
  cached i cached := by
    by_cases root : i = 0
    · subst root
      decide
    · simp [emptyMount, root] at cached

/-- Everything goes well. -/
def allWell : DirAnswer := ⟨none, true, none, none⟩

/-- A place in the root, or in a directory. -/
def placeIn (dir : Nat) (name : UInt8) : Place := ⟨dir, [name]⟩

/-- Two directories, a third one and a file in the first, a second name of the file in the
other, which is unlinked again; then the third directory is renamed over the second. -/
def renameOverTarget : List (DirAnswer × DirOp) :=
  [.lookup (placeIn 0 97), .mkdir (placeIn 0 97), .lookup (placeIn 0 98), .mkdir (placeIn 0 98),
    .lookup (placeIn 1 97), .mkdir (placeIn 1 97), .lookup (placeIn 1 98), .create (placeIn 1 98),
    .lookup (placeIn 2 97), .link (placeIn 1 98) (placeIn 2 97), .unlink (placeIn 2 97),
    .rename (placeIn 1 97) (placeIn 0 98)].map fun op => (allWell, op)

theorem rename_over_target_mirrored :
    LinksMirrored (renameOverTarget.foldl afterDirOp emptyMount) := by
  have allowed : Simulation.Allowed
      (fun t (step : DirAnswer × DirOp) => (step.2.Called t ∧ step.2.Succeeds step.1 t) ∧
        step.2.Instantiates step.1) afterDirOp emptyMount renameOverTarget :=
    ⟨⟨⟨rfl, rfl⟩, trivial⟩, ⟨⟨rfl, rfl⟩, rfl⟩, ⟨⟨rfl, rfl⟩, trivial⟩, ⟨⟨rfl, rfl⟩, rfl⟩,
      ⟨⟨rfl, rfl⟩, trivial⟩, ⟨⟨rfl, rfl⟩, rfl⟩, ⟨⟨rfl, rfl⟩, trivial⟩, ⟨⟨rfl, rfl⟩, trivial⟩,
      ⟨⟨rfl, rfl⟩, trivial⟩, ⟨⟨⟨rfl, rfl⟩, rfl⟩, rfl⟩, ⟨⟨rfl, rfl⟩, trivial⟩,
      ⟨⟨⟨rfl, nofun, nofun⟩, rfl⟩, trivial⟩, trivial⟩
  exact instantiating_run_mirrored emptyMount_mounted allowed.run

/-- A lower `mkdir` succeeds and leaves its dentry negative: the parent keeps its old count. -/
theorem uninstantiated_mkdir_stale :
    ¬ ∀ (t : MountTree) (steps : List (DirAnswer × DirOp)), Mounted t →
      Simulation.Allowed (fun t (step : DirAnswer × DirOp) => step.2.Called t ∧
        step.2.Succeeds step.1 t) afterDirOp t steps →
      LinksMirrored (steps.foldl afterDirOp t) := by
  intro mirrored
  have count := mirrored emptyMount
    [(allWell, .lookup (placeIn 0 97)), (⟨none, false, none, none⟩, .mkdir (placeIn 0 97))]
    emptyMount_mounted ⟨⟨rfl, rfl⟩, ⟨rfl, rfl⟩, trivial⟩ 0 2 rfl
  cases count

end Teadfs
