/-
# Teadfs.DirLocks — the locks of the directory operations

The operations of `inode.c` run on the lower tree under its locks: `lock_parent` and
`unlock_dir` take and give back the mutex of one lower directory, `lock_rename` and
`unlock_rename` those of two, with the rename mutex if they are different. What an operation
does in between is `DirOps`, and takes no lock that it does not give back.

Seven of the eight give back what they took on every way out (`underParent_locks`).
`teadfs_rename` remembers that it has locked only after it has looked at what `lock_rename`
returned, so the two ways out in between leave everything locked. They are taken exactly if
one of the two names is above the other (`locks_released_iff`).
-/
import Teadfs.DirOps

namespace Teadfs

set_option autoImplicit false

/-! ## Lower dentries -/

/-- A lower dentry: a root, or a child of its `d_parent`. -/
inductive LowerDentry where
  | root (id : Nat)
  | child (id : Nat) (parent : LowerDentry)
  deriving DecidableEq, Repr

namespace LowerDentry

/-- `d_parent`; a root is its own. -/
def dParent : LowerDentry → LowerDentry
  | .root id => .root id
  | .child _ parent => parent

/-- `d_ancestor`: `y` itself or the dentry above it whose parent is `dir`. -/
def dAncestor (dir : LowerDentry) : LowerDentry → Option LowerDentry
  | .root _ => none
  | .child id parent =>
      if parent = dir then some (.child id parent) else dAncestor dir parent

/-- `x` is `y` or above it, and not a root: that is neither renamed nor replaced. -/
def Above (x : LowerDentry) : LowerDentry → Prop
  | .root _ => False
  | .child id parent => x = .child id parent ∨ Above x parent

def depth : LowerDentry → Nat
  | .root _ => 0
  | .child _ parent => parent.depth + 1

variable {x y dir : LowerDentry}

theorem Above.depth_le (above : Above x y) : x.dParent.depth < x.depth ∧ x.depth ≤ y.depth := by
  induction y with
  | root id => exact above.elim
  | child id parent ih =>
      rcases above with rfl | higher
      · exact ⟨Nat.lt_succ_self _, Nat.le_refl _⟩
      · obtain ⟨below, deep⟩ := ih higher
        exact ⟨below, deep.trans (Nat.le_succ _)⟩

/-- `d_ancestor` finds the one dentry above `y` that is in `dir`. -/
theorem dAncestor_eq_some_iff : dAncestor dir y = some x ↔ Above x y ∧ x.dParent = dir := by
  induction y with
  | root id => simp [dAncestor, Above]
  | child id parent ih =>
      rw [dAncestor]
      split
      · rename_i here
        constructor
        · intro found
          cases found
          exact ⟨.inl rfl, here⟩
        · rintro ⟨rfl | higher, inDir⟩
          · rfl
          · -- `x` is in `parent` and above it
            obtain ⟨below, deep⟩ := higher.depth_le
            rw [inDir, ← here] at below
            omega
      · rename_i elsewhere
        rw [ih]
        constructor
        · rintro ⟨higher, inDir⟩
          exact ⟨.inr higher, inDir⟩
        · rintro ⟨rfl | higher, inDir⟩
          · exact absurd inDir elsewhere
          · exact ⟨higher, inDir⟩

end LowerDentry

/-! ## Locks -/

/-- The mutexes an operation can take: `i_mutex` of a lower directory, known by its inode,
and `s_vfs_rename_mutex` of the lower file system. -/
inductive Mutex where
  | dir (inode : Nat)
  | rename
  deriving DecidableEq, Repr

/-- What the caller holds, what of it the operation has taken, and whether it has given back
one that it had not. -/
structure HeldLocks where
  held : List Mutex
  own : List Mutex
  stray : Bool
  deriving DecidableEq, Repr

namespace HeldLocks

/-- `mutex_lock`. That a mutex the caller holds is never given to it is not needed here. -/
def lock (m : Mutex) (s : HeldLocks) : HeldLocks := ⟨m :: s.held, m :: s.own, s.stray⟩

/-- `mutex_unlock`. -/
def unlock (m : Mutex) (s : HeldLocks) : HeldLocks :=
  ⟨s.held.erase m, s.own.erase m, s.stray || decide (m ∉ s.own)⟩

@[simp] theorem unlock_lock (m : Mutex) (s : HeldLocks) : (s.lock m).unlock m = s := by
  simp [lock, unlock]

/-- Two mutexes may be given back in the order they were taken in. -/
theorem unlock_lock_lock (m m' : Mutex) (s : HeldLocks) :
    (((s.lock m).lock m').unlock m).unlock m' = s := by
  by_cases same : m' = m
  · rw [same, unlock_lock, unlock_lock]
  · have kept : ((s.lock m).lock m').unlock m = s.lock m' := by
      simp [lock, unlock, same]
    rw [kept, unlock_lock]

end HeldLocks

/-- A mounted tree and the locks on the lower one. -/
structure LockedTree where
  tree : MountTree
  locks : HeldLocks

section Operations

variable (inode : LowerDentry → Nat)

/-- `lock_parent`. `dget_parent` does not fail. -/
def lockParent (dentry : LowerDentry) (s : LockedTree) : LowerDentry × LockedTree :=
  (dentry.dParent, { s with locks := s.locks.lock (.dir (inode dentry.dParent)) })

/-- `unlock_dir`. -/
def unlockDir (dir : LowerDentry) (s : LockedTree) : LockedTree :=
  { s with locks := s.locks.unlock (.dir (inode dir)) }

/-- `lock_rename` of two lower directories: the dentry in one of them that is above the
other, which is locked first. -/
def lockRename (p q : LowerDentry) (s : LockedTree) : Option LowerDentry × LockedTree :=
  if p = q then (none, { s with locks := s.locks.lock (.dir (inode p)) })
  else
    let locks := s.locks.lock .rename
    match LowerDentry.dAncestor q p with
    | some trap =>
        (some trap, { s with locks := (locks.lock (.dir (inode q))).lock (.dir (inode p)) })
    | none =>
        (LowerDentry.dAncestor p q,
          { s with locks := (locks.lock (.dir (inode p))).lock (.dir (inode q)) })

/-- `unlock_rename`. -/
def unlockRename (p q : LowerDentry) (s : LockedTree) : LockedTree :=
  let locks := s.locks.unlock (.dir (inode p))
  if p = q then { s with locks := locks }
  else { s with locks := (locks.unlock (.dir (inode q))).unlock .rename }

/-- The course of the operations on one lower directory: the `body` has many ways out, and
all on which it returns lead to the `unlock_dir`. -/
def underParent (dentry : LowerDentry) (body : MountTree → Option (Int × MountTree))
    (s : LockedTree) : Option (Int × LockedTree) :=
  let l := lockParent inode dentry s
  (body l.2.tree).map fun r => (r.1, unlockDir inode l.1 { l.2 with tree := r.2 })

variable (lower : Place → LowerDentry) (a : DirAnswer)

namespace LockedTree

/-- `teadfs_create`. Its flag `unlock` is set as soon as the parent is locked. -/
def teadfsCreate (p : Place) : LockedTree → Option (Int × LockedTree) :=
  underParent inode (lower p) (Teadfs.teadfsCreate a p)

/-- `teadfs_link`, in the directory of the new name. -/
def teadfsLink (p q : Place) : LockedTree → Option (Int × LockedTree) :=
  underParent inode (lower q) fun t => some (Teadfs.teadfsLink a p q t)

/-- `teadfs_unlink`. -/
def teadfsUnlink (p : Place) : LockedTree → Option (Int × LockedTree) :=
  underParent inode (lower p) fun t => some (Teadfs.teadfsUnlink a p t)

/-- `teadfs_symlink`. -/
def teadfsSymlink (p : Place) : LockedTree → Option (Int × LockedTree) :=
  underParent inode (lower p) fun t => some (Teadfs.teadfsSymlink a p t)

/-- `teadfs_mkdir`. -/
def teadfsMkdir (p : Place) : LockedTree → Option (Int × LockedTree) :=
  underParent inode (lower p) fun t => some (Teadfs.teadfsMkdir a p t)

/-- `teadfs_rmdir`. -/
def teadfsRmdir (p : Place) : LockedTree → Option (Int × LockedTree) :=
  underParent inode (lower p) fun t => some (Teadfs.teadfsRmdir a p t)

/-- `teadfs_mknod`. -/
def teadfsMknod (p : Place) : LockedTree → Option (Int × LockedTree) :=
  underParent inode (lower p) fun t => some (Teadfs.teadfsMknod a p t)

def enotempty : Int := -39

/-- `teadfs_rename`. The two early ways out come before `is_rename_lock = 1`. -/
def teadfsRename (p q : Place) (s : LockedTree) : Int × LockedTree :=
  let lowerOldDir := (lower p).dParent
  let lowerNewDir := (lower q).dParent
  let l := lockRename inode lowerOldDir lowerNewDir s
  if l.1 = some (lower p) then (einval, l.2)
  else if l.1 = some (lower q) then (enotempty, l.2)
  else
    let r := Teadfs.teadfsRename a p q l.2.tree
    (r.1, unlockRename inode lowerOldDir lowerNewDir { l.2 with tree := r.2 })

end LockedTree

/-- The eight operations, and what else happens to a mounted tree: a lookup has the mutex of
the lower directory for `lookup_one_len` only, and the caches take none of these. -/
def DirOp.runLocked (s : LockedTree) : DirOp → Option (Int × LockedTree)
  | .lookup p =>
      let l := lockParent inode (lower p) s
      let s := unlockDir inode l.1 l.2
      let r := teadfsLookup a p s.tree
      some (r.1, { s with tree := r.2 })
  | .create p => s.teadfsCreate inode lower a p
  | .link p q => s.teadfsLink inode lower a p q
  | .unlink p => s.teadfsUnlink inode lower a p
  | .symlink p => s.teadfsSymlink inode lower a p
  | .mkdir p => s.teadfsMkdir inode lower a p
  | .rmdir p => s.teadfsRmdir inode lower a p
  | .mknod p => s.teadfsMknod inode lower a p
  | .rename p q => some (s.teadfsRename inode lower a p q)
  | .prune p => some (0, { s with tree := s.tree.setDentry p none })
  | .evict i => some (0, { s with tree := s.tree.evict i })

end Operations

/-! ## What is given back -/

section Released

variable {inode : LowerDentry → Nat} {lower : Place → LowerDentry} {a : DirAnswer}
  {p q : Place} {s : LockedTree}

theorem underParent_locks (dentry : LowerDentry) (body : MountTree → Option (Int × MountTree))
    {r : Int × LockedTree} (returned : underParent inode dentry body s = some r) :
    r.2.locks = s.locks := by
  obtain ⟨done, -, rfl⟩ := Option.map_eq_some_iff.mp returned
  exact HeldLocks.unlock_lock ..

/-- `unlock_rename` gives back what `lock_rename` took, whichever directory it took first. -/
theorem unlockRename_lockRename (p q : LowerDentry) (tree : MountTree) :
    (unlockRename inode p q { (lockRename inode p q s).2 with tree := tree }).locks =
      s.locks := by
  by_cases same : p = q
  · subst same
    simp [unlockRename, lockRename]
  · unfold unlockRename lockRename
    rw [if_neg same, if_neg same]
    cases LowerDentry.dAncestor q p with
    | some trap =>
        dsimp only
        rw [HeldLocks.unlock_lock, HeldLocks.unlock_lock, HeldLocks.unlock_lock]
    | none =>
        dsimp only
        rw [HeldLocks.unlock_lock_lock, HeldLocks.unlock_lock]

/-- A trap is left locked: one mutex at least is held that was not. -/
theorem lockRename_held (p q : LowerDentry) :
    s.locks.held.length < (lockRename inode p q s).2.locks.held.length := by
  unfold lockRename
  split
  · simp [HeldLocks.lock]
  · cases LowerDentry.dAncestor q p <;> simp [HeldLocks.lock]
    all_goals omega

/-- The source of a rename is the trap exactly if it is above the target's directory. -/
theorem lockRename_eq_source_iff {x y : LowerDentry} :
    (lockRename inode x.dParent y.dParent s).1 = some x ↔ x.Above y.dParent := by
  constructor
  · intro trap
    unfold lockRename at trap
    split at trap
    · cases trap
    · rename_i apart
      cases found : LowerDentry.dAncestor y.dParent x.dParent with
      | some z =>
          rw [found] at trap
          cases trap
          exact absurd (LowerDentry.dAncestor_eq_some_iff.mp found).2 apart
      | none =>
          rw [found] at trap
          exact (LowerDentry.dAncestor_eq_some_iff.mp trap).1
  · intro above
    have found : LowerDentry.dAncestor x.dParent y.dParent = some x :=
      LowerDentry.dAncestor_eq_some_iff.mpr ⟨above, rfl⟩
    obtain ⟨below, deep⟩ := above.depth_le
    have apart : x.dParent ≠ y.dParent := by
      intro same
      rw [same] at below
      omega
    have none : LowerDentry.dAncestor y.dParent x.dParent = none := by
      cases other : LowerDentry.dAncestor y.dParent x.dParent with
      | none => rfl
      | some z =>
          obtain ⟨higher, inDir⟩ := LowerDentry.dAncestor_eq_some_iff.mp other
          obtain ⟨below', deep'⟩ := higher.depth_le
          rw [inDir] at below'
          omega
    rw [lockRename, if_neg apart, none]
    exact found

/-- The target is the trap exactly if it is above the source's directory. -/
theorem lockRename_eq_target_iff {x y : LowerDentry} :
    (lockRename inode x.dParent y.dParent s).1 = some y ↔ y.Above x.dParent := by
  constructor
  · intro trap
    unfold lockRename at trap
    split at trap
    · cases trap
    · rename_i apart
      cases found : LowerDentry.dAncestor y.dParent x.dParent with
      | some z =>
          rw [found] at trap
          cases trap
          exact (LowerDentry.dAncestor_eq_some_iff.mp found).1
      | none =>
          rw [found] at trap
          exact absurd (LowerDentry.dAncestor_eq_some_iff.mp trap).2.symm apart
  · intro above
    have found : LowerDentry.dAncestor y.dParent x.dParent = some y :=
      LowerDentry.dAncestor_eq_some_iff.mpr ⟨above, rfl⟩
    obtain ⟨below, deep⟩ := above.depth_le
    have apart : x.dParent ≠ y.dParent := by
      intro same
      rw [← same] at below
      omega
    rw [lockRename, if_neg apart, found]

/-- Neither name of a rename is above the other. -/
def DirOp.Untrapped (lower : Place → LowerDentry) : DirOp → Prop
  | .rename p q => ¬ (lower p).Above (lower q).dParent ∧ ¬ (lower q).Above (lower p).dParent
  | _ => True

theorem teadfsRename_locks (clear : (DirOp.rename p q).Untrapped lower) :
    (s.teadfsRename inode lower a p q).2.locks = s.locks := by
  have source : (lockRename inode (lower p).dParent (lower q).dParent s).1 ≠ some (lower p) :=
    fun trap => clear.1 (lockRename_eq_source_iff.mp trap)
  have target : (lockRename inode (lower p).dParent (lower q).dParent s).1 ≠ some (lower q) :=
    fun trap => clear.2 (lockRename_eq_target_iff.mp trap)
  simp only [LockedTree.teadfsRename, if_neg source, if_neg target]
  exact unlockRename_lockRename ..

/-- A trapped rename returns with the locks of `lock_rename`. -/
theorem teadfsRename_trapped (trapped : ¬ (DirOp.rename p q).Untrapped lower) :
    (s.teadfsRename inode lower a p q).2 =
      (lockRename inode (lower p).dParent (lower q).dParent s).2 := by
  rw [DirOp.Untrapped, not_and_or, not_not, not_not, ← @lockRename_eq_source_iff inode s,
    ← @lockRename_eq_target_iff inode s] at trapped
  simp only [LockedTree.teadfsRename]
  split_ifs with source target
  · rfl
  · rfl
  · exact absurd trapped (not_or.mpr ⟨source, target⟩)

/-- **Directory operations release what they take, but for a trapped rename.** Whatever the
lower calls return, an operation that returns leaves its caller holding what it held and has
given back no mutex that it did not take, exactly if it is not a rename with one name above the
other. -/
theorem locks_released_iff (inode : LowerDentry → Nat) (lower : Place → LowerDentry)
    (a : DirAnswer) (op : DirOp) (tree : MountTree) (held : List Mutex) :
    (∀ r, op.runLocked inode lower a ⟨tree, ⟨held, [], false⟩⟩ = some r →
      r.2.locks.held.Perm held ∧ r.2.locks.stray = false) ↔ op.Untrapped lower := by
  constructor
  · intro released
    cases op with
    | rename p q =>
        by_contra trapped
        obtain ⟨same, -⟩ := released _ rfl
        have more := @lockRename_held inode ⟨tree, ⟨held, [], false⟩⟩ (lower p).dParent
          (lower q).dParent
        rw [← teadfsRename_trapped (a := a) trapped] at more
        exact absurd same.length_eq more.ne'
    | _ => trivial
  · intro clear r returned
    have kept : r.2.locks = ⟨held, [], false⟩ := by
      cases op with
      | lookup p =>
          cases returned
          exact HeldLocks.unlock_lock ..
      | create p => exact underParent_locks (lower p) (teadfsCreate a p) returned
      | link p q =>
          exact underParent_locks (lower q) (fun t => some (teadfsLink a p q t)) returned
      | unlink p =>
          exact underParent_locks (lower p) (fun t => some (teadfsUnlink a p t)) returned
      | symlink p =>
          exact underParent_locks (lower p) (fun t => some (teadfsSymlink a p t)) returned
      | mkdir p =>
          exact underParent_locks (lower p) (fun t => some (teadfsMkdir a p t)) returned
      | rmdir p =>
          exact underParent_locks (lower p) (fun t => some (teadfsRmdir a p t)) returned
      | mknod p =>
          exact underParent_locks (lower p) (fun t => some (teadfsMknod a p t)) returned
      | rename p q =>
          cases returned
          exact teadfsRename_locks clear
      | prune p =>
          cases returned
          rfl
      | evict i =>
          cases returned
          rfl
    rw [kept]
    exact ⟨.refl _, rfl⟩

/-- The lower dentries `/0` and `/0/1/2`, where the upper ones are not above each other. -/
def movedBelow (p : Place) : LowerDentry :=
  if p.dir = 0 then .child 0 (.root 9) else .child 2 (.child 1 (.child 0 (.root 9)))

/-- A rename of `/0` to `/0/1/2` returns with both directories and the rename mutex locked. -/
theorem trapped_rename_stays_locked :
    ¬ ∀ (inode : LowerDentry → Nat) (lower : Place → LowerDentry) (a : DirAnswer) (op : DirOp)
        (tree : MountTree) (held : List Mutex) (r : Int × LockedTree),
      op.runLocked inode lower a ⟨tree, ⟨held, [], false⟩⟩ = some r →
        r.2.locks.held.Perm held ∧ r.2.locks.stray = false := by
  intro released
  have tree : MountTree :=
    ⟨⟨fun _ => true, fun _ => 2, fun _ => none, 1⟩, fun _ => none, fun _ => none⟩
  obtain ⟨same, -⟩ := released LowerDentry.depth movedBelow ⟨none, true, none, none⟩
    (.rename ⟨0, []⟩ ⟨1, []⟩) tree [] _ rfl
  have locked : (LockedTree.teadfsRename LowerDentry.depth movedBelow ⟨none, true, none, none⟩
      ⟨0, []⟩ ⟨1, []⟩ ⟨tree, ⟨[], [], false⟩⟩).2.locks.held = [.dir 2, .dir 0, .rename] := rfl
  rw [locked] at same
  exact absurd same.length_eq (by decide)

end Released

end Teadfs
