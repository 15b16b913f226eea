/-
# Teadfs.LowerPaths — what the dentries hold of the lower file system

An upper dentry holds its lower path: a reference to a lower dentry, which `lookup_one_len`
took, and one to the lower mount, which `teadfs_lookup_interpose` takes. Both go back when
the dentry is released, if its private data still says what they are.

A lookup that fails must give them back itself. It does so where there is no memory for the
private data. Where `__teadfs_get_inode` fails it frees the private data and keeps the
references, and then nobody knows of them any more (`path_references_balance_iff`).
-/
import Mathlib.Data.List.Perm.Basic
import Teadfs.InodeCache
import Teadfs.Lib.Simulation

namespace Teadfs

set_option autoImplicit false

/-- `struct path`, of the lower file system. -/
structure LowerPath where
  dentry : Nat
  mnt : Nat
  deriving DecidableEq, Repr

/-- What `lookup_one_len` returns: an error, or a lower dentry with a reference to it. -/
inductive LookupResult where
  | error (errno : Errno)
  | negative (dentry : Nat)
  | positive (dentry : Nat) (inode : LowerInode)

/-- What answers a lookup. -/
structure LookupAnswer where
  found : LookupResult
  /-- `teadfs_zalloc` of the private data. -/
  zalloc : Bool
  get : GetAnswer

structure Dentries where
  inodes : InodeCache
  /-- The private data of the live upper dentries, where it is set. -/
  live : List (Option LowerPath)
  /-- The references to lower dentries and to lower mounts. -/
  dentryRefs : List Nat
  mntRefs : List Nat

namespace Dentries

def dget (dentry : Nat) (s : Dentries) : Dentries := { s with dentryRefs := dentry :: s.dentryRefs }

def dput (dentry : Nat) (s : Dentries) : Dentries :=
  { s with dentryRefs := s.dentryRefs.erase dentry }

def mntget (mnt : Nat) (s : Dentries) : Dentries := { s with mntRefs := mnt :: s.mntRefs }

def mntput (mnt : Nat) (s : Dentries) : Dentries := { s with mntRefs := s.mntRefs.erase mnt }

/-- The VFS has a dentry more, whose private data the lookup has left so. -/
def add (path : Option LowerPath) (s : Dentries) : Dentries := { s with live := path :: s.live }

/-- `teadfs_lookup_interpose`, which is handed the reference to `lowerDentry`. -/
def teadfsLookupInterpose (a : LookupAnswer) (parent : LowerPath) (lowerDentry : Nat)
    (lowerInode : Option LowerInode) (s : Dentries) : Int × Dentries :=
  if a.zalloc = false then (enomem, (s.dput lowerDentry).add none)
  else
    let s := s.mntget parent.mnt
    match lowerInode with
    | none => (0, s.add (some ⟨lowerDentry, parent.mnt⟩))
    | some l =>
        let r := s.inodes.getAndUnlock a.get l
        let s := { s with inodes := r.2 }
        -- the private data is freed and reset, the references in it are not put
        if r.1 ≠ 0 then (r.1, s.add none)
        else (0, s.add (some ⟨lowerDentry, parent.mnt⟩))

/-- `teadfs_lookup` in the directory with the lower path `parent`. -/
def teadfsLookup (a : LookupAnswer) (parent : LowerPath) (s : Dentries) : Int × Dentries :=
  match a.found with
  | .error errno => (errno, s.add none)
  | .negative d => teadfsLookupInterpose a parent d none (s.dget d)
  | .positive d l => teadfsLookupInterpose a parent d (some l) (s.dget d)

/-- `teadfs_d_release` of the dentry at `k`, which is gone then. -/
def teadfsDRelease (k : Nat) (s : Dentries) : Dentries :=
  match s.live[k]? with
  | none => s
  | some none => { s with live := s.live.eraseIdx k }
  | some (some path) =>
      { ((s.dput path.dentry).mntput path.mnt) with live := s.live.eraseIdx k }

/-- Only the root is there. -/
def mounted (inodes : InodeCache) (root : LowerPath) : Dentries :=
  ⟨inodes, [some root], [root.dentry], [root.mnt]⟩

end Dentries

inductive PathOp where
  | lookup (parent : Nat) (a : LookupAnswer)
  | release (k : Nat)

namespace PathOp

/-- The directory of a lookup is live and has its lower path; what is released is live. -/
def Called (s : Dentries) : PathOp → Prop
  | .lookup parent _ => ∃ path, s.live[parent]? = some (some path)
  | .release k => k < s.live.length

def run (s : Dentries) : PathOp → Int × Dentries
  | .lookup parent a =>
      match s.live[parent]? with
      | some (some path) => s.teadfsLookup a path
      | _ => (0, s)
  | .release k => (0, s.teadfsDRelease k)

/-- A lookup finds a name, has its private data, and then gets no inode: the lower inode is on
another super block, is on its way out, or there is no upper one to be had. -/
def Unbound (lowerSb : Nat) : PathOp → Prop
  | .lookup _ a => ∃ d l, a.found = .positive d l ∧ a.zalloc = true ∧ a.get.Fails l lowerSb
  | .release _ => False

end PathOp

namespace Dentries

def next (s : Dentries) (op : PathOp) : Dentries := (op.run s).2

/-- The lower paths of the live dentries that have theirs set. -/
def paths (s : Dentries) : List LowerPath := s.live.filterMap id

/-- The references are one of each for every path in `paths`, and for every `lost` one. -/
structure Holds (lost : List LowerPath) (s : Dentries) : Prop where
  dentries : s.dentryRefs.Perm ((lost ++ s.paths).map LowerPath.dentry)
  mnts : s.mntRefs.Perm ((lost ++ s.paths).map LowerPath.mnt)

/-- The references are exactly those of the live dentries. -/
def Balanced (s : Dentries) : Prop :=
  s.dentryRefs.Perm (s.paths.map LowerPath.dentry) ∧ s.mntRefs.Perm (s.paths.map LowerPath.mnt)

variable {s : Dentries} {lost : List LowerPath}

theorem Holds.balanced_iff (holds : s.Holds lost) : s.Balanced ↔ lost = [] := by
  constructor
  · intro balanced
    have length := holds.dentries.symm.trans balanced.1 |>.length_eq
    rw [List.length_map, List.length_map, List.length_append] at length
    exact List.eq_nil_of_length_eq_zero (by omega)
  · rintro rfl
    exact ⟨holds.dentries, holds.mnts⟩

theorem Holds.add_none (holds : s.Holds lost) : (s.add none).Holds lost :=
  ⟨holds.dentries, holds.mnts⟩

/-- A new dentry with its path, and one reference more of each. -/
theorem Holds.add_some (holds : s.Holds lost) (d mnt : Nat) :
    (((s.dget d).mntget mnt).add (some ⟨d, mnt⟩)).Holds lost := by
  have shape : (((s.dget d).mntget mnt).add (some ⟨d, mnt⟩)).paths = ⟨d, mnt⟩ :: s.paths := rfl
  have moved : ((⟨d, mnt⟩ : LowerPath) :: (lost ++ s.paths)).Perm
      (lost ++ ⟨d, mnt⟩ :: s.paths) := List.perm_middle.symm
  refine ⟨?_, ?_⟩
  · rw [shape]
    exact (holds.dentries.cons d).trans (moved.map LowerPath.dentry)
  · rw [shape]
    exact (holds.mnts.cons mnt).trans (moved.map LowerPath.mnt)

/-- A new dentry without its path, and one reference more of each: they are lost. -/
theorem Holds.lose (holds : s.Holds lost) (d mnt : Nat) :
    (((s.dget d).mntget mnt).add none).Holds (⟨d, mnt⟩ :: lost) :=
  ⟨holds.dentries.cons d, holds.mnts.cons mnt⟩

@[simp] theorem dput_dget (d : Nat) : (s.dget d).dput d = s := by
  simp [dget, dput]

end Dentries

/-! ## One operation -/

section Operations

variable {s : Dentries} {lost : List LowerPath} {a : LookupAnswer} {parent : LowerPath}

/-- What a lookup does that has its private data. -/
theorem teadfsLookupInterpose_positive (allocated : a.zalloc = true) (d : Nat) (l : LowerInode) :
    s.teadfsLookupInterpose a parent d (some l) =
      if a.get.Fails l s.inodes.lowerSb then
        ((s.inodes.getAndUnlock a.get l).1,
          { (s.mntget parent.mnt).add none with inodes := (s.inodes.getAndUnlock a.get l).2 })
      else
        (0, { (s.mntget parent.mnt).add (some ⟨d, parent.mnt⟩) with
          inodes := (s.inodes.getAndUnlock a.get l).2 }) := by
  have got : (s.inodes.getAndUnlock a.get l).1 ≠ 0 ↔ a.get.Fails l s.inodes.lowerSb := by
    rw [ne_eq, InodeCache.getAndUnlock_eq_zero_iff, not_not]
  have inodes : (s.mntget parent.mnt).inodes = s.inodes := rfl
  simp only [Dentries.teadfsLookupInterpose, allocated, Bool.true_eq_false, if_false, inodes, got]
  rfl

/-- What a lookup can do: hold the path it has found, hold nothing and fail, or fail and lose
what it holds, which is the lookup without an inode. -/
theorem teadfsLookup_cases (k : Nat) :
    (¬ (PathOp.lookup k a).Unbound s.inodes.lowerSb ∧ ∃ d inodes,
        inodes.lowerSb = s.inodes.lowerSb ∧ s.teadfsLookup a parent =
          (0, { ((s.dget d).mntget parent.mnt).add (some ⟨d, parent.mnt⟩) with
            inodes := inodes })) ∨
      (¬ (PathOp.lookup k a).Unbound s.inodes.lowerSb ∧ ∃ rc ≠ 0,
        s.teadfsLookup a parent = (rc, s.add none)) ∨
      ((PathOp.lookup k a).Unbound s.inodes.lowerSb ∧ ∃ d inodes, ∃ rc ≠ 0,
        inodes.lowerSb = s.inodes.lowerSb ∧ s.teadfsLookup a parent =
          (rc, { ((s.dget d).mntget parent.mnt).add none with inodes := inodes })) := by
  unfold Dentries.teadfsLookup
  cases found : a.found with
  | error errno =>
      refine .inr (.inl ⟨?_, errno, errno.property.ne, rfl⟩)
      rintro ⟨d, l, positive, -⟩
      cases found.symm.trans positive
  | negative d =>
      have bound : ¬ (PathOp.lookup k a).Unbound s.inodes.lowerSb := by
        rintro ⟨d, l, positive, -⟩
        cases found.symm.trans positive
      cases allocated : a.zalloc with
      | false =>
          refine .inr (.inl ⟨bound, enomem, by decide, ?_⟩)
          simp only [Dentries.teadfsLookupInterpose, allocated, if_true, Dentries.dput_dget]
      | true =>
          refine .inl ⟨bound, d, s.inodes, rfl, ?_⟩
          simp only [Dentries.teadfsLookupInterpose, allocated, Bool.true_eq_false, if_false]
          rfl
  | positive d l =>
      cases allocated : a.zalloc with
      | false =>
          refine .inr (.inl ⟨?_, enomem, by decide, ?_⟩)
          · rintro ⟨d, l, -, has, -⟩
            cases allocated.symm.trans has
          · simp only [Dentries.teadfsLookupInterpose, allocated, if_true, Dentries.dput_dget]
      | true =>
          have sb := @InodeCache.getAndUnlock_lowerSb s.inodes a.get l
          have after := @teadfsLookupInterpose_positive (s.dget d) a parent allocated d l
          dsimp only
          rw [after]
          by_cases failed : a.get.Fails l s.inodes.lowerSb
          · have nonzero : (s.inodes.getAndUnlock a.get l).1 ≠ 0 :=
              fun zero => InodeCache.getAndUnlock_eq_zero_iff.mp zero failed
            exact .inr (.inr ⟨⟨d, l, found, allocated, failed⟩, d, _, _, nonzero, sb, if_pos failed⟩)
          · refine .inl ⟨?_, d, _, sb, if_neg failed⟩
            rintro ⟨d', l', positive, -, fails⟩
            cases found.symm.trans positive
            exact failed fails

/-- A release gives the dentry's path back. -/
theorem Dentries.Holds.release (holds : s.Holds lost) (k : Nat) :
    (s.teadfsDRelease k).Holds lost := by
  unfold Dentries.teadfsDRelease
  cases there : s.live[k]? with
  | none => exact holds
  | some path =>
      obtain ⟨inside, here⟩ := List.getElem?_eq_some_iff.mp there
      have parts := (List.getElem_cons_eraseIdx_perm inside).filterMap (id : Option LowerPath → _)
      rw [here, List.filterMap_cons] at parts
      cases path with
      | none =>
          have same : ((s.live.eraseIdx k).filterMap id).Perm s.paths := parts
          exact ⟨holds.dentries.trans ((same.symm.append_left lost).map _),
            holds.mnts.trans ((same.symm.append_left lost).map _)⟩
      | some path =>
          have split : (path :: (lost ++ (s.live.eraseIdx k).filterMap id)).Perm
              (lost ++ s.paths) :=
            List.perm_middle.symm.trans ((show (path :: (s.live.eraseIdx k).filterMap id).Perm
              s.paths from parts).append_left lost)
          refine ⟨?_, ?_⟩
          · have erased := (holds.dentries.trans (split.map LowerPath.dentry).symm).erase path.dentry
            rwa [List.map_cons, List.erase_cons_head] at erased
          · have erased := (holds.mnts.trans (split.map LowerPath.mnt).symm).erase path.mnt
            rwa [List.map_cons, List.erase_cons_head] at erased

end Operations

namespace PathOp

variable {s : Dentries} {lost : List LowerPath} {op : PathOp}

theorem run_lookup {k : Nat} {a : LookupAnswer} {path : LowerPath}
    (there : s.live[k]? = some (some path)) :
    (PathOp.lookup k a).run s = s.teadfsLookup a path := by
  rw [run, there]

/-- One operation loses at most one path, and loses one exactly if it is a lookup that gets no
inode. -/
theorem run_holds (holds : s.Holds lost) (called : op.Called s) :
    ∃ lost', (s.next op).Holds lost' ∧ (lost' = [] ↔ lost = [] ∧ ¬ op.Unbound s.inodes.lowerSb) := by
  cases op with
  | release k =>
      refine ⟨lost, holds.release k, ?_⟩
      simp [Unbound]
  | lookup k a =>
      obtain ⟨path, there⟩ := called
      rw [Dentries.next, run_lookup there]
      rcases @teadfsLookup_cases s a path k with
        ⟨bound, d, inodes, -, after⟩ | ⟨bound, rc, -, after⟩ |
          ⟨unbound, d, inodes, rc, -, -, after⟩
      · have kept := holds.add_some d path.mnt
        rw [after]
        exact ⟨lost, ⟨kept.dentries, kept.mnts⟩, by simp [bound]⟩
      · rw [after]
        exact ⟨lost, holds.add_none, by simp [bound]⟩
      · have more := holds.lose d path.mnt
        rw [after]
        exact ⟨_, ⟨more.dentries, more.mnts⟩, by simp [unbound]⟩

/-- A lookup that fails keeps every count, if it loses nothing. -/
theorem run_failed (called : op.Called s) (bound : ¬ op.Unbound s.inodes.lowerSb)
    (failed : (op.run s).1 ≠ 0) :
    (op.run s).2.dentryRefs = s.dentryRefs ∧ (op.run s).2.mntRefs = s.mntRefs := by
  cases op with
  | release k => exact absurd rfl failed
  | lookup k a =>
      obtain ⟨path, there⟩ := called
      rw [run_lookup there] at failed ⊢
      rcases @teadfsLookup_cases s a path k with
        ⟨-, d, inodes, -, after⟩ | ⟨-, rc, -, after⟩ | ⟨unbound, -⟩
      · rw [after] at failed
        exact absurd rfl failed
      · rw [after]
        exact ⟨rfl, rfl⟩
      · exact absurd unbound bound

theorem next_lowerSb : (s.next op).inodes.lowerSb = s.inodes.lowerSb := by
  cases op with
  | release k =>
      show (s.teadfsDRelease k).inodes.lowerSb = _
      unfold Dentries.teadfsDRelease
      split <;> rfl
  | lookup k a =>
      rw [Dentries.next, run]
      split
      · rename_i path there
        rcases @teadfsLookup_cases s a path k with
          ⟨-, d, inodes, sb, after⟩ | ⟨-, rc, -, after⟩ | ⟨-, d, inodes, rc, -, sb, after⟩
        · rw [after]
          exact sb
        · rw [after]
          rfl
        · rw [after]
          exact sb
      · rfl

end PathOp

/-! ## Every run -/

namespace Dentries

open Simulation

/-- In a run the lost paths are those of the lookups that got no inode. -/
theorem run_holds {s : Dentries} {lost : List LowerPath} {ops : List PathOp} (holds : s.Holds lost)
    (called : Allowed (fun s op => PathOp.Called s op) next s ops) :
    ∃ lost', (ops.foldl next s).Holds lost' ∧
      (lost' = [] ↔ lost = [] ∧ ∀ op ∈ ops, ¬ op.Unbound s.inodes.lowerSb) := by
  induction ops generalizing s lost with
  | nil => exact ⟨lost, holds, by simp⟩
  | cons op ops ih =>
      obtain ⟨first, rest⟩ := called
      obtain ⟨lost₁, holds₁, none₁⟩ := PathOp.run_holds holds first
      obtain ⟨lost₂, holds₂, none₂⟩ := ih holds₁ rest
      refine ⟨lost₂, holds₂, ?_⟩
      rw [none₂, none₁, PathOp.next_lowerSb, List.forall_mem_cons, and_assoc]

theorem foldl_lowerSb (s : Dentries) (ops : List PathOp) :
    (ops.foldl next s).inodes.lowerSb = s.inodes.lowerSb := by
  induction ops generalizing s with
  | nil => rfl
  | cons op ops ih => exact (ih (s.next op)).trans PathOp.next_lowerSb

theorem mounted_holds (inodes : InodeCache) (root : LowerPath) : (mounted inodes root).Holds [] :=
  ⟨.refl _, .refl _⟩

/-- **Lower path references balance, unless a lookup gets no inode.** In a run of lookups and
releases from the mount on, the references are at every moment one to the lower dentry and one
to the lower mount for each live dentry with its private data set, and a failing lookup leaves
every count as it was, exactly if no lookup of the run finds a name and then gets no inode
for it. -/
theorem path_references_balance_iff {inodes : InodeCache} {root : LowerPath} {ops : List PathOp}
    (called : Allowed (fun s op => PathOp.Called s op) next (mounted inodes root) ops) :
    (∀ before after, ops = before ++ after →
      (before.foldl next (mounted inodes root)).Balanced ∧
        ∀ op rest, after = op :: rest → (op.run (before.foldl next (mounted inodes root))).1 ≠ 0 →
          (op.run (before.foldl next (mounted inodes root))).2.dentryRefs.Perm
              (before.foldl next (mounted inodes root)).dentryRefs ∧
            (op.run (before.foldl next (mounted inodes root))).2.mntRefs.Perm
              (before.foldl next (mounted inodes root)).mntRefs) ↔
      ∀ op ∈ ops, ¬ op.Unbound inodes.lowerSb := by
  constructor
  · intro balances
    obtain ⟨lost, holds, none⟩ := run_holds (mounted_holds inodes root) called
    have all := (balances ops [] (List.append_nil ops).symm).1
    exact (none.mp (holds.balanced_iff.mp all)).2
  · rintro bound before after rfl
    obtain ⟨so, further⟩ := Allowed.append_iff.mp called
    obtain ⟨lost, holds, none⟩ := run_holds (mounted_holds inodes root) so
    have nothing : lost = [] :=
      none.mpr ⟨rfl, fun op member => bound op (List.mem_append_left _ member)⟩
    refine ⟨holds.balanced_iff.mpr nothing, ?_⟩
    rintro op rest rfl failed
    have kept := PathOp.run_failed further.1 ?_ failed
    · rw [kept.1, kept.2]
      exact ⟨.refl _, .refl _⟩
    · rw [foldl_lowerSb]
      exact bound op (List.mem_append_right _ List.mem_cons_self)

end Dentries

/-- A mounted root, over lower super block 1. -/
def exampleRoot : Dentries := .mounted (.fresh 1) ⟨10, 20⟩

/-- A lookup in the root that finds lower dentry 11, with a lower inode of super block 1. -/
def lookupOf (get : GetAnswer) : PathOp := .lookup 0 ⟨.positive 11 ⟨5, 1⟩, true, get⟩

/-- Another lookup in it, when it is the second of the live dentries: there is no memory for
the private data. -/
def failingLookup : PathOp := .lookup 1 ⟨.positive 12 ⟨6, 1⟩, false, ⟨true, true⟩⟩

/-- What the first lookup has found is released after the second one has failed. -/
def lookupsAndRelease : List PathOp := [lookupOf ⟨true, true⟩, failingLookup, .release 1]

theorem lookups_and_release_balance :
    (lookupsAndRelease.foldl Dentries.next exampleRoot).Balanced ∧
      (failingLookup.run (exampleRoot.next (lookupOf ⟨true, true⟩))).1 = enomem ∧
      (failingLookup.run (exampleRoot.next (lookupOf ⟨true, true⟩))).2.dentryRefs.Perm
        (exampleRoot.next (lookupOf ⟨true, true⟩)).dentryRefs := by
  have called : Simulation.Allowed (fun s op => PathOp.Called s op) Dentries.next exampleRoot
      lookupsAndRelease := ⟨⟨_, rfl⟩, ⟨_, rfl⟩, show 1 < 3 by decide, trivial⟩
  have bound : ∀ op ∈ lookupsAndRelease, ¬ op.Unbound (InodeCache.fresh 1).lowerSb := by
    intro op member unbound
    rcases List.mem_cons.mp member with rfl | member
    · obtain ⟨d, l, found, -, fails⟩ := unbound
      cases found
      revert fails
      decide
    rcases List.mem_cons.mp member with rfl | member
    · obtain ⟨d, l, -, allocated, -⟩ := unbound
      cases allocated
    · cases List.mem_singleton.mp member
      exact unbound
  have balances := (Dentries.path_references_balance_iff called).mpr bound
  refine ⟨(balances lookupsAndRelease [] rfl).1, rfl, ?_⟩
  exact ((balances [lookupOf ⟨true, true⟩] [failingLookup, .release 1] rfl).2 _ _ rfl
    (by decide)).1

/-- The lower inode is on its way out, so `igrab` fails: the lookup returns `-ESTALE` with the
references to lower dentry 11 and its mount kept. -/
theorem unbound_lookup_keeps_references :
    ¬ ∀ (inodes : InodeCache) (root : LowerPath) (ops : List PathOp),
      Simulation.Allowed (fun s op => PathOp.Called s op) Dentries.next
        (.mounted inodes root) ops →
      (ops.foldl Dentries.next (.mounted inodes root)).Balanced := by
  intro balances
  obtain ⟨dentries, -⟩ := balances (.fresh 1) ⟨10, 20⟩ [lookupOf ⟨false, true⟩]
    ⟨⟨_, rfl⟩, trivial⟩
  exact absurd dentries.length_eq (by decide)

end Teadfs
