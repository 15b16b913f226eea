/-
# Teadfs.InodeCache — one upper inode for each lower inode

`__teadfs_get_inode` of `lookup.c`, with its callers, and `teadfs_evict_inode`. It takes a
reference to the lower inode before it knows what `iget5_locked` will say. A new upper inode
keeps that reference until it is evicted; a cached one has its own, so the reference goes
back, as it does where there is no inode to be had.

What tells the two apart is `I_NEW`, which the caller clears when it is done with the new
inode. So the count is right because every caller does (`Single.unlocked`), and then it is
right in every run (`one_inode_one_reference`).
-/
import Mathlib.Data.List.Nodup
import Mathlib.Logic.Function.Basic
import Teadfs.Kernel

namespace Teadfs

set_option autoImplicit false

def exdev : Errno := ⟨-18, by decide⟩
def estale : Errno := ⟨-116, by decide⟩

/-- A lower inode, and the super block it is on. -/
structure LowerInode where
  ino : Nat
  sb : Nat
  deriving DecidableEq, Repr

/-- A cached upper inode. -/
structure UpperInode where
  lower : LowerInode
  /-- `I_NEW` is set. -/
  isNew : Bool
  deriving DecidableEq, Repr

/-- What answers a call: whether `igrab` takes its reference, and whether `iget5_locked` has
an inode to return. -/
structure GetAnswer where
  igrab : Bool
  iget : Bool
  deriving DecidableEq, Repr

/-- A call fails: the lower inode is on another super block, is on its way out, or there is no
upper inode to be had. -/
def GetAnswer.Fails (a : GetAnswer) (l : LowerInode) (lowerSb : Nat) : Prop :=
  l.sb ≠ lowerSb ∨ a.igrab = false ∨ a.iget = false

instance (a : GetAnswer) (l : LowerInode) (lowerSb : Nat) : Decidable (a.Fails l lowerSb) :=
  inferInstanceAs (Decidable (_ ∨ _))

/-- The inodes of a super block, and what the module holds of the lower ones. -/
structure InodeCache where
  /-- `teadfs_superblock_to_lower`. -/
  lowerSb : Nat
  inodes : List UpperInode
  refs : LowerInode → Int

namespace InodeCache

/-- `igrab`, once it has succeeded. -/
def grab (l : LowerInode) (s : InodeCache) : InodeCache :=
  { s with refs := Function.update s.refs l (s.refs l + 1) }

/-- `iput`. -/
def iput (l : LowerInode) (s : InodeCache) : InodeCache :=
  { s with refs := Function.update s.refs l (s.refs l - 1) }

/-- `teadfs_inode_test`. -/
def teadfsInodeTest (l : LowerInode) (u : UpperInode) : Bool := decide (u.lower = l)

/-- `iget5_locked`: the flag `I_NEW` of the inode it returns, if it returns one: a cached one
that passes the test, or a new one, which `teadfs_inode_set` gives its lower inode. -/
def iget5Locked (a : GetAnswer) (l : LowerInode) (s : InodeCache) : Option Bool × InodeCache :=
  if a.iget = false then (none, s)
  else
    match s.inodes.find? (teadfsInodeTest l) with
    | some u => (some u.isNew, s)
    | none => (some true, { s with inodes := ⟨l, true⟩ :: s.inodes })

/-- `__teadfs_get_inode`: an error, or the flag `I_NEW` of the inode. -/
def teadfsGetInodeLocked (a : GetAnswer) (l : LowerInode) (s : InodeCache) :
    Except Errno Bool × InodeCache :=
  if l.sb ≠ s.lowerSb then (.error exdev, s)
  else if a.igrab = false then (.error estale, s)
  else
    match iget5Locked a l (s.grab l) with
    | (none, s) => (.error ⟨eacces, by decide⟩, s.iput l)
    | (some isNew, s) => (.ok isNew, if isNew then s else s.iput l)

/-- `unlock_new_inode` of the inode over `l`. -/
def unlockNewInode (l : LowerInode) (s : InodeCache) : InodeCache :=
  { s with inodes := s.inodes.map fun u => if u.lower = l then { u with isNew := false } else u }

/-- A call of `__teadfs_get_inode` as `teadfs_lookup_interpose` and `teadfs_get_inode` make
it: they unlock the inode if it is new. -/
def getAndUnlock (a : GetAnswer) (l : LowerInode) (s : InodeCache) : Int × InodeCache :=
  match s.teadfsGetInodeLocked a l with
  | (.error errno, s) => (errno, s)
  | (.ok isNew, s) => (0, if isNew then s.unlockNewInode l else s)

/-- `teadfs_get_inode`, for `teadfs_interpose` and `teadfs_mount`. -/
def teadfsGetInode (a : GetAnswer) (l : LowerInode) (s : InodeCache) : Int × InodeCache :=
  getAndUnlock a l s

/-- What `teadfs_create` does with the inode: it unlocks it in any case. -/
def createInode (a : GetAnswer) (l : LowerInode) (s : InodeCache) : Int × InodeCache :=
  match s.teadfsGetInodeLocked a l with
  | (.error errno, s) => (errno, s)
  | (.ok _, s) => (0, s.unlockNewInode l)

/-- `teadfs_evict_inode` of the inode at `k`. -/
def teadfsEvictInode (k : Nat) (s : InodeCache) : InodeCache :=
  match s.inodes[k]? with
  | none => s
  | some u => { s with inodes := s.inodes.eraseIdx k }.iput u.lower

/-- A super block with nothing cached. -/
def fresh (lowerSb : Nat) : InodeCache := ⟨lowerSb, [], fun _ => 0⟩

end InodeCache

/-- What happens to the inodes of a super block. -/
inductive InodeOp where
  | lookup (l : LowerInode) (a : GetAnswer)
  | create (l : LowerInode) (a : GetAnswer)
  | interpose (l : LowerInode) (a : GetAnswer)
  | mount (l : LowerInode) (a : GetAnswer)
  | evict (k : Nat)

def InodeOp.run (s : InodeCache) : InodeOp → Int × InodeCache
  | .lookup l a => s.getAndUnlock a l
  | .create l a => s.createInode a l
  | .interpose l a => s.teadfsGetInode a l
  | .mount l a => s.teadfsGetInode a l
  | .evict k => (0, s.teadfsEvictInode k)

/-! ## The invariant -/

namespace InodeCache

/-- Between two operations every lower inode has one upper inode at most, none of them is
new any more, and each holds the one reference to its lower inode. -/
structure Single (s : InodeCache) : Prop where
  nodup : (s.inodes.map UpperInode.lower).Nodup
  unlocked : ∀ u ∈ s.inodes, u.isNew = false
  refs : ∀ l, s.refs l = (s.inodes.map UpperInode.lower).count l

variable {s : InodeCache} {a : GetAnswer} {l : LowerInode}

theorem fresh_single (lowerSb : Nat) : (fresh lowerSb).Single :=
  ⟨List.nodup_nil, nofun, fun _ => rfl⟩

@[simp] theorem iput_grab : (s.grab l).iput l = s := by
  simp [grab, iput]

@[simp] theorem map_lower_unlockNewInode :
    (s.unlockNewInode l).inodes.map UpperInode.lower = s.inodes.map UpperInode.lower := by
  rw [unlockNewInode, List.map_map]
  refine List.map_congr_left fun u _ => ?_
  rw [Function.comp_apply]
  split <;> rfl

/-- A failing call leaves everything as it was. -/
theorem teadfsGetInodeLocked_failed {errno : Errno} {s' : InodeCache}
    (failed : s.teadfsGetInodeLocked a l = (.error errno, s')) : s' = s := by
  unfold teadfsGetInodeLocked at failed
  split_ifs at failed with foreign stale
  · cases failed
    rfl
  · cases failed
    rfl
  · unfold iget5Locked at failed
    split_ifs at failed with none
    · cases failed
      exact iput_grab
    · cases found : (s.grab l).inodes.find? (teadfsInodeTest l) with
      | some u =>
          rw [found] at failed
          cases failed
      | none =>
          rw [found] at failed
          cases failed

/-- A call that succeeds finds the inode, and nothing changes, or makes it, with the
reference it took. -/
theorem teadfsGetInodeLocked_ok {isNew : Bool} {s' : InodeCache} (single : s.Single)
    (got : s.teadfsGetInodeLocked a l = (.ok isNew, s')) :
    (isNew = false ∧ s' = s) ∨
      (isNew = true ∧ l ∉ s.inodes.map UpperInode.lower ∧
        s' = { s.grab l with inodes := ⟨l, true⟩ :: s.inodes }) := by
  unfold teadfsGetInodeLocked at got
  split_ifs at got with foreign stale
  · cases got
  · cases got
  · unfold iget5Locked at got
    split_ifs at got with none
    · cases got
    · cases found : (s.grab l).inodes.find? (teadfsInodeTest l) with
      | some u =>
          have old : u.isNew = false := single.unlocked u (List.mem_of_find?_eq_some found)
          rw [found] at got
          cases got
          rw [old]
          exact .inl ⟨rfl, iput_grab⟩
      | none =>
          rw [found] at got
          cases got
          refine .inr ⟨rfl, ?_, rfl⟩
          intro member
          obtain ⟨u, cached, rfl⟩ := List.mem_map.mp member
          have missed := List.find?_eq_none.mp found u cached
          simp [teadfsInodeTest] at missed

/-- A new inode that is unlocked is one inode more, with its reference. -/
theorem Single.add (single : s.Single) (absent : l ∉ s.inodes.map UpperInode.lower) :
    (InodeCache.unlockNewInode l { s.grab l with inodes := ⟨l, true⟩ :: s.inodes }).Single where
  nodup := by
    rw [map_lower_unlockNewInode]
    exact List.nodup_cons.mpr ⟨absent, single.nodup⟩
  unlocked := by
    intro u member
    obtain ⟨v, old, rfl⟩ := List.mem_map.mp member
    split
    · rfl
    · rename_i other
      rcases List.mem_cons.mp old with rfl | cached
      · exact absurd rfl other
      · exact single.unlocked v cached
  refs := by
    intro m
    rw [map_lower_unlockNewInode, List.map_cons]
    show Function.update s.refs l (s.refs l + 1) m = _
    by_cases same : m = l
    · subst same
      rw [Function.update_self, List.count_cons_self, single.refs m]
      rfl
    · rw [Function.update_of_ne same, List.count_cons_of_ne (Ne.symm same)]
      exact single.refs m

/-- To unlock what is not new changes nothing. -/
theorem Single.unlockNewInode_eq (single : s.Single) : s.unlockNewInode l = s := by
  have same : s.inodes.map (fun u => if u.lower = l then { u with isNew := false } else u) =
      s.inodes := by
    refine (List.map_congr_left fun u cached => ?_).trans (List.map_id s.inodes)
    have old := single.unlocked u cached
    split
    · rw [← old]
      rfl
    · rfl
  rw [unlockNewInode, same]

theorem createInode_eq (single : s.Single) : s.createInode a l = s.getAndUnlock a l := by
  unfold createInode getAndUnlock
  cases got : s.teadfsGetInodeLocked a l with
  | mk result s' =>
      cases result with
      | error errno => rfl
      | ok isNew =>
          rcases teadfsGetInodeLocked_ok single got with ⟨rfl, rfl⟩ | ⟨rfl, -, -⟩
          · exact congrArg (Prod.mk 0) single.unlockNewInode_eq
          · rfl

theorem Single.getAndUnlock (single : s.Single) : (s.getAndUnlock a l).2.Single := by
  unfold InodeCache.getAndUnlock
  cases got : s.teadfsGetInodeLocked a l with
  | mk result s' =>
      cases result with
      | error errno =>
          cases teadfsGetInodeLocked_failed got
          exact single
      | ok isNew =>
          rcases teadfsGetInodeLocked_ok single got with ⟨rfl, rfl⟩ | ⟨rfl, absent, rfl⟩
          · exact single
          · exact single.add absent

/-- What a call returns says whether it failed. -/
theorem getAndUnlock_eq_zero_iff : (s.getAndUnlock a l).1 = 0 ↔ ¬ a.Fails l s.lowerSb := by
  unfold getAndUnlock teadfsGetInodeLocked GetAnswer.Fails
  by_cases foreign : l.sb ≠ s.lowerSb
  · simp [foreign, exdev]
  cases grabbed : a.igrab with
  | false => simp [foreign, estale]
  | true =>
      cases got : a.iget with
      | false => simp [iget5Locked, foreign, got, eacces]
      | true =>
          cases found : (s.grab l).inodes.find? (teadfsInodeTest l) with
          | some u => simp [iget5Locked, foreign, got, found]
          | none => simp [iget5Locked, foreign, got, found]

theorem iget5Locked_lowerSb : (s.iget5Locked a l).2.lowerSb = s.lowerSb := by
  unfold iget5Locked
  split_ifs
  · rfl
  · split <;> rfl

theorem teadfsGetInodeLocked_lowerSb : (s.teadfsGetInodeLocked a l).2.lowerSb = s.lowerSb := by
  have same : ((s.grab l).iget5Locked a l).2.lowerSb = s.lowerSb := iget5Locked_lowerSb
  unfold teadfsGetInodeLocked
  split_ifs
  · rfl
  · rfl
  · generalize (s.grab l).iget5Locked a l = r at same ⊢
    obtain ⟨_ | isNew, s'⟩ := r
    · exact same
    · cases isNew <;> exact same

theorem getAndUnlock_lowerSb : (s.getAndUnlock a l).2.lowerSb = s.lowerSb := by
  have same := @teadfsGetInodeLocked_lowerSb s a l
  unfold getAndUnlock
  generalize s.teadfsGetInodeLocked a l = r at same ⊢
  obtain ⟨errno | isNew, s'⟩ := r
  · exact same
  · cases isNew <;> exact same

theorem getAndUnlock_failed (failed : (s.getAndUnlock a l).1 < 0) :
    (s.getAndUnlock a l).2 = s := by
  unfold getAndUnlock at failed ⊢
  cases got : s.teadfsGetInodeLocked a l with
  | mk result s' =>
      rw [got] at failed
      cases result with
      | error errno => exact teadfsGetInodeLocked_failed got
      | ok isNew => exact absurd failed (Int.lt_irrefl 0)

/-- An inode that is evicted takes its reference with it. -/
theorem Single.evict (single : s.Single) (k : Nat) : (s.teadfsEvictInode k).Single := by
  unfold teadfsEvictInode
  cases cached : s.inodes[k]? with
  | none => exact single
  | some u =>
      obtain ⟨inside, rfl⟩ := List.getElem?_eq_some_iff.mp cached
      have parts := (List.getElem_cons_eraseIdx_perm inside).map UpperInode.lower
      refine ⟨?_, ?_, ?_⟩
      · exact single.nodup.sublist ((List.eraseIdx_sublist s.inodes k).map _)
      · intro v member
        exact single.unlocked v (List.mem_of_mem_eraseIdx member)
      · intro m
        show Function.update s.refs s.inodes[k].lower (s.refs s.inodes[k].lower - 1) m =
          ((s.inodes.eraseIdx k).map UpperInode.lower).count m
        have count := parts.count_eq m
        rw [List.map_cons] at count
        by_cases same : m = s.inodes[k].lower
        · subst same
          rw [List.count_cons_self] at count
          rw [Function.update_self, single.refs, ← count]
          omega
        · rw [List.count_cons_of_ne (Ne.symm same)] at count
          rw [Function.update_of_ne same, single.refs, ← count]

end InodeCache

theorem InodeOp.run_single {s : InodeCache} (single : s.Single) (op : InodeOp) :
    (op.run s).2.Single := by
  cases op with
  | lookup l a => exact single.getAndUnlock
  | create l a =>
      rw [InodeOp.run, InodeCache.createInode_eq single]
      exact single.getAndUnlock
  | interpose l a => exact single.getAndUnlock
  | mount l a => exact single.getAndUnlock
  | evict k => exact single.evict k

theorem InodeOp.run_failed {s : InodeCache} (single : s.Single) {op : InodeOp}
    (failed : (op.run s).1 < 0) : (op.run s).2 = s := by
  cases op with
  | lookup l a => exact InodeCache.getAndUnlock_failed failed
  | create l a =>
      rw [InodeOp.run, InodeCache.createInode_eq single] at failed ⊢
      exact InodeCache.getAndUnlock_failed failed
  | interpose l a => exact InodeCache.getAndUnlock_failed failed
  | mount l a => exact InodeCache.getAndUnlock_failed failed
  | evict k => exact absurd failed (Int.lt_irrefl 0)

/-- The inodes of a super block after some operations, from the mount on. -/
def inodesAfter (lowerSb : Nat) (ops : List InodeOp) : InodeCache :=
  ops.foldl (fun s op => (op.run s).2) (.fresh lowerSb)

theorem inodesAfter_single (lowerSb : Nat) (ops : List InodeOp) :
    (inodesAfter lowerSb ops).Single := by
  have run : ∀ s : InodeCache, s.Single → (ops.foldl (fun s op => (op.run s).2) s).Single := by
    induction ops with
    | nil => exact fun s single => single
    | cons op ops ih => exact fun s single => ih _ (InodeOp.run_single single op)
  exact run _ (InodeCache.fresh_single lowerSb)

/-- **One upper inode and one reference for each lower inode.** After any calls and evictions,
in any order and failing anywhere, two cached inodes over one lower inode are the same one, the
references to a lower inode are one if it has an upper inode and none otherwise, and a call
that fails next changes nothing. -/
theorem one_inode_one_reference (lowerSb : Nat) (ops : List InodeOp) :
    (∀ (j k : Nat) (u v : UpperInode), (inodesAfter lowerSb ops).inodes[j]? = some u →
        (inodesAfter lowerSb ops).inodes[k]? = some v → u.lower = v.lower → j = k) ∧
      (∀ l : LowerInode, (inodesAfter lowerSb ops).refs l =
        if ∃ u ∈ (inodesAfter lowerSb ops).inodes, u.lower = l then 1 else 0) ∧
      ∀ op : InodeOp, (op.run (inodesAfter lowerSb ops)).1 < 0 →
        (op.run (inodesAfter lowerSb ops)).2 = inodesAfter lowerSb ops := by
  have single := inodesAfter_single lowerSb ops
  refine ⟨?_, ?_, fun op => InodeOp.run_failed single⟩
  · intro j k u v first second same
    have inside : j < ((inodesAfter lowerSb ops).inodes.map UpperInode.lower).length := by
      rw [List.length_map]
      exact (List.getElem?_eq_some_iff.mp first).1
    refine (List.getElem?_inj inside single.nodup).mp ?_
    rw [List.getElem?_map, List.getElem?_map, first, second, Option.map_some, Option.map_some, same]
  · intro l
    rw [single.refs]
    split
    · rename_i cached
      rw [List.count_eq_one_of_mem single.nodup (List.mem_map.mpr cached)]
      rfl
    · rename_i absent
      rw [List.count_eq_zero.mpr fun member => absent (List.mem_map.mp member)]
      rfl

end Teadfs
