/-
# Teadfs.SuperBlocks — a super block from mount to umount

`teadfs_mount` collects what a super block needs, one thing after the other: its private data,
the super block itself, the backing device, the lower path, an upper inode for the lower root,
the root dentry and its private data. Whatever cannot be had sends it to one exit, which gives
back the lower path if it was found and takes the super block down, and that takes the rest
along (`mount_all_or_nothing`). The private data it frees itself, as long as the super block
does not have it.

`teadfs_kill_block_super` takes down a mounted one, after any lookups, releases and evictions.
What it finds is what `LowerPaths` and `InodeCache` say is there, so it gives back everything
but the paths that lookups without an inode have lost (`umount_returns_all_iff`).

The backing device is there only if `CONFIG_BDICONFIG_BDI` is defined, which it is from kernel
3.11.1 on; the older kernels, for which `Readdir` takes `teadfs_readdir`, have none. Whether it
is defined is the parameter `bdiConfig`, and the theorems hold both ways.
-/
import Teadfs.LowerPaths
import Teadfs.OffsetRange

namespace Teadfs

set_option autoImplicit false

/-! ## What a super block has -/

/-- `s_flags`, by its bits: `MS_RDONLY`, `MS_POSIXACL`, `MS_ACTIVE`, and all others. -/
structure SbFlags where
  rdonly : Bool
  posixacl : Bool
  active : Bool
  rest : Nat
  deriving DecidableEq, Repr

/-- The lower directory a mount is over: its path, its inode, and what the mount reads of its
super block, which is that of the inode. -/
structure LowerRoot where
  path : LowerPath
  inode : LowerInode
  typeName : String
  flags : SbFlags
  limits : SuperBlock

/-- A super block, and what was allocated and referenced for it. -/
structure UpperSuper where
  /-- From `sget` to the last `deactivate_locked_super`. -/
  active : Bool
  /-- `s_fs_info` is set. -/
  fsInfo : Bool
  /-- `s_root` is set. -/
  root : Bool
  flags : SbFlags
  limits : SuperBlock
  /-- The `teadfs_sb_info`s allocated, and the backing devices registered. -/
  sbInfos : Int
  bdis : Int
  dentries : Dentries

namespace Dentries

/-- All dentries released, and then all inodes evicted. -/
def shutdown (d : Dentries) : Dentries :=
  let d := (teadfsDRelease 0)^[d.live.length] d
  { d with inodes := (InodeCache.teadfsEvictInode 0)^[d.inodes.inodes.length] d.inodes }

end Dentries

namespace UpperSuper

/-- Nothing yet. -/
def unmounted : UpperSuper where
  active := false
  fsInfo := false
  root := false
  flags := ⟨false, false, false, 0⟩
  limits := ⟨0, 0⟩
  sbInfos := 0
  bdis := 0
  dentries := ⟨.fresh 0, [], [], []⟩

/-- `kill_anon_super`: what hangs on the root goes, if there is one. -/
def killAnonSuper (s : UpperSuper) : UpperSuper :=
  if s.root then { s with root := false, dentries := s.dentries.shutdown } else s

/-- `teadfs_kill_block_super`. -/
def teadfsKillBlockSuper (bdiConfig : Bool) (s : UpperSuper) : UpperSuper :=
  let sbInfo := s.fsInfo
  let s := s.killAnonSuper
  if sbInfo = false then s
  else
    let s := if bdiConfig then { s with bdis := s.bdis - 1 } else s
    { s with sbInfos := s.sbInfos - 1 }

/-- `deactivate_locked_super` with the last reference. -/
def deactivateLockedSuper (bdiConfig : Bool) (s : UpperSuper) : UpperSuper :=
  { s.teadfsKillBlockSuper bdiConfig with active := false }

/-- `path_put`. -/
def pathPut (path : LowerPath) (s : UpperSuper) : UpperSuper :=
  { s with dentries := (s.dentries.dput path.dentry).mntput path.mnt }

end UpperSuper

/-! ## Mounting -/

/-- What answers a mount. -/
structure MountAnswer where
  /-- `teadfs_zalloc` of the `teadfs_sb_info`. -/
  sbi : Bool
  sget : Option Errno
  /-- `bdi_setup_and_register`, where there is a backing device. -/
  bdi : Option Errno
  kernPath : Except Errno LowerRoot
  get : GetAnswer
  dMakeRoot : Bool
  /-- `teadfs_zalloc` of the root's `teadfs_dentry_info`. -/
  rootInfo : Bool

/-- How a mount ends. -/
inductive MountEnd where
  /-- `dget(s->s_root)`. -/
  | mounted
  | failed (rc : Int)
  /-- `deactivate_locked_super` was handed the error of `sget`. -/
  | oops (errno : Errno)

/-- The fields the mount fills in, from its flags and the lower super block. -/
def UpperSuper.fill (flags : SbFlags) (lower : LowerRoot) (s : UpperSuper) : UpperSuper :=
  let flags := { flags with posixacl := false }
  let flags := { flags with posixacl := flags.posixacl || lower.flags.posixacl }
  { s with
    flags := if lower.flags.rdonly then { flags with rdonly := true } else flags
    limits := Teadfs.teadfsMount lower.limits }

/-- The exit with the lower path. -/
def UpperSuper.giveUp (bdiConfig : Bool) (rc : Int) (lower : LowerRoot) (s : UpperSuper) :
    MountEnd × UpperSuper :=
  (.failed rc, (s.pathPut lower.path).deactivateLockedSuper bdiConfig)

/-- The mount from the lower path on, which is held. -/
def mountLower (bdiConfig : Bool) (a : MountAnswer) (flags : SbFlags) (lower : LowerRoot)
    (s : UpperSuper) : MountEnd × UpperSuper :=
  if lower.typeName = "teadfs" then s.giveUp bdiConfig einval lower
  else
    let s := { s with dentries.inodes.lowerSb := lower.inode.sb }.fill flags lower
    let r := s.dentries.inodes.teadfsGetInode a.get lower.inode
    let s := { s with dentries.inodes := r.2 }
    if r.1 ≠ 0 then s.giveUp bdiConfig r.1 lower
    -- `d_make_root` puts the inode, which nobody else has
    else if a.dMakeRoot = false then
      { s with dentries.inodes := s.dentries.inodes.teadfsEvictInode 0 }.giveUp bdiConfig enomem
        lower
    else
      let s := { s with root := true, dentries := s.dentries.add none }
      if a.rootInfo = false then s.giveUp bdiConfig enomem lower
      else (.mounted, { s with
        dentries.live := [some lower.path]
        flags := { s.flags with active := true } })

/-- `teadfs_mount`, all of it. -/
def UpperSuper.teadfsMount (bdiConfig : Bool) (a : MountAnswer) (flags : SbFlags) :
    MountEnd × UpperSuper :=
  let s := UpperSuper.unmounted
  if a.sbi = false then (.failed enomem, s)
  else
    let s := { s with sbInfos := s.sbInfos + 1 }
    match a.sget with
    -- an error pointer is not NULL either
    | some errno => (.oops errno, s)
    | none =>
        let s := { s with active := true }
        match (if bdiConfig then a.bdi else none) with
        | some errno =>
            let s := s.deactivateLockedSuper bdiConfig
            (.failed errno, { s with sbInfos := s.sbInfos - 1 })
        | none =>
            let s := if bdiConfig then { s with bdis := s.bdis + 1 } else s
            let s := { s with fsInfo := true }
            match a.kernPath with
            | .error errno => (.failed errno, s.deactivateLockedSuper bdiConfig)
            | .ok lower =>
                mountLower bdiConfig a flags lower { s with
                  dentries := (s.dentries.dget lower.path.dentry).mntget lower.path.mnt }

/-! ## Taking down -/

namespace Dentries

variable {d : Dentries} {lost : List LowerPath}

theorem teadfsDRelease_live (d : Dentries) (k : Nat) :
    (d.teadfsDRelease k).live = d.live.eraseIdx k := by
  unfold teadfsDRelease
  cases there : d.live[k]? with
  | none =>
      rw [List.getElem?_eq_none_iff] at there
      exact (List.eraseIdx_of_length_le there).symm
  | some path => cases path <;> rfl

theorem teadfsDRelease_inodes (d : Dentries) (k : Nat) :
    (d.teadfsDRelease k).inodes = d.inodes := by
  unfold teadfsDRelease
  split <;> rfl

/-- All dentries are released, and with them all paths they hold. -/
theorem release_all (holds : d.Holds lost) :
    ((teadfsDRelease 0)^[d.live.length] d).live = [] ∧
      ((teadfsDRelease 0)^[d.live.length] d).inodes = d.inodes ∧
      ((teadfsDRelease 0)^[d.live.length] d).Holds lost := by
  generalize length : d.live.length = n
  induction n generalizing d with
  | zero => exact ⟨List.eq_nil_of_length_eq_zero length, rfl, holds⟩
  | succ n ih =>
      have fewer : (d.teadfsDRelease 0).live.length = n := by
        rw [teadfsDRelease_live, List.length_eraseIdx, length]
        simp
      obtain ⟨live, inodes, kept⟩ := ih (holds.release 0) fewer
      rw [Function.iterate_succ_apply]
      exact ⟨live, inodes.trans (teadfsDRelease_inodes d 0), kept⟩

end Dentries

theorem InodeCache.teadfsEvictInode_inodes (s : InodeCache) (k : Nat) :
    (s.teadfsEvictInode k).inodes = s.inodes.eraseIdx k := by
  unfold teadfsEvictInode
  cases there : s.inodes[k]? with
  | none =>
      rw [List.getElem?_eq_none_iff] at there
      exact (List.eraseIdx_of_length_le there).symm
  | some u => rfl

/-- All inodes are evicted, and with them all references to lower inodes. -/
theorem InodeCache.evict_all {s : InodeCache} (single : s.Single) :
    ((teadfsEvictInode 0)^[s.inodes.length] s).inodes = [] ∧
      ∀ l, ((teadfsEvictInode 0)^[s.inodes.length] s).refs l = 0 := by
  generalize length : s.inodes.length = n
  induction n generalizing s with
  | zero =>
      have none := List.eq_nil_of_length_eq_zero length
      refine ⟨none, fun l => ?_⟩
      rw [Function.iterate_zero_apply, single.refs, none]
      rfl
  | succ n ih =>
      have fewer : (s.teadfsEvictInode 0).inodes.length = n := by
        rw [teadfsEvictInode_inodes, List.length_eraseIdx, length]
        simp
      rw [Function.iterate_succ_apply]
      exact ih (single.evict 0) fewer

/-- Nothing is allocated or referenced for a super block but the lost paths. -/
structure UpperSuper.Returned (lost : List LowerPath) (s : UpperSuper) : Prop where
  active : s.active = false
  sbInfos : s.sbInfos = 0
  bdis : s.bdis = 0
  live : s.dentries.live = []
  inodes : s.dentries.inodes.inodes = []
  inodeRefs : ∀ l, s.dentries.inodes.refs l = 0
  dentryRefs : s.dentries.dentryRefs.Perm (lost.map LowerPath.dentry)
  mntRefs : s.dentries.mntRefs.Perm (lost.map LowerPath.mnt)

/-- What a super block with private data has between two operations. -/
structure UpperSuper.Whole (bdiConfig : Bool) (lost : List LowerPath) (s : UpperSuper) :
    Prop where
  fsInfo : s.fsInfo = true
  sbInfos : s.sbInfos = 1
  bdis : s.bdis = bdiConfig.toNat
  rootless : s.root = false → s.dentries.live = [] ∧ s.dentries.inodes.inodes = []
  holds : s.dentries.Holds lost
  single : s.dentries.inodes.Single

/-- Taking it down gives everything back. -/
theorem UpperSuper.Whole.deactivate {bdiConfig : Bool} {s : UpperSuper} {lost : List LowerPath}
    (whole : s.Whole bdiConfig lost) : (s.deactivateLockedSuper bdiConfig).Returned lost := by
  have bdis : s.bdis - bdiConfig.toNat = 0 := by rw [whole.bdis, Int.sub_self]
  cases rooted : s.root with
  | false =>
      obtain ⟨live, inodes⟩ := whole.rootless rooted
      have paths : s.dentries.paths = [] := by
        rw [Dentries.paths, live]
        rfl
      have dentries := whole.holds.dentries
      have mnts := whole.holds.mnts
      rw [paths, List.append_nil] at dentries mnts
      have same : s.deactivateLockedSuper bdiConfig =
          { s with
            active := false
            bdis := s.bdis - bdiConfig.toNat
            sbInfos := s.sbInfos - 1 } := by
        cases bdiConfig <;>
          simp [deactivateLockedSuper, teadfsKillBlockSuper, killAnonSuper, rooted, whole.fsInfo]
      rw [same]
      refine ⟨rfl, ?_, bdis, live, inodes, fun l => ?_, dentries, mnts⟩
      · simp [whole.sbInfos]
      · simp only [whole.single.refs, inodes]
        rfl
  | true =>
      obtain ⟨live, inodes, holds⟩ := Dentries.release_all whole.holds
      obtain ⟨evicted, refs⟩ := InodeCache.evict_all whole.single
      have paths :
          ((Dentries.teadfsDRelease 0)^[s.dentries.live.length] s.dentries).paths = [] := by
        rw [Dentries.paths, live]
        rfl
      have dentries := holds.dentries
      have mnts := holds.mnts
      rw [paths, List.append_nil] at dentries mnts
      have same : s.deactivateLockedSuper bdiConfig =
          { s with
            active := false
            root := false
            dentries := s.dentries.shutdown
            bdis := s.bdis - bdiConfig.toNat
            sbInfos := s.sbInfos - 1 } := by
        cases bdiConfig <;>
          simp [deactivateLockedSuper, teadfsKillBlockSuper, killAnonSuper, rooted, whole.fsInfo]
      rw [same]
      refine ⟨rfl, ?_, bdis, live, ?_, ?_, dentries, mnts⟩
      · simp [whole.sbInfos]
      · simp only [Dentries.shutdown, inodes, evicted]
      · simp only [Dentries.shutdown, inodes, refs, implies_true]

/-! ## All or nothing -/

/-- A super block as a mount over `lower` leaves it. -/
structure UpperSuper.Mounted (bdiConfig : Bool) (flags : SbFlags) (lower : LowerRoot)
    (s : UpperSuper) : Prop where
  active : s.active = true
  root : s.root = true
  whole : s.Whole bdiConfig []
  live : s.dentries.live = [some lower.path]
  inodes : s.dentries.inodes.inodes = [⟨lower.inode, false⟩]
  lowerSb : s.dentries.inodes.lowerSb = lower.inode.sb
  flags : s.flags =
    ⟨flags.rdonly || lower.flags.rdonly, lower.flags.posixacl, true, flags.rest⟩
  limits : s.limits = lower.limits

/-- The first inode of a super block: it is made, or nothing is changed. -/
theorem teadfsGetInode_fresh (a : GetAnswer) (l : LowerInode) :
    (∃ rc < 0, (InodeCache.fresh l.sb).teadfsGetInode a l = (rc, .fresh l.sb)) ∨
      (InodeCache.fresh l.sb).teadfsGetInode a l =
        (0, ⟨l.sb, [⟨l, false⟩], Function.update (fun _ => 0) l 1⟩) := by
  cases igrab : a.igrab with
  | false =>
      refine .inl ⟨estale, by decide, ?_⟩
      simp [InodeCache.teadfsGetInode, InodeCache.getAndUnlock, InodeCache.teadfsGetInodeLocked,
        InodeCache.fresh, igrab]
  | true =>
      cases iget : a.iget with
      | false =>
          refine .inl ⟨eacces, by decide, ?_⟩
          simp [InodeCache.teadfsGetInode, InodeCache.getAndUnlock,
            InodeCache.teadfsGetInodeLocked, InodeCache.iget5Locked, InodeCache.fresh, igrab, iget]
      | true =>
          refine .inr ?_
          simp [InodeCache.teadfsGetInode, InodeCache.getAndUnlock,
            InodeCache.teadfsGetInodeLocked, InodeCache.iget5Locked, InodeCache.fresh,
            InodeCache.grab, InodeCache.unlockNewInode, igrab, iget]

theorem InodeCache.oneInode_single (l : LowerInode) :
    (⟨l.sb, [⟨l, false⟩], Function.update (fun _ => 0) l 1⟩ : InodeCache).Single where
  nodup := List.nodup_singleton l
  unlocked := by
    intro u member
    rw [List.mem_singleton.mp member]
  refs := by
    intro m
    by_cases this : m = l
    · subst this
      simp
    · simp [Function.update_of_ne this, List.count_cons_of_ne (Ne.symm this)]

/-- The exit with the lower path, where the super block holds no path but that one. -/
theorem UpperSuper.giveUp_returned {bdiConfig : Bool} {s : UpperSuper} {lower : LowerRoot}
    {live : List (Option LowerPath)} {inodes : InodeCache} (rc : Int) (fsInfo : s.fsInfo = true)
    (sbInfos : s.sbInfos = 1) (bdis : s.bdis = bdiConfig.toNat) (single : inodes.Single)
    (rootless : s.root = false → live = [] ∧ inodes.inodes = [])
    (pathless : live.filterMap id = [])
    (dentries : s.dentries = ⟨inodes, live, [lower.path.dentry], [lower.path.mnt]⟩) :
    ∃ s', s.giveUp bdiConfig rc lower = (.failed rc, s') ∧ s'.Returned [] := by
  have put : (s.pathPut lower.path).dentries = ⟨inodes, live, [], []⟩ := by
    rw [pathPut, dentries]
    simp [Dentries.dput, Dentries.mntput]
  have whole : (s.pathPut lower.path).Whole bdiConfig [] := by
    refine ⟨fsInfo, sbInfos, bdis, ?_, ?_, ?_⟩
    · rw [put]
      exact rootless
    · rw [put]
      exact ⟨by rw [Dentries.paths, pathless]; rfl, by rw [Dentries.paths, pathless]; rfl⟩
    · rw [put]
      exact single
  exact ⟨_, rfl, whole.deactivate⟩

/-- The mount from the lower path on fails and gives everything back, or succeeds. -/
theorem mountLower_cases {bdiConfig : Bool} (a : MountAnswer) (flags : SbFlags)
    (lower : LowerRoot) {s : UpperSuper} (active : s.active = true) (fsInfo : s.fsInfo = true)
    (sbInfos : s.sbInfos = 1) (bdis : s.bdis = bdiConfig.toNat)
    (dentries : s.dentries = ⟨.fresh 0, [], [lower.path.dentry], [lower.path.mnt]⟩) :
    (∃ rc < 0, ∃ s', mountLower bdiConfig a flags lower s = (.failed rc, s') ∧
        s'.Returned []) ∨
      ∃ s', mountLower bdiConfig a flags lower s = (.mounted, s') ∧ lower.typeName ≠ "teadfs" ∧
        s'.Mounted bdiConfig flags lower := by
  unfold mountLower
  by_cases twice : lower.typeName = "teadfs"
  · rw [if_pos twice]
    exact .inl ⟨einval, by decide, UpperSuper.giveUp_returned einval fsInfo sbInfos bdis
      (InodeCache.fresh_single 0) (fun _ => ⟨rfl, rfl⟩) rfl dentries⟩
  rw [if_neg twice]
  have cache : ({ s with dentries.inodes.lowerSb := lower.inode.sb } : UpperSuper).dentries =
      ⟨.fresh lower.inode.sb, [], [lower.path.dentry], [lower.path.mnt]⟩ := by
    simp [dentries, InodeCache.fresh]
  simp only [UpperSuper.fill, cache]
  rcases teadfsGetInode_fresh a.get lower.inode with ⟨rc, negative, got⟩ | got
  · simp only [got, negative.ne, ne_eq, not_false_iff, if_true]
    exact .inl ⟨rc, negative, UpperSuper.giveUp_returned rc fsInfo sbInfos bdis
      (InodeCache.fresh_single _) (fun _ => ⟨rfl, rfl⟩) rfl rfl⟩
  simp only [got, ne_eq, not_true, if_false]
  by_cases made : a.dMakeRoot = false
  · rw [if_pos made]
    have evicted := (InodeCache.oneInode_single lower.inode).evict 0
    exact .inl ⟨enomem, by decide, UpperSuper.giveUp_returned enomem fsInfo sbInfos bdis evicted
      (fun _ => ⟨rfl, rfl⟩) rfl rfl⟩
  rw [if_neg made]
  by_cases info : a.rootInfo = false
  · rw [if_pos info]
    exact .inl ⟨enomem, by decide, UpperSuper.giveUp_returned enomem fsInfo sbInfos bdis
      (InodeCache.oneInode_single lower.inode) nofun rfl rfl⟩
  · rw [if_neg info]
    refine .inr ⟨_, rfl, twice, active, rfl, ?_, rfl, rfl, rfl, ?_, rfl⟩
    · exact ⟨fsInfo, sbInfos, bdis, nofun, ⟨.refl _, .refl _⟩,
        InodeCache.oneInode_single lower.inode⟩
    · cases lower.flags.rdonly <;> simp

/-- The super block with its private data and the lower path, and nothing more. -/
def UpperSuper.held (bdiConfig : Bool) (lower : LowerRoot) : UpperSuper :=
  { UpperSuper.unmounted with
    active := true
    fsInfo := true
    sbInfos := 1
    bdis := bdiConfig.toNat
    dentries := ⟨.fresh 0, [], [lower.path.dentry], [lower.path.mnt]⟩ }

theorem teadfsMount_held {bdiConfig : Bool} {a : MountAnswer} {lower : LowerRoot}
    (flags : SbFlags) (sbi : ¬ a.sbi = false) (sget : a.sget = none)
    (bdi : (if bdiConfig then a.bdi else none) = none) (found : a.kernPath = .ok lower) :
    UpperSuper.teadfsMount bdiConfig a flags =
      mountLower bdiConfig a flags lower (.held bdiConfig lower) := by
  simp only [UpperSuper.teadfsMount, sbi, sget, bdi, found]
  cases bdiConfig <;> rfl

/-- A mount fails and gives everything back, succeeds, or takes the error of `sget` for a super
block. -/
theorem teadfsMount_cases (bdiConfig : Bool) (a : MountAnswer) (flags : SbFlags) :
    (∃ rc < 0, ∃ s, UpperSuper.teadfsMount bdiConfig a flags = (.failed rc, s) ∧
        s.Returned []) ∨
      (∃ lower s, UpperSuper.teadfsMount bdiConfig a flags = (.mounted, s) ∧
        a.kernPath = .ok lower ∧ lower.typeName ≠ "teadfs" ∧ s.Mounted bdiConfig flags lower) ∨
      ∃ errno s, UpperSuper.teadfsMount bdiConfig a flags = (.oops errno, s) ∧
        a.sget = some errno := by
  by_cases sbi : a.sbi = false
  · simp only [UpperSuper.teadfsMount, sbi, if_true]
    exact .inl ⟨enomem, by decide, _, rfl, rfl, rfl, rfl, rfl, rfl, fun _ => rfl, .refl _, .refl _⟩
  cases got : a.sget with
  | some errno =>
      simp only [UpperSuper.teadfsMount, sbi, got]
      exact .inr (.inr ⟨errno, _, rfl, rfl⟩)
  | none =>
      cases registered : (if bdiConfig then a.bdi else none) with
      | some errno =>
          simp only [UpperSuper.teadfsMount, sbi, got, registered]
          exact .inl ⟨errno, errno.2, _, rfl, rfl, rfl, rfl, rfl, rfl, fun _ => rfl,
            .refl _, .refl _⟩
      | none =>
          cases found : a.kernPath with
          | error errno =>
              simp only [UpperSuper.teadfsMount, sbi, got, registered, found]
              refine .inl ⟨errno, errno.2, _, rfl, UpperSuper.Whole.deactivate ?_⟩
              cases bdiConfig <;>
                exact ⟨rfl, rfl, rfl, fun _ => ⟨rfl, rfl⟩, ⟨.refl _, .refl _⟩,
                  InodeCache.fresh_single 0⟩
          | ok lower =>
              rw [teadfsMount_held flags sbi got registered found]
              rcases @mountLower_cases bdiConfig a flags lower (.held bdiConfig lower)
                rfl rfl rfl rfl rfl with
                ⟨rc, negative, s, failed, returned⟩ | ⟨s, succeeded, single, mounted⟩
              · exact .inl ⟨rc, negative, s, failed, returned⟩
              · exact .inr (.inl ⟨lower, s, succeeded, rfl, single, mounted⟩)

/-- **A mount takes all or nothing.** Whatever a mount asks for may fail, and the kernel may
have it register a backing device or not. It leaves a mounted super block with one of each
thing and the lower root's path and inode, read-only if its flags or the lower file system say
so and with the lower file system's ACL flag, limit and block size; or it returns an error and
has given everything back; or `sget` has failed, and its error is taken for a super block. -/
theorem mount_all_or_nothing (bdiConfig : Bool) (a : MountAnswer) (flags : SbFlags) :
    match UpperSuper.teadfsMount bdiConfig a flags with
    | (.mounted, s) => ∃ lower, a.kernPath = .ok lower ∧ lower.typeName ≠ "teadfs" ∧
        s.Mounted bdiConfig flags lower
    | (.failed rc, s) => rc < 0 ∧ s.Returned []
    | (.oops errno, _) => a.sget = some errno := by
  rcases teadfsMount_cases bdiConfig a flags with
    ⟨rc, negative, s, failed, returned⟩ | ⟨lower, s, succeeded, mounted⟩ | ⟨errno, s, oops, sget⟩
  · rw [failed]
    exact ⟨negative, returned⟩
  · rw [succeeded]
    exact ⟨lower, mounted⟩
  · rw [oops]
    exact sget

/-! ## From mount to umount -/

/-- What happens on a mounted super block. -/
inductive SuperOp where
  | path (op : PathOp)
  | inode (op : InodeOp)

def UpperSuper.next (s : UpperSuper) : SuperOp → UpperSuper
  | .path op => { s with dentries := (op.run s.dentries).2 }
  | .inode op => { s with dentries.inodes := (op.run s.dentries.inodes).2 }

namespace SuperOp

def Called (s : UpperSuper) : SuperOp → Prop
  | .path op => op.Called s.dentries
  | .inode _ => True

/-- A lookup that finds a name and gets no inode for it. -/
def Unbound (lowerSb : Nat) : SuperOp → Prop
  | .path op => op.Unbound lowerSb
  | .inode _ => False

end SuperOp

/-- A lookup leaves the inodes as they are, or gets one. -/
theorem teadfsLookup_inodes (s : Dentries) (a : LookupAnswer) (parent : LowerPath) :
    (s.teadfsLookup a parent).2.inodes = s.inodes ∨
      ∃ l, (s.teadfsLookup a parent).2.inodes = (s.inodes.getAndUnlock a.get l).2 := by
  unfold Dentries.teadfsLookup
  cases a.found with
  | error errno => exact .inl rfl
  | negative d =>
      unfold Dentries.teadfsLookupInterpose
      split_ifs <;> exact .inl rfl
  | positive d l =>
      dsimp only
      unfold Dentries.teadfsLookupInterpose
      split_ifs
      · exact .inl rfl
      · refine .inr ⟨l, ?_⟩
        dsimp only
        split_ifs <;> rfl

theorem PathOp.run_single {s : Dentries} (single : s.inodes.Single) (op : PathOp) :
    (op.run s).2.inodes.Single := by
  cases op with
  | release k =>
      rw [PathOp.run, Dentries.teadfsDRelease_inodes]
      exact single
  | lookup k a =>
      rw [PathOp.run]
      split
      · rename_i path _
        rcases teadfsLookup_inodes s a path with same | ⟨l, got⟩
        · rw [same]
          exact single
        · rw [got]
          exact single.getAndUnlock
      · exact single

theorem InodeOp.run_lowerSb {s : InodeCache} (single : s.Single) (op : InodeOp) :
    (op.run s).2.lowerSb = s.lowerSb := by
  cases op with
  | lookup l a => exact InodeCache.getAndUnlock_lowerSb
  | create l a =>
      rw [InodeOp.run, InodeCache.createInode_eq single]
      exact InodeCache.getAndUnlock_lowerSb
  | interpose l a => exact InodeCache.getAndUnlock_lowerSb
  | mount l a => exact InodeCache.getAndUnlock_lowerSb
  | evict k =>
      show (s.teadfsEvictInode k).lowerSb = _
      unfold InodeCache.teadfsEvictInode
      split <;> rfl

namespace SuperOp

variable {bdiConfig : Bool} {s : UpperSuper} {lost : List LowerPath}

/-- One operation loses at most one path, and loses one exactly if it is a lookup that gets no
inode. -/
theorem next_whole (whole : s.Whole bdiConfig lost) (root : s.root = true) {op : SuperOp}
    (called : op.Called s) :
    (s.next op).root = true ∧ (s.next op).dentries.inodes.lowerSb = s.dentries.inodes.lowerSb ∧
      ∃ lost', (s.next op).Whole bdiConfig lost' ∧
        (lost' = [] ↔ lost = [] ∧ ¬ op.Unbound s.dentries.inodes.lowerSb) := by
  have rooted : (s.next op).root = true := by
    cases op <;> exact root
  have rootless : ∀ P : Prop, (s.next op).root = false → P := by
    intro P none
    rw [rooted] at none
    cases none
  refine ⟨rooted, ?_⟩
  cases op with
  | path op =>
      obtain ⟨lost', holds, none⟩ := PathOp.run_holds whole.holds called
      exact ⟨PathOp.next_lowerSb, lost', ⟨whole.fsInfo, whole.sbInfos, whole.bdis, rootless _,
        holds, PathOp.run_single whole.single op⟩, none⟩
  | inode op =>
      refine ⟨InodeOp.run_lowerSb whole.single op, lost, ⟨whole.fsInfo, whole.sbInfos, whole.bdis,
        rootless _, ⟨whole.holds.dentries, whole.holds.mnts⟩,
        InodeOp.run_single whole.single op⟩, ?_⟩
      simp [Unbound]

/-- In a run the lost paths are those of the lookups that got no inode. -/
theorem run_whole {ops : List SuperOp} (whole : s.Whole bdiConfig lost) (root : s.root = true)
    (called : Simulation.Allowed (fun s op => Called s op) UpperSuper.next s ops) :
    ∃ lost', (ops.foldl UpperSuper.next s).Whole bdiConfig lost' ∧
      (lost' = [] ↔ lost = [] ∧ ∀ op ∈ ops, ¬ op.Unbound s.dentries.inodes.lowerSb) := by
  induction ops generalizing s lost with
  | nil => exact ⟨lost, whole, by simp⟩
  | cons op ops ih =>
      obtain ⟨first, rest⟩ := called
      obtain ⟨root₁, lowerSb, lost₁, whole₁, none₁⟩ := next_whole whole root first
      obtain ⟨lost₂, whole₂, none₂⟩ := ih whole₁ root₁ rest
      refine ⟨lost₂, whole₂, ?_⟩
      rw [none₂, none₁, lowerSb, List.forall_mem_cons, and_assoc]

end SuperOp

/-- **An umount gives everything back, unless a lookup got no inode.** However a mounted super
block was used, when it is taken down its private data, its backing device, its inodes with
their lower references and its dentries are gone; and no reference to a lower dentry or mount
is left exactly if no lookup found a name and then got no inode for it. -/
theorem umount_returns_all_iff {bdiConfig : Bool} {a : MountAnswer} {flags : SbFlags}
    {s : UpperSuper} (mount : UpperSuper.teadfsMount bdiConfig a flags = (.mounted, s))
    {ops : List SuperOp}
    (called : Simulation.Allowed (fun s op => SuperOp.Called s op) UpperSuper.next s ops) :
    let t := (ops.foldl UpperSuper.next s).deactivateLockedSuper bdiConfig
    (t.active = false ∧ t.sbInfos = 0 ∧ t.bdis = 0 ∧ t.dentries.live = [] ∧
        t.dentries.inodes.inodes = [] ∧ ∀ l, t.dentries.inodes.refs l = 0) ∧
      (t.dentries.dentryRefs = [] ∧ t.dentries.mntRefs = [] ↔
        ∀ op ∈ ops, ¬ op.Unbound s.dentries.inodes.lowerSb) := by
  obtain ⟨lower, mounted⟩ : ∃ lower, s.Mounted bdiConfig flags lower := by
    rcases teadfsMount_cases bdiConfig a flags with
      ⟨rc, -, s', failed, -⟩ | ⟨lower, s', succeeded, -, -, mounted⟩ | ⟨errno, s', oops, -⟩
    · cases mount.symm.trans failed
    · cases mount.symm.trans succeeded
      exact ⟨lower, mounted⟩
    · cases mount.symm.trans oops
  obtain ⟨lost, whole, none⟩ := SuperOp.run_whole mounted.whole mounted.root called
  have returned := whole.deactivate
  refine ⟨⟨returned.active, returned.sbInfos, returned.bdis, returned.live, returned.inodes,
    returned.inodeRefs⟩, ?_⟩
  rw [← (none.trans (and_iff_right rfl))]
  constructor
  · rintro ⟨dentries, -⟩
    have length := returned.dentryRefs.length_eq
    rw [dentries, List.length_map, List.length_nil] at length
    exact List.eq_nil_of_length_eq_zero length.symm
  · rintro rfl
    exact ⟨returned.dentryRefs.eq_nil, returned.mntRefs.eq_nil⟩

/-- A lower directory of super block 1, and a mount over it that gets everything. -/
def exampleLower : LowerRoot := ⟨⟨10, 20⟩, ⟨5, 1⟩, "ext4", ⟨true, false, true, 0⟩, ⟨4096, 512⟩⟩

def fullMount : MountAnswer := ⟨true, none, none, .ok exampleLower, ⟨true, true⟩, true, true⟩

/-- The super block of that mount. -/
def fullyMounted : UpperSuper :=
  (UpperSuper.teadfsMount true fullMount ⟨false, true, false, 0⟩).2

theorem umount_returns_all_after_lookup :
    ((fullyMounted.next (.path (lookupOf ⟨true, true⟩))).deactivateLockedSuper
      true).dentries.dentryRefs = [] := by
  have called : Simulation.Allowed (fun s op => SuperOp.Called s op) UpperSuper.next fullyMounted
      [.path (lookupOf ⟨true, true⟩)] := ⟨⟨_, rfl⟩, trivial⟩
  have mount : UpperSuper.teadfsMount true fullMount ⟨false, true, false, 0⟩ =
      (.mounted, fullyMounted) := rfl
  refine ((umount_returns_all_iff mount called).2.mpr ?_).1
  intro op member
  cases List.mem_singleton.mp member
  rintro ⟨d, l, found, -, fails⟩
  cases found
  revert fails
  decide

end Teadfs
