/-
# Teadfs.DirOps — names and links

The directory operations of `inode.c` and the lookup of `lookup.c`, over a lower tree whose
`vfs_*` calls count links as POSIX has it. Above it are the caches of the mount: the upper
inodes, each with the link count it copied, and the dentries. A lower call may refuse, or
succeed and leave its dentry without an inode; `__teadfs_get_inode` may fail. What an
operation does then is in its definition: `teadfs_create` follows the null pointer and does not
return, which is `none`.
-/
import Mathlib.Data.List.Basic
import Mathlib.Logic.Function.Basic
import Teadfs.Kernel

namespace Teadfs

set_option autoImplicit false

/-- A name in a directory, which is given by its inode. -/
structure Place where
  dir : Nat
  name : List UInt8
  deriving DecidableEq, Repr

/-! ## The lower tree -/

/-- The lower file system, as far as names and links go. -/
structure LowerTree where
  isDir : Nat → Bool
  nlink : Nat → Nat
  entry : Place → Option Nat
  /-- The inodes from here on were never used. -/
  next : Nat

namespace LowerTree

def enoent : Errno := ⟨-2, by decide⟩
def eexist : Errno := ⟨-17, by decide⟩
def enotdir : Errno := ⟨-20, by decide⟩
def eperm : Errno := ⟨-1, by decide⟩

/-- A new inode with `count` links, named `p`. -/
def make (p : Place) (dir : Bool) (count : Nat) (l : LowerTree) : LowerTree where
  isDir := Function.update l.isDir l.next dir
  nlink := Function.update l.nlink l.next count
  entry := Function.update l.entry p (some l.next)
  next := l.next + 1

/-- One link more, or one less, or none. -/
def count (i : Nat) (f : Nat → Nat) (l : LowerTree) : LowerTree :=
  { l with nlink := Function.update l.nlink i (f (l.nlink i)) }

def name (p : Place) (i : Option Nat) (l : LowerTree) : LowerTree :=
  { l with entry := Function.update l.entry p i }

@[simp] theorem entry_make (p : Place) (dir : Bool) (count : Nat) (l : LowerTree) :
    (l.make p dir count).entry p = some l.next :=
  Function.update_self ..

@[simp] theorem entry_name (p : Place) (i : Option Nat) (l : LowerTree) :
    (l.name p i).entry p = i :=
  Function.update_self ..

/-- `vfs_create`, `vfs_symlink` and `vfs_mknod`. In this and the calls below `refused` is
every reason to refuse but the ones that are stated. -/
def vfsCreate (refused : Option Errno) (p : Place) (l : LowerTree) : Int × LowerTree :=
  match refused, l.entry p with
  | some errno, _ => (errno, l)
  | none, some _ => (eexist, l)
  | none, none => (0, l.make p false 1)

/-- `vfs_mkdir`: the new directory counts its name and its `.`, its parent counts its `..`. -/
def vfsMkdir (refused : Option Errno) (p : Place) (l : LowerTree) : Int × LowerTree :=
  match refused, l.entry p with
  | some errno, _ => (errno, l)
  | none, some _ => (eexist, l)
  | none, none => (0, (l.make p true 2).count p.dir (· + 1))

/-- `vfs_link` of what is at `p` to the name `q`. -/
def vfsLink (refused : Option Errno) (p q : Place) (l : LowerTree) : Int × LowerTree :=
  match refused, l.entry p, l.entry q with
  | some errno, _, _ => (errno, l)
  | none, none, _ => (enoent, l)
  | none, some _, some _ => (eexist, l)
  | none, some i, none =>
      if l.isDir i then (eperm, l) else (0, (l.count i (· + 1)).name q (some i))

/-- `vfs_unlink`. -/
def vfsUnlink (refused : Option Errno) (p : Place) (l : LowerTree) : Int × LowerTree :=
  match refused, l.entry p with
  | some errno, _ => (errno, l)
  | none, none => (enoent, l)
  | none, some i => if l.isDir i then (eperm, l) else (0, (l.count i (· - 1)).name p none)

/-- What takes the name of an empty directory away. -/
def dropDir (p : Place) (i : Nat) (l : LowerTree) : LowerTree :=
  ((l.count p.dir (· - 1)).count i fun _ => 0).name p none

/-- `vfs_rmdir`. -/
def vfsRmdir (refused : Option Errno) (p : Place) (l : LowerTree) : Int × LowerTree :=
  match refused, l.entry p with
  | some errno, _ => (errno, l)
  | none, none => (enoent, l)
  | none, some i => if l.isDir i then (0, l.dropDir p i) else (enotdir, l)

/-- The target of a rename loses its name. -/
def replace (q : Place) (l : LowerTree) : LowerTree :=
  match l.entry q with
  | none => l
  | some i => if l.isDir i then l.dropDir q i else (l.count i (· - 1)).name q none

/-- `i` goes from `p` to `q`. A directory takes its `..` along. -/
def move (p q : Place) (i : Nat) (l : LowerTree) : LowerTree :=
  let l := l.replace q
  let l := if l.isDir i then (l.count p.dir (· - 1)).count q.dir (· + 1) else l
  (l.name p none).name q (some i)

/-- `vfs_rename`. Two names of one file stay as they are. -/
def vfsRename (refused : Option Errno) (p q : Place) (l : LowerTree) : Int × LowerTree :=
  match refused, l.entry p with
  | some errno, _ => (errno, l)
  | none, none => (enoent, l)
  | none, some i => if l.entry q = some i then (0, l) else (0, l.move p q i)

end LowerTree

/-! ## The upper inodes and dentries -/

/-- A mounted tree: the lower one, and what is cached above it. An upper inode is known by
its lower inode, as `iget5_locked` finds it. -/
structure MountTree where
  lower : LowerTree
  /-- `i_nlink` of the cached inodes. -/
  nlink : Nat → Option Nat
  /-- The dentries, by place: not cached, negative, or of an inode. -/
  dentry : Place → Option (Option Nat)

/-- What answers an operation: the `vfs_*` call or `lookup_one_len`, whether the lower
dentry has its inode after a call that succeeded, `__teadfs_get_inode`, and the `vfs_unlink`
that undoes a `create`. -/
structure DirAnswer where
  vfs : Option Errno
  instantiated : Bool
  getInode : Option Errno
  undo : Option Errno

namespace MountTree

def setLower (l : LowerTree) (t : MountTree) : MountTree := { t with lower := l }

def setDentry (p : Place) (d : Option (Option Nat)) (t : MountTree) : MountTree :=
  { t with dentry := Function.update t.dentry p d }

/-- `set_nlink` of an inode to the count of its lower inode; so does `fsstack_copy_attr_all`. -/
def setNlink (i : Nat) (t : MountTree) : MountTree :=
  { t with nlink := Function.update t.nlink i ((t.nlink i).map fun _ => t.lower.nlink i) }

/-- `set_nlink` of an inode that may not be there. -/
def setNlinkOf (i : Option Nat) (t : MountTree) : MountTree :=
  match i with
  | none => t
  | some i => t.setNlink i

def clearNlink (i : Nat) (t : MountTree) : MountTree :=
  { t with nlink := Function.update t.nlink i ((t.nlink i).map fun _ => 0) }

/-- `iget5_locked`: the inode that is cached, or a new one, set by `teadfs_inode_set`. -/
def iget (i : Nat) (t : MountTree) : MountTree :=
  { t with nlink := Function.update t.nlink i (some ((t.nlink i).getD (t.lower.nlink i))) }

/-- The inode cache gives an inode up. -/
def evict (i : Nat) (t : MountTree) : MountTree :=
  { t with nlink := Function.update t.nlink i none }

/-- `d_inode` of the dentry at a place. -/
def inodeAt (p : Place) (t : MountTree) : Option Nat := (t.dentry p).join

/-- `if (!dentry->d_inode) d_drop(dentry)`. -/
def dropNegative (p : Place) (t : MountTree) : MountTree :=
  if t.inodeAt p = none then t.setDentry p none else t

end MountTree

/-- `teadfs_interpose`, also the end of `teadfs_lookup_interpose`: the dentry gets the inode
of the lower inode `i`. -/
def teadfsInterpose (a : DirAnswer) (p : Place) (i : Nat) (t : MountTree) : Int × MountTree :=
  match a.getInode with
  | some errno => (errno, t)
  | none => (0, (t.iget i).setDentry p (some (some i)))

/-- `teadfs_lookup`. -/
def teadfsLookup (a : DirAnswer) (p : Place) (t : MountTree) : Int × MountTree :=
  match a.vfs, t.lower.entry p with
  | some errno, _ => (errno, t)
  | none, none => (0, t.setDentry p (some none))
  | none, some i => teadfsInterpose a p i t

/-- `teadfs_create`. A lower dentry without an inode is passed to `__teadfs_get_inode` as it
is, which does not come back from its first line. If there is no inode to be had, the lower
file is unlinked again, with whatever success, and the call returns the zero of `vfs_create`. -/
def teadfsCreate (a : DirAnswer) (p : Place) (t : MountTree) : Option (Int × MountTree) :=
  let r := t.lower.vfsCreate a.vfs p
  if r.1 ≠ 0 then some (r.1, t)
  else
    -- `lower_dentry->d_inode`
    match if a.instantiated then r.2.entry p else none with
    | none => none
    | some i =>
        match a.getInode with
        | some _ => some (0, t.setLower (r.2.vfsUnlink a.undo p).2)
        | none => some (0, ((t.setLower r.2).iget i).setDentry p (some (some i)))

/-- `teadfs_link` of what is at `p` to the name `q`. -/
def teadfsLink (a : DirAnswer) (p q : Place) (t : MountTree) : Int × MountTree :=
  let r := t.lower.vfsLink a.vfs p q
  if r.1 ≠ 0 then (r.1, t)
  else
    -- `lower_new_dentry->d_inode`
    match if a.instantiated then r.2.entry q else none with
    | none => (0, t.setLower r.2)
    | some i =>
        let s := teadfsInterpose a q i (t.setLower r.2)
        if s.1 ≠ 0 then s else (0, s.2.setNlinkOf (t.inodeAt p))

/-- `teadfs_unlink`. -/
def teadfsUnlink (a : DirAnswer) (p : Place) (t : MountTree) : Int × MountTree :=
  let r := t.lower.vfsUnlink a.vfs p
  if r.1 ≠ 0 then (r.1, t)
  else (0, ((t.setLower r.2).setNlinkOf (t.inodeAt p)).setDentry p none)

/-- The course of `teadfs_symlink`, `teadfs_mkdir` and `teadfs_mknod`, from what the lower
call came back with: `done` is what they do once the dentry has its inode. -/
def makeNode (a : DirAnswer) (p : Place) (r : Int × LowerTree) (done : MountTree → MountTree)
    (t : MountTree) : Int × MountTree :=
  if r.1 ≠ 0 then (r.1, t.dropNegative p)
  else
    -- `lower_dentry->d_inode`
    match if a.instantiated then r.2.entry p else none with
    | none => (0, (t.setLower r.2).dropNegative p)
    | some i =>
        let s := teadfsInterpose a p i (t.setLower r.2)
        if s.1 ≠ 0 then (s.1, s.2.dropNegative p) else (0, (done s.2).dropNegative p)

/-- `teadfs_symlink`. -/
def teadfsSymlink (a : DirAnswer) (p : Place) (t : MountTree) : Int × MountTree :=
  makeNode a p (t.lower.vfsCreate a.vfs p) id t

/-- `teadfs_mkdir`. -/
def teadfsMkdir (a : DirAnswer) (p : Place) (t : MountTree) : Int × MountTree :=
  makeNode a p (t.lower.vfsMkdir a.vfs p) (MountTree.setNlink p.dir) t

/-- `teadfs_mknod`. -/
def teadfsMknod (a : DirAnswer) (p : Place) (t : MountTree) : Int × MountTree :=
  makeNode a p (t.lower.vfsCreate a.vfs p) id t

/-- `teadfs_rmdir`. The parent's count is set also if the lower call failed. -/
def teadfsRmdir (a : DirAnswer) (p : Place) (t : MountTree) : Int × MountTree :=
  let r := t.lower.vfsRmdir a.vfs p
  if r.1 ≠ 0 then (r.1, (t.setLower r.2).setNlink p.dir)
  else
    (0, ((match t.inodeAt p with
      | none => t.setLower r.2
      | some i => (t.setLower r.2).clearNlink i).setNlink p.dir).setDentry p none)

/-- `teadfs_rename`. That neither name is above the other is left to the lower file system,
which refuses it too. -/
def teadfsRename (a : DirAnswer) (p q : Place) (t : MountTree) : Int × MountTree :=
  let r := t.lower.vfsRename a.vfs p q
  if r.1 ≠ 0 then (r.1, t)
  else
    let t' := (t.setLower r.2).setNlinkOf (t.inodeAt q)
    let t' := t'.setNlink q.dir
    (0, if q.dir ≠ p.dir then t'.setNlink p.dir else t')

/-! ## Operations on a mounted tree -/

/-- What happens to a mounted tree: a lookup, the eight operations, and the caches giving
up a dentry or an inode. -/
inductive DirOp where
  | lookup (p : Place)
  | create (p : Place)
  | link (p q : Place)
  | unlink (p : Place)
  | symlink (p : Place)
  | mkdir (p : Place)
  | rmdir (p : Place)
  | mknod (p : Place)
  | rename (p q : Place)
  | prune (p : Place)
  | evict (i : Nat)

namespace DirOp

/-- What the VFS sees to before it calls: dentries are looked up, names to be made have
negative ones, a rename has two inodes. An inode is given up when no dentry has it. -/
def Called (t : MountTree) : DirOp → Prop
  | .lookup p => t.dentry p = none
  | .create p | .symlink p | .mkdir p | .mknod p => t.dentry p = some none
  | .unlink p | .rmdir p => (t.inodeAt p).isSome
  | .link p q => (t.inodeAt p).isSome ∧ t.dentry q = some none
  | .rename p q => (t.inodeAt p).isSome ∧ t.dentry q ≠ none ∧ t.inodeAt q ≠ t.inodeAt p
  | .prune _ => True
  | .evict i => ∀ p, t.dentry p ≠ some (some i)

/-- The operation, if it returns; the VFS moves the dentry when a rename has succeeded. -/
def run (a : DirAnswer) (t : MountTree) : DirOp → Option (Int × MountTree)
  | .lookup p => some (teadfsLookup a p t)
  | .create p => teadfsCreate a p t
  | .link p q => some (teadfsLink a p q t)
  | .unlink p => some (teadfsUnlink a p t)
  | .symlink p => some (teadfsSymlink a p t)
  | .mkdir p => some (teadfsMkdir a p t)
  | .rmdir p => some (teadfsRmdir a p t)
  | .mknod p => some (teadfsMknod a p t)
  | .rename p q =>
      let r := teadfsRename a p q t
      some (if r.1 ≠ 0 then r else (0, (r.2.setDentry p none).setDentry q (t.dentry p)))
  | .prune p => some (0, t.setDentry p none)
  | .evict i => some (0, t.evict i)

/-- The operation returns zero. -/
def Succeeds (a : DirAnswer) (t : MountTree) (op : DirOp) : Prop :=
  (op.run a t).map Prod.fst = some 0

end DirOp

end Teadfs
