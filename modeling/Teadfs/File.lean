/-
# Teadfs.File — handles, reads and attribute changes

`teadfs_open`, `teadfs_release`, the read and write entry points of `file.c`, and
`teadfs_setattr` of `inode.c`. The kernel's `generic_file_aio_read` is the loop
over pages that `genericFileAioRead` states: fill a page that is not Uptodate, copy
from it, stop at the upper `i_size`.
-/
import Teadfs.Mmap

namespace Teadfs

set_option autoImplicit false

open Protocol Frame

/-! ## Handles -/

/-- The mode the lower file is opened with: a page of a write-only handle is read too. -/
def lowerMode : AccMode → AccMode
  | .wronly => .rdwr
  | mode => mode

/-- `teadfs_open` of the `struct file` named `fileId`. The inode's `file_decrypt` is
set from the access before the verdict is asked for. The lower file gets the flags of the
handle, but for the mode. -/
def teadfsOpen (env : Env) (proc : Nat) (dentry : Dentry) (flags : OpenFlags) (fileId : Nat)
    (w : World) : Except Int FileInfo × World :=
  let a := zalloc env w
  if a.1 = false then (.error enomem, a.2)
  else
    let access : OpenFileResult := .init
    let w := { a.2 with inode.fileDecrypt := decide (access = .encrypt ∨ access = .decrypt) }
    let verdict : OpenFileResult × World :=
      if w.inode.isReg then teadfsRequestOpenFile env proc dentry fileId w
      else (access, w)
    if verdict.1 = .prohibit then (.error eacces, verdict.2)
    else
      match teadfsGetLowerFile env proc true (lowerMode flags.mode) verdict.2 with
      | (.error errno, w) => (.error errno, w)
      | (.ok ref, w) => (.ok ⟨some ref, verdict.1, dentry.path, flags.append⟩, w)

/-- `teadfs_release`. -/
def teadfsRelease (env : Env) (proc : Nat) (dentry : Dentry) (file : FileInfo) (fileId : Nat)
    (w : World) : World :=
  teadfsPutLowerFile env proc true dentry file fileId w

/-! ## Reads and writes of a handle -/

/-- The pages of a read, from `pos` on: the result so far, or the error if there
is none, and the bytes copied out. The fuel bounds the pages. -/
def genericReadLoop (env : Env) (proc : Nat) (file : FileInfo) :
    Nat → Nat → Nat → World → Int × List UInt8 × World
  | 0, _, _, w => (0, [], w)
  | fuel + 1, pos, count, w =>
      if count = 0 ∨ w.inode.iSize ≤ pos then (0, [], w)
      else
        let index := pos / pageCacheSize
        let filled :=
          if (w.page file.view index).uptodate then (0, w)
          else teadfsReadpage env proc file index w
        if filled.1 ≠ 0 then (filled.1, [], filled.2)
        else
          let n := min (min (pageCacheSize - pos % pageCacheSize) count) (w.inode.iSize - pos)
          let bytes := window (filled.2.page file.view index).data (pos % pageCacheSize) n
          let rest := genericReadLoop env proc file fuel (pos + n) (count - n) filled.2
          (if rest.1 < 0 then bytes.length else bytes.length + rest.1, bytes ++ rest.2.1, rest.2.2)

/-- `generic_file_aio_read`. A page takes at least one byte of the count. -/
def genericFileAioRead (env : Env) (proc : Nat) (file : FileInfo) (pos count : Nat) (w : World) :
    Int × List UInt8 × World :=
  genericReadLoop env proc file count pos count w

/-- `teadfs_aio_read_update_atime`: the label is taken off the result of every call. -/
def teadfsAioReadUpdateAtime (env : Env) (proc : Nat) (file : FileInfo) (pos count : Nat)
    (w : World) : Int × List UInt8 × World :=
  let r := genericFileAioRead env proc file pos count w
  (if file.access = .decrypt then r.1 - encryptFileHeaderSize else r.1, r.2)

/-- `invalidate_remote_inode`: every page of the inode's own mapping is dropped. -/
def invalidateRemoteInode (env : Env) (w : World) : World :=
  { w.tick with
    inode.mapping := Function.update w.inode.mapping .raw fun index =>
      ⟨false, env.frame w.chan.clock index⟩ }

/-- Where a write of a handle starts: `generic_write_checks` moves it to the upper `i_size` if
the handle was opened with `O_APPEND`. -/
def writePos (file : FileInfo) (pos : Nat) (w : World) : Nat :=
  if file.append then w.inode.iSize else pos

/-- `teadfs_aio_write`. -/
def teadfsAioWrite (env : Env) (proc : Nat) (dentry : Dentry) (file : FileInfo) (pos : Nat)
    (data : List UInt8) (w : World) : Int × World :=
  let pos := writePos file pos w
  let r := genericPerformWrite env proc dentry file data.length pos data w
  (r.1, if file.access = .decrypt then invalidateRemoteInode env r.2 else r.2)

/-! ## Attributes -/

/-- `teadfs_setattr`. Copying the lower attributes back does not copy the size. -/
def teadfsSetattr (env : Env) (proc : Nat) (dentry : Dentry) (ia : Iattr) (w : World) :
    Int × World :=
  match env.inodeChangeOk w.chan.clock with
  | some errno => (errno, w.tick)
  | none =>
      let t := if ia.attrSize then truncateUpper env proc dentry ia ia w.tick else (0, ia, w.tick)
      if t.1 < 0 then (t.1, t.2.2)
      else
        let lowerIa :=
          if t.2.1.attrKillSuid ∨ t.2.1.attrKillSgid then { t.2.1 with attrMode := false }
          else t.2.1
        notifyChange env lowerIa t.2.2

/-- The attributes of a size change, as `do_truncate` issues it. -/
def sizeChange (n : Nat) (byHandle : Bool) : Iattr := ⟨true, n, byHandle, false, false, false⟩

end Teadfs
