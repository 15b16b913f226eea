/-
# Teadfs.Mmap — reading, writing and resizing a file through its pages

`mmap.c`, with the two functions of `file.c` that open and put the lower file.
Offsets and sizes are natural numbers; a handle whose access is `OFR_DECRYPT` sees
the lower file behind its 256-byte label, and every path below adds that label to
its offsets by itself, where the code does.

The kernel's own parts of a write are here too: the copy into the page between the
two callbacks (`copyToPage`), one pass of `generic_perform_write` (`writeChunk`),
and its loop over the pages of a write (`genericPerformWrite`).
-/
import Teadfs.UserCom

namespace Teadfs

set_option autoImplicit false

open Protocol FileContent Frame

/-! ## The lower file of a handle -/

/-- The caller as the lower-file functions see it: the client counts as none. -/
def kpid (proc : Nat) (w : World) : Nat := if proc = w.chan.glob.pid then 0 else proc

/-- `teadfs_get_lower_file`; `counted` says that it was given an inode. A failed
open resets the count of open handles. -/
def teadfsGetLowerFile (env : Env) (proc : Nat) (counted : Bool) (mode : AccMode) (w : World) :
    Except Errno Nat × World :=
  if kpid proc w ≠ 0 ∧ counted = true then
    let w := { w with inode.lowerFileCount := w.inode.lowerFileCount + 1 }
    if w.inode.lowerFileCount < 1 then (.error ⟨einval, by decide⟩, w)
    else
      match dentryOpen env mode w with
      | (.error errno, w) => (.error errno, { w with inode.lowerFileCount := 0 })
      | (.ok ref, w) => (.ok ref, w)
  else dentryOpen env mode w

/-- `fput(teadfs_file_to_lower(file))`. -/
def fputLower (file : FileInfo) (w : World) : World :=
  match file.lowerFile with
  | none => w
  | some ref => fput ref w

/-- `teadfs_put_lower_file`: the last counted handle tells the client; its lower
file is put only if the lower path is gone. -/
def teadfsPutLowerFile (env : Env) (proc : Nat) (counted : Bool) (dentry : Dentry)
    (file : FileInfo) (fileId : Nat) (w : World) : World :=
  if kpid proc w ≠ 0 ∧ counted = true then
    let w := { w with inode.lowerFileCount := w.inode.lowerFileCount - 1 }
    if w.inode.lowerFileCount = 0 then
      let w := if dentry.lowerPathSet then w else fputLower file w
      if w.inode.isReg then (teadfsRequestRelease env proc file.filePath fileId w).2 else w
    else w
  else fputLower file w

/-! ## Blocks -/

/-- `teadfs_read_lower` into a buffer of `size` bytes. When the upcall returns
nothing positive the raw bytes and their count stand. -/
def teadfsReadLower (env : Env) (proc : Nat) (file : FileInfo) {size : Nat}
    (data : Fin size → UInt8) (offset : Nat) (w : World) : Int × (Fin size → UInt8) × World :=
  match file.lowerFile with
  | none => (eio, data, w)
  | some _ =>
      let offset := if file.access = .decrypt then offset + encryptFileHeaderSize else offset
      match kernelRead env offset size w with
      | (.error errno, w) => (errno, data, w)
      | (.ok bytes, w) =>
          if file.access = .decrypt then
            let r := teadfsRequestRead env proc offset bytes size w
            if r.1 ≤ 0 then (bytes.length, overlay data 0 bytes, r.2.2)
            else (r.1, overlay (overlay data 0 bytes) 0 r.2.1, r.2.2)
          else (bytes.length, overlay data 0 bytes, w)

/-- `teadfs_write_lower`. The upcall is made before the label is added. -/
def teadfsWriteLower (env : Env) (proc : Nat) (file : FileInfo) (data : List UInt8)
    (offset : Nat) (w : World) : Int × World :=
  match file.lowerFile with
  | none => (eio, w)
  | some _ =>
      let a := zalloc env w
      if a.1 = false then (eio, a.2)
      else if file.access = .encrypt then (eio, a.2)
      else if file.access = .decrypt then
        let r := teadfsRequestWrite env proc offset data data.length a.2
        if r.1 < 0 then (eio, r.2.2)
        else kernelWrite env file.append r.2.1 (offset + encryptFileHeaderSize) r.2.2
      else kernelWrite env file.append data offset a.2

/-- Fill the page at `index` of the handle's mapping, as `teadfs_readpage` and
`treadfs_write_begin` do: any count of bytes is success. -/
def fillPage (env : Env) (proc : Nat) (file : FileInfo) (index : Nat) (w : World) : Int × World :=
  let r := teadfsReadLower env proc file (w.page file.view index).data (index * pageCacheSize) w
  let rc := if 0 < r.1 then 0 else r.1
  (rc, r.2.2.setPage file.view index ⟨decide (rc = 0), r.2.1⟩)

/-- `teadfs_readpage`. -/
def teadfsReadpage (env : Env) (proc : Nat) (file : FileInfo) (index : Nat) (w : World) :
    Int × World :=
  fillPage env proc file index w

/-! ## Sizes -/

/-- `struct iattr`, as far as the module looks at it. -/
structure Iattr where
  attrSize : Bool
  iaSize : Nat
  attrFile : Bool
  attrMode : Bool
  attrKillSuid : Bool
  attrKillSgid : Bool
  deriving DecidableEq, Repr

/-- `notify_change` on the lower file. -/
def notifyChange (env : Env) (ia : Iattr) (w : World) : Int × World :=
  match env.notifyChange w.chan.clock with
  | some errno => (errno, w.tick)
  | none =>
      (0, if ia.attrSize then w.tick.setLower (resize 0 ia.iaSize w.inode.lower) else w.tick)

/-- A page of the inode's own mapping after `truncate_setsize` to `size`: gone
beyond it, zeroed from it on. -/
def truncatePage (env : Env) (clock size index : Nat) (page : Page) : Page :=
  if size ≤ index * pageCacheSize then ⟨false, env.frame clock index⟩
  else ⟨page.uptodate, fun i => if size ≤ index * pageCacheSize + i then 0 else page.data i⟩

/-- `truncate_setsize`: the inode's own mapping is cut, `i_decrypt` is not. -/
def truncateSetsize (env : Env) (size : Nat) (w : World) : World :=
  { (w.tick.setSize size) with
    inode.mapping := Function.update w.inode.mapping .raw fun index =>
      truncatePage env w.chan.clock size index (w.inode.mapping .raw index) }

/-- `teadfs_write`: store `data` at `offset`, or at the end of the file if that is
before it, under a verdict asked for afresh. -/
def teadfsWrite (env : Env) (proc : Nat) (dentry : Dentry) (data : List UInt8) (offset : Nat)
    (w : World) : Int × World :=
  let fileSize := w.inode.iSize
  let pos := if fileSize < offset then fileSize else offset
  let verdict := teadfsRequestOpenPath env proc dentry w
  match teadfsGetLowerFile env proc false .rdwr verdict.2 with
  | (.error errno, w) => (errno, w)
  | (.ok ref, w) =>
      let file : FileInfo := ⟨some ref, .ofCode verdict.1, [], false⟩
      let r := teadfsWriteLower env proc file data pos w
      if r.1 < 0 then r
      else
        let w := teadfsPutLowerFile env proc false dentry file 0 r.2
        (0, if fileSize < pos + data.length then w.setSize (pos + data.length) else w)

/-- The loop of `truncate_upper`: pages of zeros, handed over at `iaSize` and on.
The fuel bounds the number of pages. -/
def truncateLoop (env : Env) (proc : Nat) (dentry : Dentry) (iaSize total : Nat) :
    Nat → Nat → World → Int × World
  | 0, _, w => (0, w)
  | fuel + 1, truncatePos, w =>
      if truncatePos < total then
        let len := min (total - truncatePos) pageCacheSize
        let r := teadfsWrite env proc dentry (List.replicate len 0) (iaSize + truncatePos) w
        if r.1 < 0 then r
        else truncateLoop env proc dentry iaSize total fuel (truncatePos + pageCacheSize) r.2
      else (0, w)

/-- `truncate_upper`: grow by writing zeros, or cut the upper inode and ask the
caller to cut the lower one. -/
def truncateUpper (env : Env) (proc : Nat) (dentry : Dentry) (ia lowerIa : Iattr) (w : World) :
    Int × Iattr × World :=
  let iSize := w.inode.iSize
  if ia.iaSize = iSize then (0, { lowerIa with attrSize := false }, w)
  else if iSize < ia.iaSize then
    let lowerIa := { lowerIa with attrSize := false }
    let total := ia.iaSize - iSize
    let a := zalloc env w
    if a.1 = false then (enomem, lowerIa, a.2)
    else
      let r := truncateLoop env proc dentry ia.iaSize total total 0 a.2
      (r.1, lowerIa, r.2)
  else (0, { lowerIa with attrSize := true, iaSize := ia.iaSize }, truncateSetsize env ia.iaSize w)

/-- `teadfs_truncate`. -/
def teadfsTruncate (env : Env) (proc : Nat) (dentry : Dentry) (newLength : Nat) (w : World) :
    Int × World :=
  let ia : Iattr := ⟨true, newLength, false, false, false, false⟩
  let lowerIa : Iattr := ⟨false, 0, false, false, false, false⟩
  let r := truncateUpper env proc dentry ia lowerIa w
  if r.1 = 0 ∧ r.2.1.attrSize = true then notifyChange env r.2.1 r.2.2 else (r.1, r.2.2)

/-! ## Writes -/

/-- `treadfs_write_begin`. -/
def treadfsWriteBegin (env : Env) (proc : Nat) (dentry : Dentry) (file : FileInfo) (pos : Nat)
    (w : World) : Int × World :=
  let index := pos / pageCacheSize
  let prevPageEndSize := index * pageCacheSize
  if env.grabPage w.chan.clock = false then (enomem, w.tick)
  else
    let filled :=
      if (w.page file.view index).uptodate then (0, w.tick)
      else fillPage env proc file index w.tick
    if filled.1 ≠ 0 then filled
    else
      -- a page or more of hole is zeroed by a truncate, which raises `i_size`
      let grown :=
        if index ≠ 0 ∧ filled.2.inode.iSize < prevPageEndSize then
          teadfsTruncate env proc dentry prevPageEndSize filled.2
        else (0, filled.2)
      if grown.1 ≠ 0 then grown
      else if grown.2.inode.iSize = prevPageEndSize ∧ pos ≠ 0 then
        (0, grown.2.setPage file.view index
          ⟨(grown.2.page file.view index).uptodate, fun _ => 0⟩)
      else (0, grown.2)

/-- The caller's copy of `data` into the page at `pos`. -/
def copyToPage (file : FileInfo) (pos : Nat) (data : List UInt8) (w : World) : World :=
  let page := w.page file.view (pos / pageCacheSize)
  w.setPage file.view (pos / pageCacheSize)
    ⟨page.uptodate, overlay page.data (pos % pageCacheSize) data⟩

/-- `teadfs_write_end`: any count that is not negative becomes `copied`. -/
def teadfsWriteEnd (env : Env) (proc : Nat) (file : FileInfo) (pos len copied : Nat) (w : World) :
    Int × World :=
  let page := w.page file.view (pos / pageCacheSize)
  let copied := if copied < len ∧ page.uptodate = false then 0 else copied
  let block := window page.data (pos % pageCacheSize) copied
  let r := teadfsWriteLower env proc file block pos w
  if r.1 < 0 then r else (copied, r.2.setSize r.2.inode.lower.length)

/-- One pass of `generic_perform_write` over `data`, of which the caller's copy
moved `copied` bytes. -/
def writeChunk (env : Env) (proc : Nat) (dentry : Dentry) (file : FileInfo) (pos : Nat)
    (data : List UInt8) (copied : Nat) (w : World) : Int × World :=
  let b := treadfsWriteBegin env proc dentry file pos w
  if b.1 ≠ 0 then b
  else
    teadfsWriteEnd env proc file pos data.length copied
      (copyToPage file pos (data.take copied) b.2)

/-- The bytes of a write that go into its first page. -/
def chunkLen (pos : Nat) (data : List UInt8) : Nat :=
  min (pageCacheSize - pos % pageCacheSize) data.length

/-- `generic_perform_write`: page by page, up to the first error. It returns the
bytes written, or the error if there are none. The fuel bounds the passes. -/
def genericPerformWrite (env : Env) (proc : Nat) (dentry : Dentry) (file : FileInfo) :
    Nat → Nat → List UInt8 → World → Int × World
  | 0, _, _, w => (0, w)
  | fuel + 1, pos, data, w =>
      if data.isEmpty then (0, w)
      else
        let len := chunkLen pos data
        let r := writeChunk env proc dentry file pos (data.take len) len w
        if r.1 < 0 then r
        else
          let rest := genericPerformWrite env proc dentry file fuel (pos + len) (data.drop len) r.2
          (if rest.1 < 0 then r.1 else r.1 + rest.1, rest.2)

end Teadfs
