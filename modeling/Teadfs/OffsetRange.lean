/-
# Teadfs.OffsetRange — offsets near the limit of the lower file system

The mount takes the limit of the lower superblock for its own, so the VFS admits every
access up to it; but behind a label the same byte lies 256 bytes further down. The
predicates below follow the code to the places where an offset is computed: the offset
must be a `loff_t`, and a range handed to `kernel_write` must end at or below the limit.

* a page read is always in range: a page starts a page's length before the end of
  `loff_t`, which is more than a label (`readInRange_page`);
* a size change is in range where it shrinks the file or is refused, or where the loop's
  counter, added to the new size, stays a `loff_t`, and a label fits behind that size if the
  zeros go behind one (`upperInRange_of_fits`, `resizeFits_of_upperInRange`);
* a pass of a write is in range where the extension up to its page is, if there is one, and a
  label fits behind the pass under `OFR_DECRYPT`, or, if the handle appends, the pass fits behind
  the lower file (`performInRange_of_fits`, `performFits_of_inRange`).

The VFS has moved the position of an appending write to `i_size` before it looks at the limit,
so `pos` is here what it comes to.
-/
import Teadfs.Mount
import Teadfs.Views

namespace Teadfs

set_option autoImplicit false

open Protocol FileContent Frame

/-- The largest `loff_t`. -/
def loffMax : Nat := 2 ^ 63 - 1

/-- `struct super_block`, as far as it bounds offsets. -/
structure SuperBlock where
  sMaxbytes : Nat
  sBlocksize : Nat

/-- `teadfs_mount` copies both from the lower superblock. -/
def teadfsMount (lower : SuperBlock) : SuperBlock where
  sMaxbytes := lower.sMaxbytes
  sBlocksize := lower.sBlocksize

/-! ## The calls into the lower file system -/

/-- Where `teadfs_read_lower` reads, if it does. -/
def kernelReadCall (file : FileInfo) (offset : Nat) : Option Nat :=
  file.lowerFile.map fun _ => lowerOffset file offset

/-- The `kernel_write` that `teadfs_write_lower` comes to, if it does: its block, where it
goes, and the state it is made in. -/
def kernelWriteCall (env : Env) (proc : Nat) (file : FileInfo) (data : List UInt8)
    (offset : Nat) (w : World) : Option (List UInt8 × Nat × World) :=
  if file.lowerFile = none ∨ env.zalloc w.chan.clock = false ∨ file.access = .encrypt then none
  else if file.access = .decrypt then
    let r := teadfsRequestWrite env proc offset data data.length w.tick
    if r.1 < 0 then none else some (r.2.1, lowerOffset file offset, r.2.2)
  else some (data, lowerOffset file offset, w.tick)

section Calls

variable (env : Env) (proc : Nat) (file : FileInfo) (data : List UInt8) (offset : Nat) (w : World)

/-- `teadfs_read_lower` gives up or reads there, and returns what was read or what the
client makes of it. -/
theorem teadfsReadLower_call {size : Nat} (buffer : Fin size → UInt8) :
    teadfsReadLower env proc file buffer offset w =
      match kernelReadCall file offset with
      | none => (eio, buffer, w)
      | some o =>
          match kernelRead env o size w with
          | (.error errno, w) => (errno, buffer, w)
          | (.ok bytes, w) =>
              if file.access = .decrypt then
                let r := teadfsRequestRead env proc o bytes size w
                if r.1 ≤ 0 then (bytes.length, overlay buffer 0 bytes, r.2.2)
                else (r.1, overlay (overlay buffer 0 bytes) 0 r.2.1, r.2.2)
              else (bytes.length, overlay buffer 0 bytes, w) := by
  unfold teadfsReadLower kernelReadCall lowerOffset
  cases file.lowerFile <;> rfl

/-- `teadfs_write_lower` gives up with `-EIO` or makes that call. -/
theorem teadfsWriteLower_call :
    match kernelWriteCall env proc file data offset w with
    | none => (teadfsWriteLower env proc file data offset w).1 = eio
    | some (block, o, w') =>
        teadfsWriteLower env proc file data offset w =
          kernelWrite env file.append block o w' := by
  unfold kernelWriteCall teadfsWriteLower zalloc lowerOffset
  cases opened : file.lowerFile with
  | none => simp
  | some ref =>
      by_cases noMemory : env.zalloc w.chan.clock = false
      · simp [noMemory]
      by_cases encrypt : file.access = .encrypt
      · simp [encrypt]
      by_cases decrypt : file.access = .decrypt
      · by_cases failed : (teadfsRequestWrite env proc offset data data.length w.tick).1 < 0
        · simp [noMemory, decrypt, failed]
        · simp [noMemory, decrypt, failed]
      · simp [noMemory, encrypt, decrypt]

variable {env proc file data offset w}

/-- The call is made at the lower offset, with no more bytes than were given, and with the inode
as it was. -/
theorem kernelWriteCall_bounds {block : List UInt8} {o : Nat} {w' : World}
    (reached : kernelWriteCall env proc file data offset w = some (block, o, w')) :
    o = lowerOffset file offset ∧ block.length ≤ data.length ∧ w'.inode = w.inode := by
  unfold kernelWriteCall at reached
  dsimp only at reached
  split_ifs at reached
  · cases reached
    refine ⟨rfl, ?_, requestBlock_inode ..⟩
    rcases requestBlock_cases env proc .write (.write 0 offset ⟨data.length, sizeofPacketInfo⟩)
      data data.length w.tick with ⟨-, empty⟩ | ⟨-, fits⟩
    · rw [teadfsRequestWrite, empty]
      exact Nat.zero_le _
    · exact fits
  · cases reached
    exact ⟨rfl, le_rfl, rfl⟩

/-- A handle that may write comes to the call, where the client answers and keeps lengths. -/
theorem kernelWriteCall_goes {cb : DealCb} (obliging : Obliging env) (answers : Answers env cb)
    (preserves : ∀ o d, (cb.onWrite o d).length = d.length) (served : Served proc file w)
    (writable : file.access ≠ .encrypt) (word : data.length < 2 ^ 32) :
    ∃ block w', kernelWriteCall env proc file data offset w =
        some (block, lowerOffset file offset, w') ∧
      block.length = data.length := by
  have opened : file.lowerFile ≠ none := Option.isSome_iff_ne_none.mp served.1
  by_cases decrypt : file.access = .decrypt
  · have ticked : Connected proc w.tick := served.2 decrypt
    obtain ⟨rc, block⟩ := teadfsRequestWrite_answered answers ticked offset data
      (preserves offset data).le word
    have done : ¬ (teadfsRequestWrite env proc offset data data.length w.tick).1 < 0 := by
      rw [rc]
      omega
    exact ⟨cb.onWrite offset data, _,
      by simp [kernelWriteCall, opened, obliging.zalloc, decrypt, done, block]; rfl,
      preserves offset data⟩
  · exact ⟨data, w.tick,
      by simp [kernelWriteCall, opened, obliging.zalloc, decrypt, writable], rfl⟩

end Calls

/-! ## Ranges -/

section Ranges

variable (limit : Nat) (env : Env) (proc : Nat) (dentry : Dentry)

/-- The offset that `teadfs_read_lower` computes is a `loff_t`. -/
def ReadInRange (file : FileInfo) (offset : Nat) : Prop :=
  ∀ o, kernelReadCall file offset = some o → o ≤ loffMax

/-- The offset that `teadfs_write_lower` computes is a `loff_t`, and the range that is written,
at the lower end if the lower file appends, ends at or below the limit. -/
def WriteInRange (file : FileInfo) (data : List UInt8) (offset : Nat) (w : World) : Prop :=
  ∀ block o w', kernelWriteCall env proc file data offset w = some (block, o, w') →
    o ≤ loffMax ∧ writtenAt file.append o w' + block.length ≤ limit

/-- That holds of the write in `teadfs_write_end`. -/
def EndInRange (file : FileInfo) (pos len copied : Nat) (w : World) : Prop :=
  let page := w.page file.view (pos / pageCacheSize)
  let copied := if copied < len ∧ page.uptodate = false then 0 else copied
  WriteInRange limit env proc file (window page.data (pos % pageCacheSize) copied) pos w

/-- That holds of the write in `teadfs_write`, under the verdict it asks for. -/
def UpperWriteInRange (data : List UInt8) (offset : Nat) (w : World) : Prop :=
  ∀ ref w', dentryOpen env .rdwr (teadfsRequestOpenPath env proc dentry w).2 = (.ok ref, w') →
    WriteInRange limit env proc
      ⟨some ref, .ofCode (teadfsRequestOpenPath env proc dentry w).1, [], false⟩ data
      (min w.inode.iSize offset) w'

/-- That holds of every pass of the loop of `truncate_upper`, and the offset of the pass is a
`loff_t`. -/
def LoopInRange (iaSize total : Nat) : Nat → Nat → World → Prop
  | 0, _, _ => True
  | fuel + 1, truncatePos, w =>
      truncatePos < total →
        let data := List.replicate (min (total - truncatePos) pageCacheSize) 0
        let r := teadfsWrite env proc dentry data (iaSize + truncatePos) w
        iaSize + truncatePos ≤ loffMax ∧
          UpperWriteInRange limit env proc dentry data (iaSize + truncatePos) w ∧
          (0 ≤ r.1 → LoopInRange iaSize total fuel (truncatePos + pageCacheSize) r.2)

/-- That holds of `truncate_upper`, where it comes to its loop. -/
def UpperInRange (n : Nat) (w : World) : Prop :=
  w.inode.iSize < n → env.zalloc w.chan.clock = true →
    LoopInRange limit env proc dentry n (n - w.inode.iSize) (n - w.inode.iSize) 0 w.tick

/-- The offset that `treadfs_write_begin` reads its page from is a `loff_t`, and the extension
up to the page is in range, where it comes to one. -/
def BeginInRange (file : FileInfo) (pos : Nat) (w : World) : Prop :=
  let filled := pageForWrite env proc file (pos / pageCacheSize) w
  ReadInRange file (pos / pageCacheSize * pageCacheSize) ∧
    (env.grabPage w.chan.clock = true → filled.1 = 0 →
      UpperInRange limit env proc dentry (pos / pageCacheSize * pageCacheSize) filled.2)

/-- Both ends of every pass of `generic_perform_write` are in range. -/
def PerformInRange (file : FileInfo) : Nat → Nat → List UInt8 → World → Prop
  | 0, _, _, _ => True
  | fuel + 1, pos, data, w =>
      data ≠ [] →
        let len := chunkLen pos data
        let piece := data.take len
        let begun := treadfsWriteBegin env proc dentry file pos w
        let r := writeChunk env proc dentry file pos piece len w
        BeginInRange limit env proc dentry file pos w ∧
          (begun.1 = 0 → EndInRange limit env proc file pos piece.length len
            (copyToPage file pos (piece.take len) begun.2)) ∧
          (0 ≤ r.1 → PerformInRange file fuel (pos + len) (data.drop len) r.2)

end Ranges

/-! ## The condition -/

/-- A verdict that the process may be given for the file, while the client stays the same. -/
def Given (env : Env) (proc : Nat) (dentry : Dentry) (w : World) (verdict : OpenFileResult) :
    Prop :=
  ∃ w', Steady w w' ∧ .ofCode (teadfsRequestOpenPath env proc dentry w').1 = verdict

/-- Not every verdict given refuses a size that grows. -/
def MayGrow (given : OpenFileResult → Prop) : Prop :=
  ∃ verdict, given verdict ∧ verdict ≠ .encrypt

/-- A size change does not grow the file, or is refused, or the new size and the last value of
the loop's counter are a `loff_t` together and, if the zeros go behind a label, a label fits
behind the new size. -/
def ResizeFits (limit : Nat) (given : OpenFileResult → Prop) (size newSize : Nat) : Prop :=
  size < newSize → MayGrow given →
    newSize + (newSize - size - 1) / pageCacheSize * pageCacheSize ≤ loffMax ∧
      (given .decrypt → newSize + encryptFileHeaderSize ≤ limit)

/-- The end of a pass over `len` bytes at `pos`. Under `OFR_DECRYPT` a label fits behind the
pass; a handle that appends needs room for the pass behind the lower file instead, and `pos` and
a label are a `loff_t` together. A handle that may not write needs nothing. -/
def EndFits (limit : Nat) (file : FileInfo) (lowerSize pos len : Nat) : Prop :=
  file.access ≠ .encrypt →
    (file.access = .decrypt → pos + encryptFileHeaderSize ≤ loffMax) ∧
      if file.append then lowerSize + len ≤ limit
      else file.access = .decrypt → pos + len + encryptFileHeaderSize ≤ limit

instance (limit : Nat) (file : FileInfo) (lowerSize pos len : Nat) :
    Decidable (EndFits limit file lowerSize pos len) :=
  inferInstanceAs (Decidable (_ → _ ∧ _))

/-- Every pass of `generic_perform_write` fits: the extension up to its page at the size it
finds, and its end, once the page is there. -/
def PerformFits (limit : Nat) (env : Env) (proc : Nat) (dentry : Dentry) (file : FileInfo) :
    Nat → Nat → List UInt8 → World → Prop
  | 0, _, _, _ => True
  | fuel + 1, pos, data, w =>
      data ≠ [] →
        let len := chunkLen pos data
        let begun := treadfsWriteBegin env proc dentry file pos w
        let r := writeChunk env proc dentry file pos (data.take len) len w
        ResizeFits limit (Given env proc dentry w) w.inode.iSize
            (pos / pageCacheSize * pageCacheSize) ∧
          (begun.1 = 0 → EndFits limit file begun.2.inode.lower.length pos len) ∧
          (0 ≤ r.1 →
            PerformFits limit env proc dentry file fuel (pos + len) (data.drop len) r.2)

/-- What the VFS asks of the module. -/
inductive RangeRequest where
  | readpage (file : FileInfo) (index : Nat)
  | write (file : FileInfo) (pos : Nat) (data : List UInt8)
  | resize (newSize : Nat)

namespace RangeRequest

/-- What the VFS admits on a superblock: pages that start below its limit, and ranges and
sizes that end there at most. -/
def Admitted (upper : SuperBlock) : RangeRequest → Prop
  | .readpage _ index => index * pageCacheSize < upper.sMaxbytes
  | .write _ pos data => pos + data.length ≤ upper.sMaxbytes
  | .resize newSize => newSize ≤ upper.sMaxbytes

instance (upper : SuperBlock) : (request : RangeRequest) → Decidable (request.Admitted upper)
  | .readpage _ _ => inferInstanceAs (Decidable (_ < _))
  | .write _ _ _ => inferInstanceAs (Decidable (_ ≤ _))
  | .resize _ => inferInstanceAs (Decidable (_ ≤ _))

/-- The request stays in range. -/
def InRange (limit : Nat) (env : Env) (proc : Nat) (dentry : Dentry) (w : World) :
    RangeRequest → Prop
  | .readpage file index => ReadInRange file (index * pageCacheSize)
  | .write file pos data => PerformInRange limit env proc dentry file data.length pos data w
  | .resize newSize => UpperInRange limit env proc dentry newSize w

/-- The condition on the request. -/
def LabelFits (limit : Nat) (env : Env) (proc : Nat) (dentry : Dentry) (w : World) :
    RangeRequest → Prop
  | .readpage _ _ => True
  | .write file pos data => PerformFits limit env proc dentry file data.length pos data w
  | .resize newSize => ResizeFits limit (Given env proc dentry w) w.inode.iSize newSize

/-- A write is made through a handle that is open, and known to the client if it decrypts. -/
def Ready (proc : Nat) (w : World) : RangeRequest → Prop
  | .write file _ _ => Served proc file w
  | _ => True

end RangeRequest

/-! ## The verdicts -/

section Verdicts

variable {env : Env} {proc : Nat} {dentry : Dentry} {w w' : World}

theorem Given.now : Given env proc dentry w (.ofCode (teadfsRequestOpenPath env proc dentry w).1) :=
  ⟨w, .refl w, rfl⟩

/-- The verdicts given do not change on the way. -/
theorem given_steady (same : Steady w w') : Given env proc dentry w' = Given env proc dentry w :=
  funext fun _ => propext
    ⟨fun ⟨later, steady, asked⟩ => ⟨later, same.trans steady, asked⟩,
      fun ⟨later, steady, asked⟩ => ⟨later, same.symm.trans steady, asked⟩⟩

/-- A client that answers gives one verdict. -/
theorem given_iff {cb : DealCb} (answers : Answers env cb) {verdict : OpenFileResult} :
    Given env proc dentry w verdict ↔
      .ofCode (teadfsRequestOpenPath env proc dentry w).1 = verdict := by
  constructor
  · rintro ⟨later, steady, asked⟩
    rwa [teadfsRequestOpenPath_same answers steady] at asked
  · rintro rfl
    exact .now

theorem mayGrow_iff {cb : DealCb} (answers : Answers env cb) :
    MayGrow (Given env proc dentry w) ↔
      OpenFileResult.ofCode (teadfsRequestOpenPath env proc dentry w).1 ≠ .encrypt := by
  simp only [MayGrow, given_iff answers, exists_eq_left']

/-- Where every verdict refuses, the first zeros are refused. -/
theorem teadfsWrite_refused (refuses : ¬ MayGrow (Given env proc dentry w)) (data : List UInt8)
    (offset : Nat) : (teadfsWrite env proc dentry data offset w).1 < 0 := by
  have encrypt : .ofCode (teadfsRequestOpenPath env proc dentry w).1 = OpenFileResult.encrypt :=
    by_contra fun other => refuses ⟨_, .now, other⟩
  rcases teadfsWrite_cases env proc dentry data offset w with
    ⟨errno, -, failed⟩ | ⟨ref, w', -, -, -, -, written⟩
  · rw [failed]
    exact errno.property
  · have refused : (⟨some ref, .ofCode (teadfsRequestOpenPath env proc dentry w).1, [], false⟩ :
        FileInfo).access = .encrypt := encrypt
    obtain ⟨rc, -⟩ := teadfsWriteLower_encrypt env proc refused data (min w.inode.iSize offset) w'
    have negative : eio < 0 := by decide
    rw [written]
    dsimp only
    rw [rc, if_pos negative, rc]
    exact negative

end Verdicts

/-! ## Page reads -/

theorem lowerOffset_le (file : FileInfo) (offset : Nat) :
    lowerOffset file offset ≤ offset + encryptFileHeaderSize := by
  unfold lowerOffset
  split_ifs <;> omega

/-- The last page that starts below the end of `loff_t` starts a page below it. -/
theorem readInRange_page {start : Nat} (file : FileInfo) (page : pageCacheSize ∣ start)
    (below : start < loffMax) : ReadInRange file start := by
  intro o reads
  obtain ⟨ref, -, rfl⟩ := Option.map_eq_some_iff.mp reads
  obtain ⟨index, rfl⟩ := page
  have offset := lowerOffset_le file (pageCacheSize * index)
  simp only [pageCacheSize, encryptFileHeaderSize, loffMax] at *
  omega

/-! ## The condition is enough -/

section Enough

variable {limit : Nat} {env : Env} {proc : Nat} {dentry : Dentry} {file : FileInfo} {w : World}
  (reaches : limit ≤ loffMax)

/-- A block whose place ends at or below the limit is written there. -/
theorem writeInRange_of_end {data : List UInt8} {offset : Nat}
    (start : lowerOffset file offset ≤ loffMax)
    (inside : lowerPosition file offset w + data.length ≤ limit) :
    WriteInRange limit env proc file data offset w := by
  intro block o w' reached
  obtain ⟨rfl, length, inode⟩ := kernelWriteCall_bounds reached
  have place :
      writtenAt file.append (lowerOffset file offset) w' = lowerPosition file offset w := by
    rw [lowerPosition, writtenAt, writtenAt, inode]
  refine ⟨start, ?_⟩
  rw [place]
  omega

include reaches

/-- The zeros of one pass are in range if the size they bring the file to is, with the label. -/
theorem upperWriteInRange_of_end {data : List UInt8} {offset : Nat}
    (inside : w.inode.iSize + data.length ≤ limit)
    (label : Given env proc dentry w .decrypt →
      w.inode.iSize + data.length + encryptFileHeaderSize ≤ limit) :
    UpperWriteInRange limit env proc dentry data offset w := by
  intro ref w' _
  have place : lowerOffset ⟨some ref, .ofCode (teadfsRequestOpenPath env proc dentry w).1, [],
      false⟩ (min w.inode.iSize offset) + data.length ≤ limit := by
    unfold lowerOffset
    split_ifs with decrypt
    · have labelled := label (decrypt ▸ Given.now)
      omega
    · omega
  refine writeInRange_of_end (by omega) ?_
  rw [lowerPosition_of_inPlace (.of_plain rfl _ _)]
  exact place

/-- The passes of the loop are in range if the size that is asked for is, with the label, and no
pass has an offset beyond `loff_t`. The invariant is that the file has grown by the passes done. -/
theorem loopInRange_of_fits {iaSize total fuel k : Nat} (below : iaSize ≤ limit)
    (label : Given env proc dentry w .decrypt → iaSize + encryptFileHeaderSize ≤ limit)
    (counter : ∀ j, j * pageCacheSize < total → iaSize + j * pageCacheSize ≤ loffMax)
    (left : w.inode.iSize + (total - k * pageCacheSize) = iaSize) :
    LoopInRange limit env proc dentry iaSize total fuel (k * pageCacheSize) w := by
  induction fuel generalizing k w with
  | zero => trivial
  | succ fuel ih =>
      intro more
      refine ⟨counter k more, ?_, ?_⟩
      · refine upperWriteInRange_of_end reaches ?_ fun decrypt => ?_
        · rw [List.length_replicate]
          omega
        · have labelled := label decrypt
          rw [List.length_replicate]
          omega
      · intro success
        have size := teadfsWrite_iSize success
        rw [List.length_replicate] at size
        rw [← Nat.succ_mul]
        refine ih ?_ ?_
        · rwa [given_steady (teadfsWrite_steady ..)]
        · rw [size, Nat.succ_mul]
          omega

theorem upperInRange_of_fits {newSize : Nat} (below : newSize ≤ limit)
    (fits : ResizeFits limit (Given env proc dentry w) w.inode.iSize newSize) :
    UpperInRange limit env proc dentry newSize w := by
  intro grows _
  by_cases mayGrow : MayGrow (Given env proc dentry w)
  · obtain ⟨last, label⟩ := fits grows mayGrow
    have counter : ∀ j, j * pageCacheSize < newSize - w.inode.iSize →
        newSize + j * pageCacheSize ≤ loffMax := by
      intro j inside
      have bound : j * pageCacheSize ≤
          (newSize - w.inode.iSize - 1) / pageCacheSize * pageCacheSize := by
        simp only [pageCacheSize] at inside ⊢
        omega
      omega
    have start : w.tick.inode.iSize + (newSize - w.inode.iSize - 0 * pageCacheSize) = newSize := by
      rw [Nat.zero_mul, Nat.sub_zero]
      exact Nat.add_sub_cancel' grows.le
    have loop : LoopInRange limit env proc dentry newSize (newSize - w.inode.iSize)
        (newSize - w.inode.iSize) (0 * pageCacheSize) w.tick :=
      loopInRange_of_fits reaches below label counter start
    rwa [Nat.zero_mul] at loop
  · -- the first zeros are refused
    obtain ⟨fuel, total⟩ := Nat.exists_eq_add_of_lt (Nat.sub_pos_of_lt grows)
    have ticked : ¬ MayGrow (Given env proc dentry w.tick) := mayGrow
    have size : w.tick.inode.iSize = w.inode.iSize := rfl
    have noLabel : ¬ Given env proc dentry w.tick .decrypt :=
      fun decrypt => ticked ⟨_, decrypt, by decide⟩
    rw [total]
    intro more
    refine ⟨by omega, ?_, fun success => ?_⟩
    · refine upperWriteInRange_of_end reaches ?_ fun decrypt => absurd decrypt noLabel
      rw [List.length_replicate, size]
      omega
    · exact absurd success (Int.not_le.mpr (teadfsWrite_refused ticked ..))

/-- The reads and extensions before a pass are in range if the extension up to its page fits. -/
theorem beginInRange_of_fits {pos : Nat} (below : pos < limit)
    (fits : ResizeFits limit (Given env proc dentry w) w.inode.iSize
      (pos / pageCacheSize * pageCacheSize)) :
    BeginInRange limit env proc dentry file pos w := by
  have page := Nat.div_mul_le_self pos pageCacheSize
  refine ⟨readInRange_page file (Nat.dvd_mul_left _ _) (by omega), fun _ _ => ?_⟩
  refine upperInRange_of_fits reaches (by omega) ?_
  rwa [given_steady (pageForWrite_untouched env proc file _ w).1, pageForWrite_iSize]

/-- The write of a pass is in range if its end fits. -/
theorem endInRange_of_fits {pos len copied : Nat} (below : pos + copied ≤ limit)
    (fits : EndFits limit file w.inode.lower.length pos copied) :
    EndInRange limit env proc file pos len copied w := by
  by_cases writable : file.access = .encrypt
  · -- no call is made
    intro block o w' reached
    simp [kernelWriteCall, writable] at reached
  obtain ⟨start, inside⟩ := fits writable
  have taken : (window (w.page file.view (pos / pageCacheSize)).data (pos % pageCacheSize)
      (if copied < len ∧ (w.page file.view (pos / pageCacheSize)).uptodate = false then 0
        else copied)).length ≤ copied := by
    rw [length_window]
    split_ifs <;> omega
  unfold EndInRange
  dsimp only
  generalize window (w.page file.view (pos / pageCacheSize)).data (pos % pageCacheSize) _ = block
    at taken ⊢
  refine writeInRange_of_end ?_ ?_
  · unfold lowerOffset
    split_ifs with decrypt
    · exact start decrypt
    · omega
  · unfold lowerPosition writtenAt lowerOffset
    by_cases append : file.append = true
    · rw [if_pos append] at inside ⊢
      omega
    · rw [if_neg append] at inside ⊢
      split_ifs with decrypt
      · have labelled := inside decrypt
        omega
      · omega

theorem performInRange_of_fits {fuel pos : Nat} {data : List UInt8}
    (inside : pos + data.length ≤ limit)
    (fits : PerformFits limit env proc dentry file fuel pos data w) :
    PerformInRange limit env proc dentry file fuel pos data w := by
  induction fuel generalizing pos data w with
  | zero => trivial
  | succ fuel ih =>
      intro block
      obtain ⟨extension, ended, rest⟩ := fits block
      obtain ⟨some, part, -, taken⟩ := @chunkLen_bounds pos data block
      generalize chunkLen pos data = len at some part taken ended rest
      refine ⟨beginInRange_of_fits reaches (by omega) extension, fun ready => ?_, fun success => ?_⟩
      · exact endInRange_of_fits reaches (by omega) (ended ready)
      · exact ih (by rw [List.length_drop]; omega) (rest success)

end Enough

/-! ## The condition is needed -/

section Needed

variable {limit : Nat} {env : Env} {cb : DealCb} {proc : Nat} {dentry : Dentry} {file : FileInfo}
  {w : World} (obliging : Obliging env) (answers : Answers env cb)
  (preserves : ∀ o d, (cb.onWrite o d).length = d.length)

include obliging

/-- A page is read in. -/
theorem pageForWrite_goes (isOpen : file.lowerFile.isSome) (index : Nat) :
    (pageForWrite env proc file index w).1 = 0 := by
  unfold pageForWrite
  split
  · rfl
  · obtain ⟨ref, opened⟩ := Option.isSome_iff_exists.mp isOpen
    have count : ∃ n : Nat, (teadfsReadLower env proc file (w.tick.page file.view index).data
        (index * pageCacheSize) w.tick).1 = n := by
      simp only [teadfsReadLower, opened, kernelRead_full (obliging.kernelRead _)]
      split_ifs with decrypt nothing
      · exact ⟨_, rfl⟩
      · exact ⟨_, (Int.toNat_of_nonneg (Int.not_le.mp nothing).le).symm⟩
      · exact ⟨_, rfl⟩
    obtain ⟨n, read⟩ := count
    exact (fillPage_of_read env proc file index w.tick read).1

include answers preserves

/-- A write in range is one of the whole block, where it goes. -/
theorem end_le_of_writeInRange (served : Served proc file w) (writable : file.access ≠ .encrypt)
    {data : List UInt8} {offset : Nat} (word : data.length < 2 ^ 32)
    (inRange : WriteInRange limit env proc file data offset w) :
    lowerOffset file offset ≤ loffMax ∧ lowerPosition file offset w + data.length ≤ limit := by
  obtain ⟨block, w', reached, length⟩ :=
    kernelWriteCall_goes obliging answers preserves served writable word
  obtain ⟨-, -, inode⟩ := kernelWriteCall_bounds reached
  have fits := inRange _ _ _ reached
  rw [length, writtenAt, inode] at fits
  exact fits

section Growth

variable (permits : OpenFileResult.ofCode (teadfsRequestOpenPath env proc dentry w).1 ≠ .encrypt)

include permits

/-- Zeros that are not refused are written. -/
theorem teadfsWrite_goes {data : List UInt8} (word : data.length < 2 ^ 32) (offset : Nat) :
    (teadfsWrite env proc dentry data offset w).1 = 0 := by
  rcases teadfsWrite_cases env proc dentry data offset w with
    ⟨errno, refused, -⟩ | ⟨ref, w', -, -, -, opened, written⟩
  · rw [obliging.dentryOpen] at refused
    cases refused
  · have count : (teadfsWriteLower env proc
        ⟨some ref, .ofCode (teadfsRequestOpenPath env proc dentry w).1, [], false⟩ data
        (min w.inode.iSize offset) w').1 = data.length := by
      by_cases decrypt : .ofCode (teadfsRequestOpenPath env proc dentry w).1 =
          OpenFileResult.decrypt
      · exact (teadfsWriteLower_decrypted obliging answers
          (opened.connected (connected_of_decrypt decrypt)) rfl decrypt data _ word preserves).1
      · exact (teadfsWriteLower_raw obliging proc rfl permits decrypt data _ w').1
    rw [written]
    dsimp only
    rw [if_neg (by rw [count]; omega)]

/-- An extension that stays in range comes to its last byte, a label further down if there is
one. The induction is on the passes that are left. -/
theorem fits_of_loopInRange {iaSize total fuel truncatePos : Nat} (more : truncatePos < total)
    (enough : total - truncatePos ≤ fuel)
    (left : w.inode.iSize + (total - truncatePos) = iaSize)
    (inRange : LoopInRange limit env proc dentry iaSize total fuel truncatePos w) :
    iaSize + (truncatePos + (total - truncatePos - 1) / pageCacheSize * pageCacheSize) ≤ loffMax ∧
      (.ofCode (teadfsRequestOpenPath env proc dentry w).1 = OpenFileResult.decrypt →
        iaSize + encryptFileHeaderSize ≤ limit) := by
  have paged : 0 < pageCacheSize ∧ pageCacheSize < 2 ^ 32 := by decide
  induction fuel generalizing truncatePos w with
  | zero => omega
  | succ fuel ih =>
      obtain ⟨offset, upper, rest⟩ := inRange more
      have word : (List.replicate (min (total - truncatePos) pageCacheSize)
          (0 : UInt8)).length < 2 ^ 32 := by
        rw [List.length_replicate]
        omega
      by_cases last : total - truncatePos ≤ pageCacheSize
      · have counter : (total - truncatePos - 1) / pageCacheSize = 0 :=
          Nat.div_eq_of_lt (by omega)
        rw [counter, Nat.zero_mul, Nat.add_zero]
        refine ⟨offset, fun decrypt => ?_⟩
        rcases teadfsWrite_cases env proc dentry
          (List.replicate (min (total - truncatePos) pageCacheSize) 0) (iaSize + truncatePos) w with
          ⟨errno, refused, -⟩ | ⟨ref, w', opens, -, -, opened, -⟩
        · rw [obliging.dentryOpen] at refused
          cases refused
        · obtain ⟨-, fits⟩ := end_le_of_writeInRange obliging answers preserves
            ⟨rfl, fun access => opened.connected (connected_of_decrypt access)⟩ permits word
            (upper ref w' opens)
          rw [lowerPosition_of_inPlace (.of_plain rfl _ _), lowerOffset, if_pos decrypt,
            List.length_replicate] at fits
          omega
      · have success :=
          teadfsWrite_goes obliging answers preserves permits word (iaSize + truncatePos)
        have same := @teadfsRequestOpenPath_same env cb proc w answers dentry _
          (teadfsWrite_steady env proc dentry
            (List.replicate (min (total - truncatePos) pageCacheSize) 0) (iaSize + truncatePos) w)
        have size := teadfsWrite_iSize success.ge
        rw [List.length_replicate] at size
        have next := ih (by rwa [same]) (by omega) (by omega) (by rw [size]; omega)
          (rest success.ge)
        rw [same] at next
        refine ⟨?_, next.2⟩
        have counter : truncatePos + (total - truncatePos - 1) / pageCacheSize * pageCacheSize =
            truncatePos + pageCacheSize +
              (total - (truncatePos + pageCacheSize) - 1) / pageCacheSize * pageCacheSize := by
          simp only [pageCacheSize] at last ⊢
          omega
        rw [counter]
        exact next.1

end Growth

theorem resizeFits_of_upperInRange {newSize : Nat}
    (inRange : UpperInRange limit env proc dentry newSize w) :
    ResizeFits limit (Given env proc dentry w) w.inode.iSize newSize := by
  intro grows mayGrow
  have permits := (mayGrow_iff answers).mp mayGrow
  have ticked : OpenFileResult.ofCode (teadfsRequestOpenPath env proc dentry w.tick).1 ≠
      .encrypt := by
    rwa [teadfsRequestOpenPath_same answers (show Steady w w.tick from ⟨rfl, rfl, rfl⟩)]
  obtain ⟨counter, label⟩ := fits_of_loopInRange obliging answers preserves ticked
    (Nat.sub_pos_of_lt grows) le_rfl (Nat.add_sub_cancel' grows.le)
    (inRange grows (obliging.zalloc _))
  rw [Nat.zero_add, Nat.sub_zero] at counter
  rw [teadfsRequestOpenPath_same answers (show Steady w w.tick from ⟨rfl, rfl, rfl⟩)] at label
  exact ⟨counter, fun decrypt => label ((given_iff answers).mp decrypt)⟩

/-- Every pass that stays in range fits. -/
theorem performFits_of_inRange (served : Served proc file w) {fuel pos : Nat} {data : List UInt8}
    (inRange : PerformInRange limit env proc dentry file fuel pos data w) :
    PerformFits limit env proc dentry file fuel pos data w := by
  induction fuel generalizing pos data w with
  | zero => trivial
  | succ fuel ih =>
      intro block
      have paged : pageCacheSize < 2 ^ 32 := by decide
      obtain ⟨⟨-, extension⟩, ended, rest⟩ := inRange block
      obtain ⟨-, -, inPage, taken⟩ := @chunkLen_bounds pos data block
      generalize chunkLen pos data = len at inPage taken ended rest
      have filled := (pageForWrite_untouched env proc file (pos / pageCacheSize) w).1
      refine ⟨?_, fun begun writable => ?_, fun success => ?_⟩
      · have fits := resizeFits_of_upperInRange obliging answers preserves
          (extension (obliging.grabPage _) (pageForWrite_goes obliging served.1 _))
        rwa [given_steady filled, pageForWrite_iSize] at fits
      · have inEnd := ended begun
        rw [EndInRange, taken, if_neg (by omega)] at inEnd
        have copied : Served proc file (copyToPage file pos ((data.take len).take len)
            (treadfsWriteBegin env proc dentry file pos w).2) :=
          served.steady (treadfsWriteBegin_steady ..)
        obtain ⟨start, inside⟩ := end_le_of_writeInRange obliging answers preserves copied
          writable (by rw [length_window]; omega) inEnd
        rw [length_window, Nat.min_eq_left (by omega)] at inside
        refine ⟨fun decrypt => ?_, ?_⟩
        · rwa [lowerOffset, if_pos decrypt] at start
        · unfold lowerPosition writtenAt lowerOffset at inside
          split_ifs at inside ⊢ with append decrypt
          · exact inside
          · exact fun _ => by omega
          · exact fun access => absurd access decrypt
      · exact ih (served.steady (writeChunk_steady ..)) (rest success)

end Needed

/-! ## The requests -/

/-- **Offsets near the limit.** Let the lower file system's limit be any `loff_t`, and let
the VFS admit what it admits on the mount. If the request is `LabelFits`, the lower offsets of
a page read, of a write with its extensions, and of a size change are all a `loff_t`, and the
lower ranges written end at or below the limit, whatever the client and the lower file system
do. Where both oblige, the request stays in range only then. -/
theorem offsets_in_range_iff (lower : SuperBlock) (reaches : lower.sMaxbytes ≤ loffMax) (env : Env)
    (proc : Nat) (dentry : Dentry) (w : World) (request : RangeRequest)
    (admitted : request.Admitted (teadfsMount lower)) :
    (request.LabelFits lower.sMaxbytes env proc dentry w →
        request.InRange lower.sMaxbytes env proc dentry w) ∧
      ∀ cb : DealCb, Obliging env → Answers env cb →
        (∀ o d, (cb.onWrite o d).length = d.length) → request.Ready proc w →
        request.InRange lower.sMaxbytes env proc dentry w →
        request.LabelFits lower.sMaxbytes env proc dentry w := by
  cases request with
  | readpage file index =>
      have below : index * pageCacheSize < lower.sMaxbytes := admitted
      exact ⟨fun _ => readInRange_page file (Nat.dvd_mul_left _ _) (by omega),
        fun _ _ _ _ _ _ => trivial⟩
  | write file pos data =>
      exact ⟨performInRange_of_fits reaches admitted,
        fun _ obliging answers preserves served =>
          performFits_of_inRange obliging answers preserves served⟩
  | resize newSize =>
      exact ⟨upperInRange_of_fits reaches admitted,
        fun _ obliging answers preserves _ =>
          resizeFits_of_upperInRange obliging answers preserves⟩

/-- The largest limit there is. -/
def largestSuper : SuperBlock := ⟨loffMax, 4096⟩

/-- At the largest limit: three bytes go behind the label of an empty file, and a file with the
verdict `OFR_INIT` grows to the limit by ten bytes, in range; but it does not grow there from
nothing. -/
theorem first_page_in_range :
    (RangeRequest.write (exampleFile .decrypt) 0 [1, 2, 3]).InRange loffMax
        (clientEnv (xorCb .decrypt)) 7 exampleDentry (freshWorld []) ∧
      (RangeRequest.resize loffMax).InRange loffMax (clientEnv (xorCb .init)) 7 exampleDentry
        ((freshWorld []).setSize (loffMax - 10)) ∧
      ¬ (RangeRequest.resize loffMax).InRange loffMax (clientEnv (xorCb .init)) 7 exampleDentry
        (freshWorld []) := by
  have plain : ∀ w, Given (clientEnv (xorCb .init)) 7 exampleDentry w .decrypt →
      ¬ Connected 7 w := by
    intro w given connected
    rw [given_iff (clientEnv_answers _), teadfsRequestOpenPath_answered (clientEnv_answers _)
      connected rfl (by decide) (by decide)] at given
    exact absurd given (by decide)
  refine ⟨?_, ?_, fun inRange => ?_⟩
  · refine (offsets_in_range_iff largestSuper le_rfl _ 7 exampleDentry (freshWorld [])
      (.write (exampleFile .decrypt) 0 [1, 2, 3]) (by decide)).1 fun _ => ⟨?_, ?_, ?_⟩
    · exact fun grows => absurd grows (by decide)
    · exact fun _ => by decide
    · exact fun _ rest => absurd rfl rest
  · refine (offsets_in_range_iff largestSuper le_rfl _ 7 exampleDentry
      ((freshWorld []).setSize (loffMax - 10)) (.resize loffMax) le_rfl).1 fun _ _ => ⟨?_, ?_⟩
    · decide
    · exact fun decrypt => absurd (by decide) (plain _ decrypt)
  · have fits := (offsets_in_range_iff largestSuper le_rfl _ 7 exampleDentry (freshWorld [])
      (.resize loffMax) le_rfl).2 (xorCb .init) (clientEnv_obliging _) (clientEnv_answers _)
      (fun _ _ => List.length_map _) trivial inRange
    have mayGrow : MayGrow (Given (clientEnv (xorCb .init)) 7 exampleDentry (freshWorld [])) := by
      rw [mayGrow_iff (clientEnv_answers _), teadfsRequestOpenPath_answered (clientEnv_answers _)
        (show Connected 7 (freshWorld []) by decide) rfl (by decide) (by decide)]
      decide
    exact absurd (fits (by decide) mayGrow).1 (by decide)

/-- The last byte the VFS admits under `OFR_DECRYPT`: behind the label, its offset is beyond
`loff_t`. -/
theorem last_byte_out_of_range :
    ¬ ∀ (lower : SuperBlock) (env : Env) (proc : Nat) (dentry : Dentry) (w : World)
        (request : RangeRequest), lower.sMaxbytes ≤ loffMax →
      request.Admitted (teadfsMount lower) → request.InRange lower.sMaxbytes env proc dentry w := by
  intro inRange
  have run := inRange largestSuper (clientEnv (xorCb .decrypt)) 7 exampleDentry
    ((freshWorld []).setSize (loffMax - 1)) (.write (exampleFile .decrypt) (loffMax - 1) [9])
    le_rfl (by decide)
  have fits := performFits_of_inRange (clientEnv_obliging _) (clientEnv_answers _)
    (fun _ _ => List.length_map _) (by decide) run (by decide)
  have begun : (treadfsWriteBegin (clientEnv (xorCb .decrypt)) 7 exampleDentry
      (exampleFile .decrypt) (loffMax - 1) ((freshWorld []).setSize (loffMax - 1))).1 = 0 := by
    have inside : (loffMax - 1) / pageCacheSize * pageCacheSize ≤
        ((freshWorld []).setSize (loffMax - 1)).inode.iSize := by decide
    rw [treadfsWriteBegin_inside exampleDentry rfl (pageForWrite_goes (clientEnv_obliging _) rfl _)
      (by rwa [pageForWrite_iSize])]
  exact absurd (fits.2.1 begun) (by decide)

end Teadfs
