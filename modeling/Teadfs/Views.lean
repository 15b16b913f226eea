/-
# Teadfs.Views — the two views of a lower file, and a write through one of them

A handle sees the lower file as it is, or decrypted behind its label. What a view shows at
a position is one lower byte, put through a permutation (`fresh`), and an Uptodate page of
its mapping should hold what the view shows (`Matches`). This module follows a read and a
write of either view through `mmap.c` once: filling a page makes it match
(`fillPage_matches`), and a contiguous write stores its block and keeps the writer's own
pages matching (`genericPerformWrite_stored`). What it does to the pages of the other view
is nothing, and that is all this module says about them.
-/
import Teadfs.Client

namespace Teadfs

set_option autoImplicit false

open Protocol FileContent Frame

/-! ## What a view shows -/

/-- The bytes of the lower file in front of a view. -/
def View.label : View → Nat
  | .raw => 0
  | .decrypted => encryptFileHeaderSize

/-- How a byte of a view is stored. -/
def View.cipher (enc : Equiv.Perm UInt8) : View → Equiv.Perm UInt8
  | .raw => Equiv.refl UInt8
  | .decrypted => enc

/-- What reading byte `p` of a view afresh gives. -/
def fresh (enc : Equiv.Perm UInt8) (view : View) (w : World) (p : Nat) : Option UInt8 :=
  w.inode.lower[view.label + p]?.map (view.cipher enc).symm

/-- No Uptodate page of the view holds another byte than reading the page afresh gives,
wherever there is a byte to read. -/
def Matches (enc : Equiv.Perm UInt8) (view : View) (w : World) : Prop :=
  ∀ (index : Nat) (i : Fin pageCacheSize) (byte : UInt8), (w.page view index).uptodate = true →
    fresh enc view w (index * pageCacheSize + i) = some byte → (w.page view index).data i = byte

/-- The handle is open, and if it decrypts, its upcalls reach the client. -/
def Served (proc : Nat) (file : FileInfo) (w : World) : Prop :=
  file.lowerFile.isSome ∧ (file.access = .decrypt → Connected proc w)

instance (proc : Nat) (file : FileInfo) (w : World) : Decidable (Served proc file w) :=
  inferInstanceAs (Decidable (_ ∧ _))

/-- A write at `pos` leaves no gap behind the view's last byte, and its first page is
neither beyond `i_size`, where `treadfs_write_begin` truncates first, nor one that starts
at `i_size` and has bytes, which it zeroes. -/
def Contiguous (view : View) (pos : Nat) (w : World) : Prop :=
  pos ≤ w.inode.lower.length - view.label ∧ pos / pageCacheSize * pageCacheSize ≤ w.inode.iSize ∧
    (pos / pageCacheSize * pageCacheSize = w.inode.iSize →
      w.inode.lower.length ≤ view.label + pos / pageCacheSize * pageCacheSize)

instance (view : View) (pos : Nat) (w : World) : Decidable (Contiguous view pos w) :=
  inferInstanceAs (Decidable (_ ∧ _ ∧ _))

/-- The Uptodate pages hold what the gap between the last byte of the view and `pos` will be
read as. Without a gap that says nothing. -/
def GapClear (enc : Equiv.Perm UInt8) (view : View) (pos : Nat) (w : World) : Prop :=
  ∀ (index : Nat) (i : Fin pageCacheSize), (w.page view index).uptodate = true →
    w.inode.lower.length ≤ view.label + (index * pageCacheSize + i) →
    index * pageCacheSize + i < pos → (w.page view index).data i = (view.cipher enc).symm 0

/-- The page `index` of a view is ready for a write, and nothing else has changed. -/
structure Prepared (enc : Equiv.Perm UInt8) (view : View) (index : Nat) (w w' : World) : Prop where
  steady : Steady w w'
  lower : w'.inode.lower = w.inode.lower
  iSize : w'.inode.iSize = w.inode.iSize
  pages : Matches enc view w'
  uptodate : (w'.page view index).uptodate = true
  others : ∀ view' index', view' ≠ view → w'.page view' index' = w.page view' index'

/-- A block has been written at `pos` of a view; the other view's pages are as before. -/
structure Stored (enc : Equiv.Perm UInt8) (view : View) (pos : Nat) (data : List UInt8)
    (w w' : World) : Prop where
  steady : Steady w w'
  lower : w'.inode.lower =
    write 0 (view.label + pos) (data.map (view.cipher enc)) w.inode.lower
  size : w'.inode.iSize = w'.inode.lower.length
  pages : Matches enc view w'
  others : ∀ view' index', view' ≠ view → w'.page view' index' = w.page view' index'

/-! ## Pages and lower bytes -/

theorem view_of_decrypt {file : FileInfo} (decrypt : file.access = .decrypt) :
    file.view = .decrypted := by
  simp [FileInfo.view, decrypt]

theorem view_of_raw {file : FileInfo} (raw : file.access ≠ .decrypt) : file.view = .raw := by
  simp [FileInfo.view, raw]

/-- A block's place is behind the label of the handle's view. -/
theorem lowerOffset_eq (file : FileInfo) (offset : Nat) :
    lowerOffset file offset = file.view.label + offset := by
  unfold lowerOffset
  split
  · rename_i decrypt
    rw [view_of_decrypt decrypt, View.label, Nat.add_comm]
  · rename_i raw
    rw [view_of_raw raw, View.label, Nat.zero_add]

section Pages

variable {enc : Equiv.Perm UInt8} {view : View} {w w' : World}

/-- Pages that stay as they are still match if the lower bytes under them do. -/
theorem Matches.frame (kept : Matches enc view w)
    (pages : ∀ index, w'.page view index = w.page view index)
    (bytes : ∀ (index : Nat) (i : Fin pageCacheSize) (byte : UInt8),
      (w.page view index).uptodate = true →
      fresh enc view w' (index * pageCacheSize + i) = some byte →
      fresh enc view w (index * pageCacheSize + i) = some byte) :
    Matches enc view w' := by
  intro index i byte uptodate read
  rw [pages] at uptodate ⊢
  exact kept index i byte uptodate (bytes index i byte uptodate read)

theorem fresh_congr (lower : w'.inode.lower = w.inode.lower) (p : Nat) :
    fresh enc view w' p = fresh enc view w p := by
  rw [fresh, fresh, lower]

/-- Where a block is stored, the view shows it. -/
theorem fresh_written {pos : Nat} {data : List UInt8}
    (lower : w'.inode.lower =
      write 0 (view.label + pos) (data.map (view.cipher enc)) w.inode.lower) {p : Nat}
    (written : pos ≤ p ∧ p < pos + data.length) : fresh enc view w' p = data[p - pos]? := by
  have block : data ≠ [] := by
    rintro rfl
    simp at written
    omega
  simp only [fresh, lower, getElem?_write, List.map_eq_nil_iff, List.length_map, List.getElem?_map]
  rw [if_neg block, if_neg (by omega), if_pos (by omega), Nat.add_sub_add_left, Option.map_map]
  simp

/-- Elsewhere the view shows what it showed, or in the gap behind its end a zero of the lower
file, and the pages match. -/
theorem Matches.unwritten (kept : Matches enc view w) {pos : Nat} (gap : GapClear enc view pos w)
    {data : List UInt8}
    (lower : w'.inode.lower =
      write 0 (view.label + pos) (data.map (view.cipher enc)) w.inode.lower) {index : Nat}
    {i : Fin pageCacheSize} {byte : UInt8} (uptodate : (w.page view index).uptodate = true)
    (away : ¬ (pos ≤ index * pageCacheSize + i ∧ index * pageCacheSize + i < pos + data.length))
    (read : fresh enc view w' (index * pageCacheSize + i) = some byte) :
    (w.page view index).data i = byte := by
  simp only [fresh, lower, getElem?_write, List.map_eq_nil_iff, List.length_map] at read
  split at read
  · exact kept index i byte uptodate read
  split at read
  · rename_i before
    cases old : w.inode.lower[view.label + (index * pageCacheSize + i)]? with
    | some stored =>
        rw [old] at read
        exact kept index i byte uptodate (by rw [fresh, old]; exact read)
    | none =>
        rw [old] at read
        have hole := gap index i uptodate (by simpa using old) (by omega)
        rw [hole]
        exact Option.some.inj read
  · rw [if_neg (by omega)] at read
    exact kept index i byte uptodate read

/-- A write that starts in the view or at its end leaves no gap. -/
theorem GapClear.of_inside {pos : Nat} (inside : pos ≤ w.inode.lower.length - view.label) :
    GapClear enc view pos w := by
  intro index i _ behind before
  omega

/-- A write may go on where a block has been stored. -/
theorem Stored.contiguous {pos : Nat} {data : List UInt8} (block : data ≠ [])
    (stored : Stored enc view pos data w w') : Contiguous view (pos + data.length) w' := by
  have length := length_write 0 (view.label + pos) w.inode.lower
    (show data.map (view.cipher enc) ≠ [] by simpa using block)
  rw [← stored.lower, List.length_map] at length
  have page := Nat.div_mul_le_self (pos + data.length) pageCacheSize
  rw [Contiguous, stored.size]
  omega

/-- The next block of an appending handle goes behind the one that is stored. -/
theorem Stored.inPlace {file : FileInfo} {pos : Nat} {data : List UInt8} (block : data ≠ [])
    (stored : Stored enc file.view pos data w w') (inPlace : InPlace file pos w) :
    InPlace file (pos + data.length) w' := by
  intro append
  have atEnd := inPlace append
  rw [lowerOffset_eq] at atEnd
  rw [stored.lower, length_write _ _ _ (by simpa using block), List.length_map, atEnd,
    lowerOffset_eq]
  omega

/-- Two adjacent blocks are one. -/
theorem Stored.append {pos : Nat} {first second : List UInt8} {w'' : World}
    (stored : Stored enc view pos first w w')
    (next : Stored enc view (pos + first.length) second w' w'') :
    Stored enc view pos (first ++ second) w w'' where
  steady := stored.steady.trans next.steady
  lower := by
    have joined := write_write_adjacent 0 (view.label + pos) (first.map (view.cipher enc))
      (second.map (view.cipher enc)) w.inode.lower
    rw [List.length_map, Nat.add_assoc, ← stored.lower, ← List.map_append] at joined
    exact next.lower.trans joined
  size := next.size
  pages := next.pages
  others view' index' other :=
    (next.others view' index' other).trans (stored.others view' index' other)

end Pages

section Handles

variable {env : Env} {enc : Equiv.Perm UInt8} {onOpen onRelease : Nat → Nat → List UInt8 → Int}
  {proc : Nat} {file : FileInfo} {w w' : World}

theorem Served.steady (served : Served proc file w) (same : Steady w w') : Served proc file w' :=
  ⟨served.1, fun decrypt => same.connected (served.2 decrypt)⟩

/-- The pages of the other view are not filled. -/
theorem fillPage_page_of_view (env : Env) (proc : Nat) (file : FileInfo) (index : Nat) (w : World)
    {view : View} (other : view ≠ file.view) (index' : Nat) :
    (fillPage env proc file index w).2.page view index' = w.page view index' := by
  simp [fillPage, World.page, World.setPage, other]

variable (obliging : Obliging env) (answers : Answers env (cipherCb enc onOpen onRelease))

include obliging answers

/-- A handle reads the bytes of its view. -/
theorem teadfsReadLower_served (served : Served proc file w)
    {size : Nat} (data : Fin size → UInt8) (offset : Nat) (word : size < 2 ^ 32) :
    (teadfsReadLower env proc file data offset w).1 =
        (slice (file.view.label + offset) size w.inode.lower).length ∧
      (teadfsReadLower env proc file data offset w).2.1 =
        overlay data 0 ((slice (file.view.label + offset) size w.inode.lower).map
          (file.view.cipher enc).symm) := by
  by_cases decrypt : file.access = .decrypt
  · obtain ⟨rc, bytes⟩ := teadfsReadLower_decrypted obliging answers (served.2 decrypt) served.1
      decrypt data offset word fun _ _ => List.length_map _
    rw [view_of_decrypt decrypt, View.label, View.cipher, Nat.add_comm]
    exact ⟨rc, bytes⟩
  · rw [teadfsReadLower_raw obliging proc served.1 decrypt, view_of_raw decrypt, View.label,
      View.cipher, Nat.zero_add]
    exact ⟨rfl, by simp⟩

/-- A handle that may write stores the bytes of its view. -/
theorem teadfsWriteLower_served (served : Served proc file w)
    (writable : file.access ≠ .encrypt) (data : List UInt8) {offset : Nat}
    (inPlace : InPlace file offset w) (word : data.length < 2 ^ 32) :
    (teadfsWriteLower env proc file data offset w).1 = data.length ∧
      (teadfsWriteLower env proc file data offset w).2.inode =
        { w.inode with
          lower := write 0 (file.view.label + offset) (data.map (file.view.cipher enc))
            w.inode.lower } := by
  by_cases decrypt : file.access = .decrypt
  · obtain ⟨rc, stored⟩ := teadfsWriteLower_decrypted obliging answers (served.2 decrypt) served.1
      decrypt data offset word fun _ _ => List.length_map _
    rw [lowerPosition_of_inPlace inPlace, lowerOffset_eq] at stored
    rw [view_of_decrypt decrypt] at stored ⊢
    exact ⟨rc, stored⟩
  · obtain ⟨rc, stored⟩ := teadfsWriteLower_raw obliging proc served.1 writable decrypt data offset w
    rw [lowerPosition_of_inPlace inPlace, lowerOffset_eq] at stored
    rw [view_of_raw decrypt] at stored ⊢
    exact ⟨rc, by simpa [View.cipher] using stored⟩

/-- A page that is filled matches, and so do all others that did. -/
theorem fillPage_matches (served : Served proc file w) (index : Nat) :
    (fillPage env proc file index w).1 = 0 ∧
      ((fillPage env proc file index w).2.page file.view index).uptodate = true ∧
      ∀ view, Matches enc view w → Matches enc view (fillPage env proc file index w).2 := by
  obtain ⟨count, bytes⟩ := teadfsReadLower_served obliging answers served
    (w.page file.view index).data (index * pageCacheSize) (by decide)
  have filled := fillPage_of_read env proc file index w count
  rw [bytes] at filled
  refine ⟨filled.1, by rw [filled.2], ?_⟩
  intro view kept index' i byte uptodate read
  rw [fresh_congr (fillPage_lower ..)] at read
  by_cases here : view = file.view ∧ index' = index
  · obtain ⟨rfl, rfl⟩ := here
    have inSlice : (slice (file.view.label + index' * pageCacheSize) pageCacheSize
        w.inode.lower)[i.val]? = w.inode.lower[file.view.label + (index' * pageCacheSize + i)]? := by
      rw [getElem?_slice, if_pos i.isLt, Nat.add_assoc]
    rw [filled.2]
    simp only [overlay, Nat.zero_le, if_true, Nat.sub_zero, List.getElem?_map, inSlice]
    rw [fresh] at read
    rw [read]
    rfl
  · have same : (fillPage env proc file index w).2.page view index' = w.page view index' := by
      by_cases other : view = file.view
      · exact fillPage_page_of_ne _ _ _ _ _ (fun index' => here ⟨other, index'⟩) view
      · exact fillPage_page_of_view env proc file index w other index'
    rw [same] at uptodate ⊢
    exact kept index' i byte uptodate read

/-! ## Writes -/

/-- The page of a write is read in. -/
theorem pageForWrite_prepared (served : Served proc file w) (kept : Matches enc file.view w)
    (index : Nat) :
    (pageForWrite env proc file index w).1 = 0 ∧
      Prepared enc file.view index w (pageForWrite env proc file index w).2 := by
  unfold pageForWrite
  split
  · rename_i uptodate
    exact ⟨rfl, ⟨rfl, rfl, rfl⟩, rfl, rfl, kept, uptodate, fun _ _ _ => rfl⟩
  · have ticked : Served proc file w.tick := served
    obtain ⟨rc, uptodate, pages⟩ := fillPage_matches obliging answers ticked index
    refine ⟨rc, fillPage_steady env proc file _ w.tick, fillPage_lower .., fillPage_iSize ..,
      pages file.view kept, uptodate, ?_⟩
    intro view index' other
    exact fillPage_page_of_view env proc file _ w.tick other index'

/-- `treadfs_write_begin` of a contiguous write makes the page Uptodate. If it zeroes the
page, there is nothing to read in it. -/
theorem treadfsWriteBegin_contiguous (dentry : Dentry) (served : Served proc file w)
    (kept : Matches enc file.view w) {pos : Nat} (contiguous : Contiguous file.view pos w) :
    (treadfsWriteBegin env proc dentry file pos w).1 = 0 ∧
      Prepared enc file.view (pos / pageCacheSize) w
        (treadfsWriteBegin env proc dentry file pos w).2 := by
  obtain ⟨rc, prepared⟩ :=
    pageForWrite_prepared obliging answers served kept (pos / pageCacheSize)
  obtain ⟨-, reached, blank⟩ := contiguous
  rw [treadfsWriteBegin_inside dentry (obliging.grabPage _) rc
    (by rw [prepared.iSize]; exact reached)]
  rw [← prepared.iSize] at blank
  generalize pageForWrite env proc file (pos / pageCacheSize) w = filled at prepared blank ⊢
  refine ⟨rfl, ?_⟩
  dsimp only
  split
  · rename_i zeroed
    refine ⟨prepared.steady, prepared.lower, prepared.iSize, ?_, ?_, ?_⟩
    · intro index i byte uptodate read
      by_cases here : index = pos / pageCacheSize
      · -- the page starts at or behind the last byte of the view
        exfalso
        have short := blank zeroed.1.symm
        have inside := (List.getElem?_eq_some_iff.mp (Option.map_eq_some_iff.mp read).choose_spec.1).1
        rw [World.setPage_lower, prepared.lower, here] at inside
        omega
      · rw [World.page_setPage_of_ne _ _ _ _ here] at uptodate ⊢
        exact prepared.pages index i byte uptodate read
    · rw [World.page_setPage_self]
      exact prepared.uptodate
    · intro view index other
      rw [← prepared.others view index other]
      simp [World.page, World.setPage, other]
  · exact prepared

/-- The copy and `teadfs_write_end` store the block that the page then holds, however much
more the caller had meant to copy. -/
theorem teadfsWriteEnd_stored (served : Served proc file w) (writable : file.access ≠ .encrypt)
    (kept : Matches enc file.view w) {pos : Nat} {data : List UInt8} (len : Nat)
    (inPlace : InPlace file pos w) (gap : GapClear enc file.view pos w)
    (bounded : pos % pageCacheSize + data.length ≤ pageCacheSize)
    (uptodate : (w.page file.view (pos / pageCacheSize)).uptodate = true) :
    (teadfsWriteEnd env proc file pos len data.length (copyToPage file pos data w)).1 =
        data.length ∧
      Stored enc file.view pos data w
        (teadfsWriteEnd env proc file pos len data.length (copyToPage file pos data w)).2 := by
  have copied : Served proc file (copyToPage file pos data w) := served
  have page : (copyToPage file pos data w).page file.view (pos / pageCacheSize) =
      ⟨true, overlay (w.page file.view (pos / pageCacheSize)).data (pos % pageCacheSize) data⟩ := by
    rw [copyToPage, World.page_setPage_self, uptodate]
  have block := window_copyToPage file bounded w
  rw [page] at block
  have copiedInPlace : InPlace file pos (copyToPage file pos data w) := inPlace
  obtain ⟨rc, stored⟩ := teadfsWriteLower_served obliging answers copied writable data
    copiedInPlace (by
    have : pageCacheSize < 2 ^ 32 := by decide
    omega)
  have steady := teadfsWriteLower_steady env proc file data pos (copyToPage file pos data w)
  simp only [teadfsWriteEnd, page, Bool.true_eq_false, and_false, if_false, block]
  generalize teadfsWriteLower env proc file data pos (copyToPage file pos data w) = r
    at rc stored steady ⊢
  rw [if_neg (by rw [rc]; omega)]
  have lower : r.2.inode.lower =
      write 0 (file.view.label + pos) (data.map (file.view.cipher enc)) w.inode.lower := by
    rw [stored]
    rfl
  have pages : ∀ view index, (r.2.setSize r.2.inode.lower.length).page view index =
      (copyToPage file pos data w).page view index := by
    intro view index
    rw [World.page, World.setSize_inode, stored]
    rfl
  refine ⟨rfl, steady, lower, rfl, ?_, ?_⟩
  · intro index i byte uptodate' read
    rw [pages] at uptodate' ⊢
    rw [fresh_congr (show (r.2.setSize r.2.inode.lower.length).inode.lower = r.2.inode.lower
      from rfl)] at read
    by_cases here : index = pos / pageCacheSize
    · subst here
      have split := Nat.div_add_mod' pos pageCacheSize
      rw [page]
      simp only [overlay]
      by_cases written : pos ≤ pos / pageCacheSize * pageCacheSize + i ∧
          pos / pageCacheSize * pageCacheSize + i < pos + data.length
      · have offset : pos / pageCacheSize * pageCacheSize + i - pos = i - pos % pageCacheSize := by
          omega
        rw [fresh_written lower written] at read
        rw [if_pos (by omega), ← offset, read]
        rfl
      · have old := kept.unwritten gap lower uptodate written read
        have beyond : pos % pageCacheSize ≤ i → data[i - pos % pageCacheSize]? = none := by
          intro behind
          exact List.getElem?_eq_none (by omega)
        split
        · rename_i behind
          rw [beyond behind]
          exact old
        · exact old
    · have away := outside_of_page_ne here bounded i
      rw [copyToPage, World.page_setPage_of_ne _ _ _ _ here] at uptodate' ⊢
      exact kept.unwritten gap lower uptodate' (by omega) read
  · intro view index other
    rw [pages, copyToPage]
    simp [World.page, World.setPage, other]

/-- One pass of `generic_perform_write` stores what its copy moved. -/
theorem writeChunk_stored (dentry : Dentry) (served : Served proc file w)
    (writable : file.access ≠ .encrypt) (kept : Matches enc file.view w) {pos copied : Nat}
    {data : List UInt8} (contiguous : Contiguous file.view pos w) (inPlace : InPlace file pos w)
    (bounded : pos % pageCacheSize + data.length ≤ pageCacheSize) (short : copied ≤ data.length) :
    (writeChunk env proc dentry file pos data copied w).1 = copied ∧
      Stored enc file.view pos (data.take copied) w
        (writeChunk env proc dentry file pos data copied w).2 := by
  have length : (data.take copied).length = copied := by
    rw [List.length_take]
    omega
  obtain ⟨rc, prepared⟩ :=
    treadfsWriteBegin_contiguous obliging answers dentry served kept contiguous
  simp only [writeChunk, rc, ne_eq, not_true, if_false]
  generalize treadfsWriteBegin env proc dentry file pos w = begun at prepared
  obtain ⟨count, stored⟩ := @teadfsWriteEnd_stored env enc onOpen onRelease proc file begun.2
    obliging answers (served.steady prepared.steady) writable prepared.pages pos (data.take copied)
    data.length (by rw [InPlace, prepared.lower]; exact inPlace)
    (.of_inside (by rw [prepared.lower]; exact contiguous.1)) (by omega) prepared.uptodate
  rw [length] at count stored
  refine ⟨count, prepared.steady.trans stored.steady, ?_, stored.size, stored.pages, ?_⟩
  · rw [stored.lower, prepared.lower]
  · intro view index other
    rw [stored.others view index other, prepared.others view index other]

/-- The passes store the whole block. -/
theorem genericPerformWrite_stored (dentry : Dentry) (served : Served proc file w)
    (writable : file.access ≠ .encrypt) (kept : Matches enc file.view w) {fuel pos : Nat}
    {data : List UInt8} (block : data ≠ []) (contiguous : Contiguous file.view pos w)
    (inPlace : InPlace file pos w) (enough : data.length ≤ fuel) :
    Stored enc file.view pos data w
      (genericPerformWrite env proc dentry file fuel pos data w).2 := by
  induction fuel generalizing pos data w with
  | zero => exact absurd (List.eq_nil_of_length_eq_zero (Nat.le_zero.mp enough)) block
  | succ fuel ih =>
      obtain ⟨some_taken, -, inPage, taken⟩ := @chunkLen_bounds pos data block
      generalize piece : chunkLen pos data = len at some_taken inPage taken
      have chunk : data.take len ≠ [] := List.ne_nil_of_length_pos (by rw [taken]; exact some_taken)
      obtain ⟨count, first⟩ := writeChunk_stored obliging answers dentry served writable kept
        contiguous inPlace (by rw [taken]; exact inPage) taken.ge
      rw [List.take_take, Nat.min_self] at first
      have going : ¬ (writeChunk env proc dentry file pos (data.take len) len w).1 < 0 := by
        rw [count]
        omega
      have empty : data.isEmpty = false := by simpa using block
      simp only [genericPerformWrite, empty, Bool.false_eq_true, if_false, piece, going]
      by_cases done : data.drop len = []
      · have all : data.take len = data := by
          have joined := List.take_append_drop len data
          rwa [done, List.append_nil] at joined
        rw [done]
        rw [all] at first ⊢
        cases fuel <;> exact first
      · have next := ih (served.steady first.steady) first.pages done
          (by have goes := first.contiguous chunk; rwa [taken] at goes)
          (by have goes := first.inPlace chunk inPlace; rwa [taken] at goes)
          (by rw [List.length_drop]; omega)
        have joined := first.append (by rw [taken]; exact next)
        rwa [List.take_append_drop] at joined

end Handles

end Teadfs
