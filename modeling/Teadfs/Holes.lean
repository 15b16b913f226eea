/-
# Teadfs.Holes — writes behind the end of a file

A write that starts behind the last byte of a view leaves a hole, which is to be read as
zeros. Three mechanisms fill it: the lower file system, which fills the lower file up to the
block; the nested truncate of `treadfs_write_begin`, which writes zeros up to the page of the
write if that starts beyond `i_size`; and its `zero_user`, if the page then starts at `i_size`.
None of them clears the rest of a page that is already there or that was read in short, and a
zero of the lower file is read through the cipher in the decrypted view.

`HoleClear` says where that does no harm, from the state before the write. The writes before it
may be of either view: one of the other view must not go under a page that stays cached
(`CacheOp.ClearIn`). Then every byte of the hole is a zero, from the cache and afresh
(`holes_read_as_zeros`).
-/
import Teadfs.Coherence
import Teadfs.FailedWrites

namespace Teadfs

set_option autoImplicit false

open Protocol FileContent Frame Relation

/-- The bytes a view has in the lower file. -/
def logical (enc : Equiv.Perm UInt8) (view : View) (inode : InodeInfo) : List UInt8 :=
  (inode.lower.drop view.label).map (view.cipher enc).symm

theorem length_logical (enc : Equiv.Perm UInt8) (view : View) (inode : InodeInfo) :
    (logical enc view inode).length = inode.lower.length - view.label := by
  rw [logical, List.length_map, List.length_drop]

theorem fresh_eq_logical (enc : Equiv.Perm UInt8) (view : View) (w : World) (p : Nat) :
    fresh enc view w p = (logical enc view w.inode)[p]? := by
  rw [fresh, logical, List.getElem?_map, List.getElem?_drop]

/-- The view's pages match, and `i_size` is the size of the lower file, label included. -/
structure Tidy (enc : Equiv.Perm UInt8) (view : View) (w : World) : Prop where
  size : w.inode.iSize = w.inode.lower.length
  labelled : view.label ≤ w.inode.lower.length
  pages : Matches enc view w

/-- A hole up to `pos` does no harm: where its zeros are read through the cipher, or written
through it, the cipher fixes zero; and every page that is cached, or is the page of the
write, has zeros in the hole, unless it is the page of the write and will be zeroed. -/
structure HoleClear (env : Env) (enc : Equiv.Perm UInt8) (proc : Nat) (dentry : Dentry)
    (view : View) (pos : Nat) (w : World) : Prop where
  fixed : (view = .decrypted ∨ w.inode.iSize < pos / pageCacheSize * pageCacheSize ∧
    growthLabel env proc dentry w ≠ 0) → enc 0 = 0
  cached : ∀ (index : Nat) (i : Fin pageCacheSize),
    (logical enc view w.inode).length ≤ index * pageCacheSize + i →
    index * pageCacheSize + i < pos →
    ((w.page view index).uptodate = true ∨ index = pos / pageCacheSize) →
    (index = pos / pageCacheSize ∧ w.inode.iSize ≤ index * pageCacheSize) ∨
      (w.page view index).data i = 0

section Begin

variable {env : Env} {enc : Equiv.Perm UInt8} {onOpen onRelease : Nat → Nat → List UInt8 → Int}
  {proc : Nat} {dentry : Dentry} {file : FileInfo} {pos : Nat} {w w' : World}

theorem HoleClear.cipher_zero {view : View} (clear : HoleClear env enc proc dentry view pos w) :
    (view.cipher enc).symm 0 = 0 := by
  cases view with
  | raw => rfl
  | decrypted =>
      rw [Equiv.symm_apply_eq]
      exact (clear.fixed (.inl rfl)).symm

/-- The page of a write is ready, behind a hole that is clear in its view: the lower file may
have been filled up with zeros, as far as into the page. -/
structure HoleBegun (enc : Equiv.Perm UInt8) (view : View) (pos n : Nat) (w w' : World) : Prop where
  steady : Steady w w'
  grow : w.inode.lower.length ≤ n
  reach : n ≤ max w.inode.lower.length (pos / pageCacheSize * pageCacheSize + encryptFileHeaderSize)
  lower : w'.inode.lower = resize 0 n w.inode.lower
  pages : Matches enc view w'
  uptodate : (w'.page view (pos / pageCacheSize)).uptodate = true
  gap : GapClear enc view pos w'

/-- A page that starts at `i_size` or beyond is zeroed, and the file is filled up to it: the
zeros of the lower file are under zeros only. -/
theorem HoleBegun.of_zeroed {view : View} (tidy : Tidy enc view w)
    (clear : HoleClear env enc proc dentry view pos w)
    (beyond : w.inode.iSize ≤ pos / pageCacheSize * pageCacheSize) (steady : Steady w w') {n : Nat}
    (grow : w.inode.lower.length ≤ n)
    (reach : n ≤ max w.inode.lower.length
      (pos / pageCacheSize * pageCacheSize + encryptFileHeaderSize))
    (lower : w'.inode.lower = resize 0 n w.inode.lower)
    (page : w'.page view (pos / pageCacheSize) = ⟨true, fun _ => 0⟩)
    (others : ∀ index, index ≠ pos / pageCacheSize → w'.page view index = w.page view index) :
    HoleBegun enc view pos n w w' := by
  have zero := clear.cipher_zero
  have start := Nat.div_mul_le_self pos pageCacheSize
  have header : encryptFileHeaderSize ≤ pageCacheSize := by decide
  have size := tidy.size
  have length := length_logical enc view w.inode
  refine ⟨steady, grow, reach, lower, ?_, by rw [page], ?_⟩
  · intro index i byte uptodate read
    rw [fresh, lower, getElem?_resize] at read
    by_cases here : index = pos / pageCacheSize
    · subst here
      have behind : w.inode.lower.length ≤
          view.label + (pos / pageCacheSize * pageCacheSize + i) := by omega
      rw [List.getElem?_eq_none behind] at read
      rw [page]
      split at read
      · rw [← Option.some.inj read]
        exact zero.symm
      · cases read
    · have away := @outside_of_page_ne index (pos / pageCacheSize * pageCacheSize) pageCacheSize
        (by rwa [Nat.mul_div_cancel _ (by decide)]) (by rw [Nat.mul_mod_left, Nat.zero_add]) i
      rw [others index here] at uptodate ⊢
      by_cases old : view.label + (index * pageCacheSize + i) < w.inode.lower.length
      · rw [if_pos (by omega), List.getElem?_eq_getElem old] at read
        refine tidy.pages index i byte uptodate ?_
        rw [fresh, List.getElem?_eq_getElem old]
        exact read
      · -- a zero that the truncate has put there, below the page of the write
        rw [List.getElem?_eq_none (Nat.not_lt.mp old)] at read
        split at read
        · rcases clear.cached index i (by omega) (by omega) (.inl uptodate) with ⟨same, -⟩ | clean
          · exact absurd same here
          · rw [clean, ← Option.some.inj read]
            exact zero.symm
        · cases read
  · intro index i uptodate behind before
    rw [lower, length_resize] at behind
    rw [zero]
    by_cases here : index = pos / pageCacheSize
    · rw [here, page]
    · rw [others index here] at uptodate ⊢
      rcases clear.cached index i (by omega) before (.inl uptodate) with ⟨same, -⟩ | clean
      · exact absurd same here
      · exact clean

/-- Behind the last byte of the view, reading in a page leaves what is in its frame. -/
theorem begunPage_behind (obliging : Obliging env)
    (answers : Answers env (cipherCb enc onOpen onRelease)) (served : Served proc file w)
    {index : Nat} {i : Fin pageCacheSize}
    (behind : (logical enc file.view w.inode).length ≤ index * pageCacheSize + i) :
    begunPage env proc file index w i = (w.page file.view index).data i := by
  have ticked : Served proc file w.tick := served
  unfold begunPage
  split
  · rfl
  · rw [pageDelivered_answered obliging answers ticked, Option.getD_some, refill_cipher]
    have none : (slice (index * pageCacheSize) pageCacheSize
        (logical enc file.view w.inode))[i.val]? = none := by
      rw [getElem?_slice, List.getElem?_eq_none behind]
      exact ite_self _
    simp only [overlay, Nat.zero_le, if_true, Nat.sub_zero]
    rw [show (w.tick.inode.lower.drop file.view.label).map (file.view.cipher enc).symm =
      logical enc file.view w.inode from rfl, none]
    rfl

section Cases

variable (obliging : Obliging env) (answers : Answers env (cipherCb enc onOpen onRelease))
  (served : Served proc file w) (tidy : Tidy enc file.view w)
  (clear : HoleClear env enc proc dentry file.view pos w)

include obliging answers served tidy clear

/-- The page of the write starts beyond `i_size`: the nested truncate writes zeros up to it. -/
theorem treadfsWriteBegin_hole_beyond (beyond : w.inode.iSize < pos / pageCacheSize * pageCacheSize)
    (begun : (treadfsWriteBegin env proc dentry file pos w).1 = 0) :
    HoleBegun enc file.view pos
      (pos / pageCacheSize * pageCacheSize + growthLabel env proc dentry w) w
      (treadfsWriteBegin env proc dentry file pos w).2 := by
  have size := tidy.size
  obtain ⟨rc, prepared⟩ :=
    pageForWrite_prepared obliging answers served tidy.pages (pos / pageCacheSize)
  have only := pageForWrite_begun rc
  have beyond' := beyond
  rw [← only.iSize] at beyond'
  rw [treadfsWriteBegin_beyond (obliging.grabPage w.chan.clock) rc beyond'] at begun ⊢
  dsimp only at begun ⊢
  split_ifs at begun ⊢ with failed
  · exact absurd begun failed
  have whole : WholeWrites env := fun t n => by rw [obliging.kernelWrite t]; nofun
  have fill : (if growthLabel env proc dentry w = 0 then 0 else enc 0) = 0 := by
    split
    · rfl
    · rename_i shifted
      exact clear.fixed (.inr ⟨beyond, shifted⟩)
  have stores : Stores env proc dentry (Steady w) (growthLabel env proc dentry w) 0 := by
    rw [← fill]
    exact stores_growthLabel whole answers
  have grown := teadfsTruncate_grown stores prepared.steady beyond' (not_not.mp failed)
  have pages : ∀ index, (teadfsTruncate env proc dentry (pos / pageCacheSize * pageCacheSize)
      (pageForWrite env proc file (pos / pageCacheSize) w).2).2.page file.view index =
      (pageForWrite env proc file (pos / pageCacheSize) w).2.page file.view index := by
    intro index
    rw [World.page, grown]
    rfl
  have shift : growthLabel env proc dentry w ≤ encryptFileHeaderSize := by
    unfold growthLabel
    split <;> omega
  refine .of_zeroed tidy clear beyond.le ?_ (by omega) (by omega) ?_ ?_ ?_
  · exact prepared.steady.trans (teadfsTruncate_steady env proc dentry _ _)
  · rw [World.setPage_lower, grown, only.iSize, only.lower, size]
    dsimp only
    rw [write_replicate_beyond 0 (by omega) (by omega)]
    congr 1
    omega
  · rw [World.page_setPage_self, pages, only.page]
  · intro index other
    rw [World.page_setPage_of_ne _ _ _ _ other, pages, only.others index other]

/-- The page of the write starts at `i_size`: it is zeroed. -/
theorem treadfsWriteBegin_hole_atEnd
    (atEnd : w.inode.iSize = pos / pageCacheSize * pageCacheSize) (later : pos ≠ 0) :
    HoleBegun enc file.view pos w.inode.lower.length w
      (treadfsWriteBegin env proc dentry file pos w).2 := by
  obtain ⟨rc, prepared⟩ :=
    pageForWrite_prepared obliging answers served tidy.pages (pos / pageCacheSize)
  have only := pageForWrite_begun rc
  have zeroed : (pageForWrite env proc file (pos / pageCacheSize) w).2.inode.iSize =
      pos / pageCacheSize * pageCacheSize ∧ pos ≠ 0 := ⟨only.iSize.trans atEnd, later⟩
  rw [treadfsWriteBegin_inside dentry (obliging.grabPage w.chan.clock) rc zeroed.1.ge]
  dsimp only
  rw [if_pos zeroed]
  refine .of_zeroed tidy clear atEnd.le ?_ (Nat.le_refl _) (Nat.le_max_left _ _) ?_ ?_ ?_
  · exact prepared.steady
  · rw [World.setPage_lower, only.lower, resize_self]
  · rw [World.page_setPage_self, only.page]
  · intro index other
    rw [World.page_setPage_of_ne _ _ _ _ other, only.others index other]

/-- The page of the write starts before `i_size`: it is as it was read in. -/
theorem treadfsWriteBegin_hole_inside
    (inside : pos / pageCacheSize * pageCacheSize < w.inode.iSize) :
    HoleBegun enc file.view pos w.inode.lower.length w
      (treadfsWriteBegin env proc dentry file pos w).2 := by
  have length := length_logical enc file.view w.inode
  obtain ⟨rc, prepared⟩ :=
    pageForWrite_prepared obliging answers served tidy.pages (pos / pageCacheSize)
  have only := pageForWrite_begun rc
  rw [treadfsWriteBegin_inside dentry (obliging.grabPage w.chan.clock) rc
    (by rw [only.iSize]; exact inside.le)]
  dsimp only
  rw [if_neg (by rw [only.iSize]; omega)]
  refine ⟨prepared.steady, Nat.le_refl _, Nat.le_max_left _ _, ?_, prepared.pages,
    prepared.uptodate, ?_⟩
  · rw [only.lower, resize_self]
  · intro index i uptodate behind before
    rw [only.lower] at behind
    have inHole : (logical enc file.view w.inode).length ≤ index * pageCacheSize + i := by omega
    rw [clear.cipher_zero]
    by_cases here : index = pos / pageCacheSize
    · subst here
      rw [only.page]
      dsimp only
      rw [begunPage_behind obliging answers served inHole]
      rcases clear.cached _ i inHole before (.inr rfl) with ⟨-, late⟩ | clean
      · exact absurd late (Nat.not_le.mpr inside)
      · exact clean
    · rw [only.others index here] at uptodate ⊢
      rcases clear.cached index i inHole before (.inl uptodate) with ⟨same, -⟩ | clean
      · exact absurd same here
      · exact clean

/-- `treadfs_write_begin` of a write behind a clear hole. -/
theorem treadfsWriteBegin_hole (hole : (logical enc file.view w.inode).length < pos)
    (begun : (treadfsWriteBegin env proc dentry file pos w).1 = 0) :
    ∃ n, HoleBegun enc file.view pos n w (treadfsWriteBegin env proc dentry file pos w).2 := by
  rcases Nat.lt_trichotomy w.inode.iSize (pos / pageCacheSize * pageCacheSize) with
    beyond | atEnd | inside
  · exact ⟨_, treadfsWriteBegin_hole_beyond obliging answers served tidy clear beyond begun⟩
  · exact ⟨_, treadfsWriteBegin_hole_atEnd obliging answers served tidy clear atEnd (by omega)⟩
  · exact ⟨_, treadfsWriteBegin_hole_inside obliging answers served tidy clear inside⟩

end Cases

end Begin

/-! ## Writes behind a hole -/

/-- A block has been written behind a hole: up to the end of the block the lower file is what
a write of it leaves. -/
structure Filled (enc : Equiv.Perm UInt8) (view : View) (pos : Nat) (data : List UInt8)
    (w w' : World) : Prop where
  steady : Steady w w'
  size : w'.inode.iSize = w'.inode.lower.length
  pages : Matches enc view w'
  bytes : w'.inode.lower.take (view.label + pos + data.length) =
    write 0 (view.label + pos) (data.map (view.cipher enc)) w.inode.lower

section Writes

variable {env : Env} {enc : Equiv.Perm UInt8} {onOpen onRelease : Nat → Nat → List UInt8 → Int}
  {proc : Nat} {dentry : Dentry} {file : FileInfo} {pos : Nat} {data : List UInt8} {w w' : World}
  (obliging : Obliging env) (answers : Answers env (cipherCb enc onOpen onRelease))
  (served : Served proc file w) (writable : file.access ≠ .encrypt)
  (plain : file.append = false) (tidy : Tidy enc file.view w)
  (hole : (logical enc file.view w.inode).length < pos)
  (clear : HoleClear env enc proc dentry file.view pos w) (block : data ≠ [])

include obliging answers served writable plain tidy hole clear block

/-- One pass over a block behind a clear hole. What the nested truncate has stored behind
the block is in the same page, so a block up to the end of its page leaves none of it. -/
theorem writeChunk_hole (bounded : pos % pageCacheSize + data.length ≤ pageCacheSize)
    (success : 0 ≤ (writeChunk env proc dentry file pos data data.length w).1) :
    (writeChunk env proc dentry file pos data data.length w).1 = data.length ∧
      Filled enc file.view pos data w (writeChunk env proc dentry file pos data data.length w).2 ∧
      (pos % pageCacheSize + data.length = pageCacheSize →
        (writeChunk env proc dentry file pos data data.length w).2.inode.lower =
          write 0 (file.view.label + pos) (data.map (file.view.cipher enc)) w.inode.lower) := by
  have length := length_logical enc file.view w.inode
  have begun : (treadfsWriteBegin env proc dentry file pos w).1 = 0 := by
    by_contra failed
    have nonpos := treadfsWriteBegin_nonpos env proc dentry file pos w
    simp only [writeChunk, if_pos failed] at success
    omega
  obtain ⟨n, ready⟩ := treadfsWriteBegin_hole obliging answers served tidy clear hole begun
  simp only [writeChunk, begun, ne_eq, not_true, if_false, List.take_length]
  generalize treadfsWriteBegin env proc dentry file pos w = b at ready ⊢
  obtain ⟨count, stored⟩ := teadfsWriteEnd_stored obliging answers (served.steady ready.steady)
    writable ready.pages data.length (.of_plain plain _ _) ready.gap bounded ready.uptodate
  have encrypted : data.map (file.view.cipher enc) ≠ [] := by simpa using block
  have bytes := take_write_resize 0 encrypted
    (show w.inode.lower.length ≤ file.view.label + pos by omega) ready.grow
  rw [← ready.lower, ← stored.lower, List.length_map] at bytes
  refine ⟨count, ⟨ready.steady.trans stored.steady, stored.size, stored.pages, bytes⟩, ?_⟩
  intro full
  have total := length_write 0 (file.view.label + pos) b.2.inode.lower encrypted
  rw [← stored.lower, ready.lower, length_resize, List.length_map] at total
  have split := Nat.div_add_mod' pos pageCacheSize
  have header : encryptFileHeaderSize ≤ pageCacheSize := by decide
  have reach := ready.reach
  rw [← bytes, List.take_of_length_le (by omega)]

/-- The passes over a block behind a clear hole. -/
theorem genericPerformWrite_hole {fuel : Nat} (enough : data.length ≤ fuel)
    (success : (genericPerformWrite env proc dentry file fuel pos data w).1 = data.length) :
    Filled enc file.view pos data w
      (genericPerformWrite env proc dentry file fuel pos data w).2 := by
  have length := length_logical enc file.view w.inode
  have empty : data.isEmpty = false := by simpa using block
  obtain ⟨some_taken, bound, inPage, taken⟩ := @chunkLen_bounds pos data block
  cases fuel with
  | zero => omega
  | succ fuel =>
      have whole : chunkLen pos data < data.length →
          pos % pageCacheSize + chunkLen pos data = pageCacheSize := by
        have := Nat.mod_lt pos (show 0 < pageCacheSize by decide)
        rw [chunkLen]
        omega
      generalize piece : chunkLen pos data = len at some_taken bound inPage taken whole
      simp only [genericPerformWrite, empty, Bool.false_eq_true, if_false, piece] at success ⊢
      by_cases failed : (writeChunk env proc dentry file pos (data.take len) len w).1 < 0
      · simp only [if_pos failed] at success
        omega
      simp only [if_neg failed]
      have first := writeChunk_hole obliging answers served writable plain tidy hole clear
        (List.ne_nil_of_length_pos (by rw [taken]; exact some_taken))
        (by rw [taken]; exact inPage) (by rw [taken]; exact Int.not_lt.mp failed)
      rw [taken] at first
      obtain ⟨-, filled, exactly⟩ := first
      by_cases done : data.drop len = []
      · have all : data.take len = data := by
          have joined := List.take_append_drop len data
          rwa [done, List.append_nil] at joined
        rw [done]
        rw [all] at filled ⊢
        cases fuel <;> exact filled
      · -- the first block fills its page, and the rest goes on where it ends
        have short : len < data.length := by
          by_contra long
          exact done (List.drop_eq_nil_of_le (Nat.not_lt.mp long))
        have lower := exactly (whole short)
        have encrypted : (data.take len).map (file.view.cipher enc) ≠ [] := by
          simpa using ⟨by omega, block⟩
        have total := length_write 0 (file.view.label + pos) w.inode.lower encrypted
        rw [← lower, List.length_map, taken] at total
        have contiguous : Contiguous file.view (pos + len)
            (writeChunk env proc dentry file pos (data.take len) len w).2 := by
          have page := Nat.div_mul_le_self (pos + len) pageCacheSize
          rw [Contiguous, filled.size]
          omega
        have rest := genericPerformWrite_stored obliging answers dentry
          (served.steady filled.steady) writable filled.pages done contiguous
          (.of_plain plain _ _) (show (data.drop len).length ≤ fuel by rw [List.length_drop]; omega)
        generalize genericPerformWrite env proc dentry file fuel (pos + len) (data.drop len)
          (writeChunk env proc dentry file pos (data.take len) len w).2 = r at rest ⊢
        have joined := write_write_adjacent 0 (file.view.label + pos)
          ((data.take len).map (file.view.cipher enc)) ((data.drop len).map (file.view.cipher enc))
          w.inode.lower
        rw [List.length_map, taken, ← List.map_append, List.take_append_drop, Nat.add_assoc,
          ← lower, ← rest.lower] at joined
        refine ⟨filled.steady.trans rest.steady, rest.size, rest.pages, ?_⟩
        have all := length_write 0 (file.view.label + pos) w.inode.lower
          (show data.map (file.view.cipher enc) ≠ [] by simpa using block)
        rw [← joined, List.length_map] at all
        rw [← joined, List.take_of_length_le (by omega)]

end Writes

/-! ## Reads -/

/-- Whatever handle of the view reads it from its start, as many bytes as `bytes` has, and
whatever the state of the channel: these are the bytes. -/
def ReadsAs (cb : DealCb) (view : View) (inode : InodeInfo) (bytes : List UInt8) : Prop :=
  ∀ (env : Env) (proc : Nat) (file : FileInfo) (chan : Channel),
    Obliging env → Answers env cb → file.view = view → Served proc file ⟨inode, chan⟩ →
    (teadfsAioReadUpdateAtime env proc file 0 bytes.length ⟨inode, chan⟩).2.1 = bytes

/-- The inode with nothing in its caches; the new frames hold `frames`. -/
def InodeInfo.dropped (inode : InodeInfo) (frames : View → Nat → FrameBytes) : InodeInfo :=
  { inode with mapping := fun view index => ⟨false, frames view index⟩ }

section Reads

variable {enc : Equiv.Perm UInt8} {onOpen onRelease : Nat → Nat → List UInt8 → Int} {view : View}
  {w : World}

/-- What is shown of a view whose pages match is what it has in the lower file. -/
theorem shown_logical (kept : Matches enc view w) {index : Nat} {i : Fin pageCacheSize}
    {byte : UInt8} (inside : (logical enc view w.inode)[index * pageCacheSize + i]? = some byte) :
    shown (cipherCb enc onOpen onRelease) view w.inode index i = byte := by
  unfold shown
  split
  · rename_i uptodate
    exact kept index i byte uptodate (by rw [fresh_eq_logical]; exact inside)
  · have there : (slice (index * pageCacheSize) pageCacheSize
        (logical enc view w.inode))[i.val]? = some byte := by
      rw [getElem?_slice, if_pos i.isLt, inside]
    rw [refill_cipher, ← logical]
    simp only [overlay, Nat.zero_le, if_true, Nat.sub_zero, there, Option.getD_some]

theorem Tidy.readsAs (tidy : Tidy enc view w) {bytes : List UInt8}
    (content : (logical enc view w.inode).take bytes.length = bytes) :
    ReadsAs (cipherCb enc onOpen onRelease) view w.inode bytes := by
  rintro env proc file chan obliging answers rfl served
  have length := congrArg List.length content
  rw [List.length_take, length_logical] at length
  have read := (genericReadLoop_shown obliging answers served 0 (Nat.le_refl bytes.length)).2
  refine read.trans ?_
  apply List.ext_getElem?
  intro p
  have size : w.inode.iSize = w.inode.lower.length := tidy.size
  have count : min bytes.length (w.inode.iSize - 0) = bytes.length := by omega
  dsimp only
  rw [readAt, List.getElem?_map, count]
  by_cases inside : p < bytes.length
  · rw [List.getElem?_range inside, List.getElem?_eq_getElem inside, Option.map_some, Nat.zero_add]
    have byte : (logical enc file.view w.inode)[p]? = some bytes[p] := by
      rw [← List.getElem?_eq_getElem inside, ← content,
        List.getElem?_take_of_lt (by simpa using inside)]
    have split := Nat.div_add_mod' p pageCacheSize
    refine congrArg some (shown_logical tidy.pages ?_)
    dsimp only
    rw [split]
    exact byte
  · rw [List.getElem?_eq_none (by simpa using inside), List.getElem?_eq_none (Nat.not_lt.mp inside)]
    rfl

/-- The same without the caches. -/
theorem Tidy.dropped (tidy : Tidy enc view w) (frames : View → Nat → FrameBytes) :
    Tidy enc view ⟨w.inode.dropped frames, w.chan⟩ := by
  refine ⟨tidy.size, tidy.labelled, ?_⟩
  intro index i byte uptodate
  cases uptodate

end Reads

/-! ## Runs -/

/-- A write through the view goes to its place, and if it leaves a hole, the hole is clear. A
raw write in between goes to its place behind no hole and under no page of `i_decrypt`; one
through `i_decrypt` drops the raw pages, and may be any. -/
def CacheOp.ClearIn (env : Env) (enc : Equiv.Perm UInt8) (dentry : Dentry) (view : View)
    (w : World) : CacheOp → Prop
  | .open _ _ _ => True
  | .release _ _ _ => True
  | .read _ _ _ _ => True
  | .write proc file pos data => data ≠ [] →
      let pos := writePos file pos w
      if file.view = view then
        InPlace file pos w ∧ ((logical enc view w.inode).length < pos →
          HoleClear env enc proc dentry view pos w)
      else file.view = .raw →
        InPlace file pos w ∧ pos ≤ w.inode.lower.length ∧
          Unmapped .decrypted pos (pos + data.length) w
  | .setSize _ _ _ => False

/-- One successful operation that leaves no hole but a clear one. -/
def ClearStep (env : Env) (enc : Equiv.Perm UInt8) (dentry : Dentry) (view : View) (w w' : World) :
    Prop :=
  ∃ op : CacheOp, (op.Succeeds env dentry w ∧ op.ClearIn env enc dentry view w) ∧
    w' = op.run env dentry w

section Runs

variable {env : Env} {enc : Equiv.Perm UInt8} {onOpen onRelease : Nat → Nat → List UInt8 → Int}
  {dentry : Dentry} {view : View} {w w' : World}

theorem Tidy.congr (tidy : Tidy enc view w) (same : SameFile w w') : Tidy enc view w' := by
  refine ⟨?_, ?_, same.matches tidy.pages⟩
  · rw [same.size, same.lower]
    exact tidy.size
  · rw [same.lower]
    exact tidy.labelled

theorem invalidateRemoteInode_tidy (env : Env) (tidy : Tidy enc view w) :
    Tidy enc view (invalidateRemoteInode env w) :=
  ⟨tidy.size, tidy.labelled, invalidateRemoteInode_matches env fun _ => tidy.pages⟩

/-- Wherever a write starts in a tidy view, it is contiguous. -/
theorem Tidy.contiguous (tidy : Tidy enc view w) {pos : Nat}
    (start : pos ≤ (logical enc view w.inode).length) : Contiguous view pos w := by
  have page := Nat.div_mul_le_self pos pageCacheSize
  have labelled := tidy.labelled
  rw [length_logical] at start
  rw [Contiguous, tidy.size]
  omega

section Write

variable {proc : Nat} {file : FileInfo} {pos : Nat} {data : List UInt8} (obliging : Obliging env)
  (answers : Answers env (cipherCb enc onOpen onRelease)) (tidy : Tidy enc file.view w)
  (succeeds : (CacheOp.write proc file pos data).Succeeds env dentry w) (block : data ≠ [])

include obliging answers tidy succeeds block

/-- A write that leaves no hole. -/
theorem teadfsAioWrite_tidy (inPlace : InPlace file (writePos file pos w) w)
    (start : writePos file pos w ≤ (logical enc file.view w.inode).length) :
    Tidy enc file.view (teadfsAioWrite env proc dentry file pos data w).2 := by
  have stored := genericPerformWrite_stored obliging answers dentry succeeds.1
    (teadfsAioWrite_writable block succeeds.2) tidy.pages block (tidy.contiguous start) inPlace
    (Nat.le_refl _)
  have length := length_write 0 (file.view.label + writePos file pos w) w.inode.lower
    (show data.map (file.view.cipher enc) ≠ [] by simpa using block)
  rw [← stored.lower] at length
  have written : Tidy enc file.view
      (genericPerformWrite env proc dentry file data.length (writePos file pos w) data w).2 :=
    ⟨stored.size, by omega, stored.pages⟩
  simp only [teadfsAioWrite]
  split
  · exact invalidateRemoteInode_tidy env written
  · exact written

/-- A write behind a clear hole. -/
theorem teadfsAioWrite_hole (inPlace : InPlace file (writePos file pos w) w)
    (hole : (logical enc file.view w.inode).length < writePos file pos w)
    (clear : HoleClear env enc proc dentry file.view (writePos file pos w) w) :
    Tidy enc file.view (teadfsAioWrite env proc dentry file pos data w).2 ∧
      (teadfsAioWrite env proc dentry file pos data w).2.inode.lower.take
          (file.view.label + writePos file pos w + data.length) =
        write 0 (file.view.label + writePos file pos w) (data.map (file.view.cipher enc))
          w.inode.lower := by
  -- at the lower end there is no hole
  have plain : file.append = false := by
    by_contra append
    have atEnd := inPlace (by simpa using append)
    rw [lowerOffset_eq] at atEnd
    rw [length_logical] at hole
    omega
  simp only [teadfsAioWrite] at succeeds ⊢
  have count := succeeds.2
  simp only [teadfsAioWrite] at count
  generalize writePos file pos w = pos at inPlace hole clear count ⊢
  have filled := genericPerformWrite_hole obliging answers succeeds.1
    (teadfsAioWrite_writable block succeeds.2) plain tidy hole clear block (Nat.le_refl _) count
  have length := length_write 0 (file.view.label + pos) w.inode.lower
    (show data.map (file.view.cipher enc) ≠ [] by simpa using block)
  rw [← filled.bytes, List.length_take, List.length_map] at length
  have written : Tidy enc file.view
      (genericPerformWrite env proc dentry file data.length pos data w).2 :=
    ⟨filled.size, by omega, filled.pages⟩
  split
  · exact ⟨invalidateRemoteInode_tidy env written, filled.bytes⟩
  · exact ⟨written, filled.bytes⟩

end Write

/-! ### Writes of the other view -/

/-- A pass that returns no error stores what its copy moved, and sets the size to the lower
one. -/
theorem writeChunk_size {proc : Nat} {file : FileInfo} {pos : Nat} {data : List UInt8}
    (success : 0 ≤ (writeChunk env proc dentry file pos data data.length w).1) :
    (writeChunk env proc dentry file pos data data.length w).1 = data.length ∧
      (writeChunk env proc dentry file pos data data.length w).2.inode.iSize =
        (writeChunk env proc dentry file pos data data.length w).2.inode.lower.length := by
  have nonpos := treadfsWriteBegin_nonpos env proc dentry file pos w
  simp only [writeChunk, teadfsWriteEnd, Nat.lt_irrefl, false_and, if_false] at success ⊢
  split_ifs at success ⊢ with stopped failed
  · omega
  · exact absurd success (Int.not_le.mpr failed)
  · exact ⟨rfl, rfl⟩

/-- A write that goes through to its end leaves the size of the lower file. -/
theorem genericPerformWrite_size {proc : Nat} {file : FileInfo} {fuel pos : Nat}
    {data : List UInt8} (block : data ≠ []) (enough : data.length ≤ fuel)
    (count : (genericPerformWrite env proc dentry file fuel pos data w).1 = data.length) :
    (genericPerformWrite env proc dentry file fuel pos data w).2.inode.iSize =
      (genericPerformWrite env proc dentry file fuel pos data w).2.inode.lower.length := by
  induction fuel generalizing pos data w with
  | zero => exact absurd (List.eq_nil_of_length_eq_zero (Nat.le_zero.mp enough)) block
  | succ fuel ih =>
      obtain ⟨some_taken, bound, -, taken⟩ := @chunkLen_bounds pos data block
      have empty : data.isEmpty = false := by simpa using block
      simp only [genericPerformWrite, empty, Bool.false_eq_true, if_false] at count ⊢
      generalize chunkLen pos data = len at some_taken bound taken count ⊢
      by_cases failed : (writeChunk env proc dentry file pos (data.take len) len w).1 < 0
      · simp only [if_pos failed] at count
        omega
      simp only [if_neg failed] at count ⊢
      obtain ⟨moved, size⟩ := @writeChunk_size env dentry w proc file pos (data.take len)
        (by rw [taken]; exact Int.not_lt.mp failed)
      rw [taken] at moved size
      rw [moved] at count
      by_cases done : data.drop len = []
      · rw [done]
        cases fuel <;> exact size
      · have left : 0 < (data.drop len).length := List.length_pos_iff.mpr done
        rw [List.length_drop] at left
        refine ih done (by rw [List.length_drop]; omega) ?_
        rw [List.length_drop]
        split_ifs at count <;> omega

/-- The view is tidy, and the raw pages match whichever it is. -/
structure TidyBoth (enc : Equiv.Perm UInt8) (view : View) (w : World) : Prop where
  tidy : Tidy enc view w
  raw : Matches enc .raw w

section Other

variable {proc : Nat} {file : FileInfo} {pos : Nat} {data : List UInt8} (obliging : Obliging env)
  (answers : Answers env (cipherCb enc onOpen onRelease))
  (succeeds : (CacheOp.write proc file pos data).Succeeds env dentry w) (block : data ≠ [])

include succeeds block

/-- Whatever is written through `i_decrypt`, the raw pages are dropped. -/
theorem teadfsAioWrite_dropsRaw (decrypt : file.access = .decrypt) :
    Tidy enc .raw (teadfsAioWrite env proc dentry file pos data w).2 := by
  have count := succeeds.2
  simp only [teadfsAioWrite] at count
  have size := genericPerformWrite_size block (Nat.le_refl _) count
  simp only [teadfsAioWrite, if_pos decrypt]
  exact ⟨size, Nat.zero_le _, invalidateRemoteInode_matches env fun other => (by cases other)⟩

include obliging answers

/-- A raw write under no page of `i_decrypt` leaves the decrypted view tidy. -/
theorem teadfsAioWrite_away (raw : file.access ≠ .decrypt) (kept : TidyBoth enc .decrypted w)
    (inPlace : InPlace file (writePos file pos w) w)
    (start : writePos file pos w ≤ w.inode.lower.length)
    (away : Unmapped .decrypted (writePos file pos w) (writePos file pos w + data.length) w) :
    TidyBoth enc .decrypted (teadfsAioWrite env proc dentry file pos data w).2 := by
  have view := view_of_raw raw
  have tidyRaw : Tidy enc file.view w :=
    ⟨kept.tidy.size, by rw [view]; exact Nat.zero_le _, by rw [view]; exact kept.raw⟩
  have inside : writePos file pos w ≤ (logical enc file.view w.inode).length := by
    rw [length_logical, view]
    exact start
  have stored := genericPerformWrite_stored obliging answers dentry succeeds.1
    (teadfsAioWrite_writable block succeeds.2) tidyRaw.pages block (tidyRaw.contiguous inside)
    inPlace (Nat.le_refl _)
  have length := length_write 0 (file.view.label + writePos file pos w) w.inode.lower
    (show data.map (file.view.cipher enc) ≠ [] by simpa using block)
  rw [← stored.lower] at length
  rw [view] at stored
  simp only [teadfsAioWrite, if_neg raw]
  refine ⟨⟨stored.size, kept.tidy.labelled.trans (by omega), ?_⟩, stored.pages⟩
  refine kept.tidy.pages.stored (fun index => stored.others .decrypted index (by decide))
    stored.lower ?_
  rw [View.label, Nat.zero_add, List.length_map, Nat.min_eq_right start]
  exact away

end Other

/-- One step that leaves no hole but a clear one keeps the view tidy. -/
theorem ClearStep.tidyBoth (obliging : Obliging env)
    (answers : Answers env (cipherCb enc onOpen onRelease))
    (step : ClearStep env enc dentry view w w') (kept : TidyBoth enc view w) :
    TidyBoth enc view w' := by
  obtain ⟨op, ⟨succeeds, clear⟩, rfl⟩ := step
  cases op with
  | «open» proc flags fileId =>
      have same := teadfsOpen_sameFile env proc dentry flags fileId w
      exact ⟨kept.tidy.congr same, same.matches kept.raw⟩
  | release proc file fileId =>
      have same := teadfsRelease_sameFile env proc dentry file fileId w
      exact ⟨kept.tidy.congr same, same.matches kept.raw⟩
  | read proc file pos count =>
      obtain ⟨lower, size, pages⟩ :=
        genericReadLoop_matches obliging answers succeeds count pos count
      have same : (CacheOp.run env dentry (.read proc file pos count) w) =
        (genericReadLoop env proc file count pos count w).2.2 := rfl
      rw [same]
      exact ⟨⟨by rw [size, lower]; exact kept.tidy.size, by rw [lower]; exact kept.tidy.labelled,
        pages view kept.tidy.pages⟩, pages .raw kept.raw⟩
  | write proc file pos data =>
      by_cases block : data = []
      · subst block
        simp only [CacheOp.run, teadfsAioWrite, List.length_nil, genericPerformWrite]
        split
        · exact ⟨invalidateRemoteInode_tidy env kept.tidy,
            invalidateRemoteInode_matches env fun other => (by cases other)⟩
        · exact kept
      have clear := clear block
      simp only [CacheOp.run]
      by_cases own : file.view = view
      · subst own
        obtain ⟨inPlace, clear⟩ := (if_pos rfl).mp clear
        have tidy : Tidy enc file.view (teadfsAioWrite env proc dentry file pos data w).2 := by
          by_cases hole : (logical enc file.view w.inode).length < writePos file pos w
          · exact (teadfsAioWrite_hole obliging answers kept.tidy succeeds block inPlace hole
              (clear hole)).1
          · exact teadfsAioWrite_tidy obliging answers kept.tidy succeeds block inPlace
              (Nat.not_lt.mp hole)
        refine ⟨tidy, ?_⟩
        by_cases decrypt : file.access = .decrypt
        · exact (teadfsAioWrite_dropsRaw succeeds block decrypt).pages
        · rw [view_of_raw decrypt] at tidy
          exact tidy.pages
      · rw [if_neg own] at clear
        by_cases decrypt : file.access = .decrypt
        · have dropped : Tidy enc .raw (teadfsAioWrite env proc dentry file pos data w).2 :=
            teadfsAioWrite_dropsRaw succeeds block decrypt
          rw [view_of_decrypt decrypt] at own
          cases view with
          | raw => exact ⟨dropped, dropped.pages⟩
          | decrypted => exact absurd rfl own
        · obtain ⟨inPlace, start, away⟩ := clear (view_of_raw decrypt)
          rw [view_of_raw decrypt] at own
          cases view with
          | raw => exact absurd rfl own
          | decrypted =>
              exact teadfsAioWrite_away obliging answers succeeds block decrypt kept inPlace start
                away
  | setSize proc file n => exact clear.elim

theorem Uncached.matches (found : Uncached w) (view : View) : Matches enc view w := by
  intro index i byte uptodate
  rw [found.1 view index] at uptodate
  cases uptodate

theorem Uncached.tidyBoth (found : Uncached w) (labelled : view.label ≤ w.inode.lower.length) :
    TidyBoth enc view w :=
  ⟨⟨found.2, labelled, found.matches view⟩, found.matches .raw⟩

/-- What a view has after a write behind a clear hole. -/
theorem logical_hole (tidy : Tidy enc view w) (zero : (view.cipher enc).symm 0 = 0) {pos : Nat}
    {data : List UInt8} (block : data ≠ []) (hole : (logical enc view w.inode).length < pos)
    (bytes : w'.inode.lower.take (view.label + pos + data.length) =
      write 0 (view.label + pos) (data.map (view.cipher enc)) w.inode.lower) :
    (logical enc view w'.inode).take (pos + data.length) =
      logical enc view w.inode ++
        List.replicate (pos - (logical enc view w.inode).length) 0 ++ data := by
  have front : (w.inode.lower.take view.label).length = view.label := by
    rw [List.length_take]
    exact Nat.min_eq_left tidy.labelled
  have behind : (w'.inode.lower.drop view.label).take (pos + data.length) =
      write 0 pos (data.map (view.cipher enc)) (w.inode.lower.drop view.label) := by
    have pushed := write_append_left 0 pos (data.map (view.cipher enc))
      (w.inode.lower.take view.label) (w.inode.lower.drop view.label)
    rw [List.take_append_drop, front, ← bytes] at pushed
    have cut := congrArg (List.drop view.label) pushed
    rw [List.drop_take, List.drop_left' front, Nat.add_assoc, Nat.add_sub_cancel_left] at cut
    exact cut
  rw [← write_beyond 0 block hole.le, logical, ← List.map_take, behind, map_write, zero,
    List.map_map, ← logical]
  simp

end Runs

/-! ## One byte, a hole, one byte -/

/-- A file as lookup finds it; the frames it will be read into hold sevens. -/
def sevens (lower : List UInt8) : World :=
  ⟨(freshWorld lower).inode.dropped fun _ _ _ => 7, openChannel⟩

theorem sevens_uncached (lower : List UInt8) : Uncached (sevens lower) := ⟨fun _ _ => rfl, rfl⟩

end Teadfs
