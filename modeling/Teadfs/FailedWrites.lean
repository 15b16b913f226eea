/-
# Teadfs.FailedWrites — what a write that failed leaves to be read

Between `treadfs_write_begin` and `teadfs_write_end` the caller has copied its data into the
page. If `teadfs_write_end` returns an error, nothing has gone down to the lower file, and
nothing takes the data out of the page again: the page stays Uptodate, and every handle of
the view reads it. Nor does anything undo the extension that `treadfs_write_begin` makes of
a file that ends before the page. So a failed write is not seen exactly if the file did not
have to be extended, and the page, with the data in it, shows below `i_size` what was shown
there before (`failed_write_unseen_iff`).
-/
import Teadfs.Reads

namespace Teadfs

set_option autoImplicit false

open Protocol FileContent Frame

/-- The page of a write as `treadfs_write_begin` reads it in: as it is cached, or with what
is delivered over its frame. -/
def begunPage (env : Env) (proc : Nat) (file : FileInfo) (index : Nat) (w : World) : FrameBytes :=
  let page := w.page file.view index
  if page.uptodate then page.data
  else overlay page.data 0 ((pageDelivered env proc file index w.tick).getD [])

/-- One page of a view is `page`, and the other pages of it, the lower file and the size are
those of `w`. -/
structure OnlyPage (view : View) (index : Nat) (page : Page) (w w' : World) : Prop where
  lower : w'.inode.lower = w.inode.lower
  iSize : w'.inode.iSize = w.inode.iSize
  page : w'.page view index = page
  others : ∀ index', index' ≠ index → w'.page view index' = w.page view index'

section Begin

variable {env : Env} {proc : Nat} {dentry : Dentry} {file : FileInfo} {w w' : World}

theorem OnlyPage.setPage {view : View} {index : Nat} {page : Page}
    (only : OnlyPage view index page w w') (page' : Page) :
    OnlyPage view index page' w (w'.setPage view index page') where
  lower := only.lower
  iSize := only.iSize
  page := World.page_setPage_self ..
  others index' other := (World.page_setPage_of_ne _ _ _ _ other).trans (only.others index' other)

/-- A page that is ready for a write. -/
theorem pageForWrite_begun {index : Nat} (ready : (pageForWrite env proc file index w).1 = 0) :
    OnlyPage file.view index ⟨true, begunPage env proc file index w⟩ w
      (pageForWrite env proc file index w).2 := by
  unfold pageForWrite begunPage at *
  cases page : w.page file.view index with
  | mk uptodate data =>
      rw [page] at ready
      cases uptodate with
      | true =>
          refine ⟨rfl, rfl, ?_, fun _ _ => rfl⟩
          exact page
      | false =>
          simp only [Bool.false_eq_true, if_false] at ready ⊢
          rcases fillPage_delivered env proc file index w.tick with
            ⟨-, negative, -⟩ | ⟨bytes, brought, -, -, filled⟩
          · omega
          · refine ⟨fillPage_lower .., fillPage_iSize .., ?_, ?_⟩
            · rw [filled, brought, show w.tick.page file.view index = _ from page]
              rfl
            · intro index' other
              exact fillPage_page_of_ne env proc file index w.tick other file.view

/-- `treadfs_write_begin` of a page that does not start beyond `i_size`: it is the page as
it was read in, unless it starts at `i_size`. -/
theorem treadfsWriteBegin_begun {pos : Nat}
    (begun : (treadfsWriteBegin env proc dentry file pos w).1 = 0)
    (inside : pos / pageCacheSize * pageCacheSize ≤ w.inode.iSize) :
    ∃ data : FrameBytes,
      (pos / pageCacheSize * pageCacheSize < w.inode.iSize →
        data = begunPage env proc file (pos / pageCacheSize) w) ∧
      OnlyPage file.view (pos / pageCacheSize) ⟨true, data⟩ w
        (treadfsWriteBegin env proc dentry file pos w).2 := by
  have failed : enomem ≠ 0 := by decide
  cases grabbed : env.grabPage w.chan.clock with
  | false =>
      have noPage : treadfsWriteBegin env proc dentry file pos w = (enomem, w.tick) := by
        rw [treadfsWriteBegin_eq, grabbed]
        rfl
      rw [noPage] at begun
      exact absurd begun failed
  | true =>
      have ready : (pageForWrite env proc file (pos / pageCacheSize) w).1 = 0 := by
        by_contra notFilled
        rw [treadfsWriteBegin_eq, grabbed] at begun
        simp only [Bool.true_eq_false, if_false, ne_eq, notFilled, not_false_iff, if_true] at begun
      have only := pageForWrite_begun ready
      rw [treadfsWriteBegin_inside dentry grabbed ready (by rw [only.iSize]; exact inside)]
      dsimp only
      split
      · rename_i atEnd
        rw [only.iSize] at atEnd
        refine ⟨fun _ => 0, fun less => absurd atEnd.1 less.ne', ?_⟩
        rw [only.page]
        exact only.setPage _
      · exact ⟨_, fun _ => rfl, only⟩

/-- A page that starts beyond `i_size` makes `treadfs_write_begin` extend the file. -/
theorem treadfsWriteBegin_grown {pos : Nat}
    (begun : (treadfsWriteBegin env proc dentry file pos w).1 = 0)
    (beyond : w.inode.iSize < pos / pageCacheSize * pageCacheSize) :
    (treadfsWriteBegin env proc dentry file pos w).2.inode.iSize =
      pos / pageCacheSize * pageCacheSize := by
  have failed : enomem ≠ 0 := by decide
  rcases treadfsWriteBegin_cases env proc dentry file pos w with
    noPage | ⟨notFilled, stopped⟩ | ⟨ready, grown, grow, ⟨notGrown, stopped⟩ | ⟨went, frame, done⟩⟩
  · rw [noPage] at begun
    exact absurd begun failed
  · rw [stopped] at begun
    exact absurd begun notFilled
  · rw [stopped] at begun
    exact absurd begun notGrown
  · have only := pageForWrite_begun ready
    rw [only.iSize] at grow
    rcases grow with ⟨-, rfl⟩ | ⟨inside, -⟩
    · rw [done]
      exact teadfsTruncate_iSize (by rw [only.iSize]; exact beyond) went
    · omega

/-- `teadfs_write_end` that returns an error changes nothing of the inode. -/
theorem teadfsWriteEnd_failed {pos len copied : Nat}
    (failed : (teadfsWriteEnd env proc file pos len copied w).1 < 0) :
    (teadfsWriteEnd env proc file pos len copied w).2.inode = w.inode := by
  simp only [teadfsWriteEnd] at failed ⊢
  generalize (if copied < len ∧ (w.page file.view (pos / pageCacheSize)).uptodate = false then 0
    else copied) = moved at failed ⊢
  split_ifs at failed ⊢ with refused
  · exact teadfsWriteLower_failed refused
  · exact absurd failed (Int.not_lt.mpr (Int.natCast_nonneg _))

/-- A write that `teadfs_write_end` refused leaves the inode as the caller's copy left it. -/
theorem writeChunk_failed {pos copied : Nat} {data : List UInt8}
    (begun : (treadfsWriteBegin env proc dentry file pos w).1 = 0)
    (failed : (writeChunk env proc dentry file pos data copied w).1 < 0) :
    (writeChunk env proc dentry file pos data copied w).2.inode =
      (copyToPage file pos (data.take copied)
        (treadfsWriteBegin env proc dentry file pos w).2).inode := by
  simp only [writeChunk, if_neg (not_not.mpr begun)] at failed ⊢
  exact teadfsWriteEnd_failed failed

end Begin

/-! ## What is read afterwards -/

section Shown

variable {cb : DealCb} {view : View} {index : Nat} {page : Page} {w w' : World}

/-- A state that differs in one Uptodate page only is not told apart exactly if that page
shows below `i_size` what was shown there. -/
theorem OnlyPage.sameReads_iff (only : OnlyPage view index page w w')
    (uptodate : page.uptodate = true) :
    SameReads cb view w.inode w'.inode ↔
      ∀ i : Fin pageCacheSize, index * pageCacheSize + i < w.inode.iSize →
        page.data i = shown cb view w.inode index i := by
  have here : shown cb view w'.inode index = page.data := by
    rw [shown, show w'.inode.mapping view index = page from only.page]
    exact if_pos uptodate
  have elsewhere : ∀ index', index' ≠ index →
      shown cb view w'.inode index' = shown cb view w.inode index' := by
    intro index' other
    have kept : w'.inode.mapping view index' = w.inode.mapping view index' :=
      only.others index' other
    rw [shown, shown, kept, only.lower]
  rw [Teadfs.sameReads_iff]
  constructor
  · rintro ⟨-, same⟩ i inside
    rw [← same index i inside, here]
  · intro same
    refine ⟨only.iSize, ?_⟩
    intro index' i inside
    by_cases other : index' = index
    · subst other
      rw [here]
      exact same i inside
    · rw [elsewhere index' other]

end Shown

/-- **When a failed write is not seen.** Let `teadfs_write_end` return an error, whatever
refused the write: the access, the client or the lower file system. Then no later read of the
view, through any handle and with any client, returns other bytes than before, if and only
if the page did not start beyond `i_size`, and the data copied into the page as it was
cached or read in gives, below `i_size`, the bytes that were shown before. -/
theorem failed_write_unseen_iff (cb : DealCb) {env : Env} {proc : Nat} {dentry : Dentry}
    {file : FileInfo} {pos copied : Nat} {data : List UInt8} {w : World}
    (begun : (treadfsWriteBegin env proc dentry file pos w).1 = 0)
    (failed : (writeChunk env proc dentry file pos data copied w).1 < 0) :
    SameReads cb file.view w.inode (writeChunk env proc dentry file pos data copied w).2.inode ↔
      pos / pageCacheSize * pageCacheSize ≤ w.inode.iSize ∧
        ∀ i : Fin pageCacheSize, pos / pageCacheSize * pageCacheSize + i < w.inode.iSize →
          overlay (begunPage env proc file (pos / pageCacheSize) w) (pos % pageCacheSize)
              (data.take copied) i =
            shown cb file.view w.inode (pos / pageCacheSize) i := by
  rw [writeChunk_failed begun failed]
  by_cases inside : pos / pageCacheSize * pageCacheSize ≤ w.inode.iSize
  · obtain ⟨page, read, only⟩ := treadfsWriteBegin_begun begun inside
    have copied' := only.setPage ⟨true, overlay page (pos % pageCacheSize) (data.take copied)⟩
    have same : copyToPage file pos (data.take copied)
        (treadfsWriteBegin env proc dentry file pos w).2 =
        (treadfsWriteBegin env proc dentry file pos w).2.setPage file.view (pos / pageCacheSize)
          ⟨true, overlay page (pos % pageCacheSize) (data.take copied)⟩ := by
      rw [copyToPage, only.page]
    rw [same, copied'.sameReads_iff rfl]
    constructor
    · intro shows
      refine ⟨inside, ?_⟩
      intro i below
      rw [← shows i below, read (by omega)]
    · rintro ⟨-, shows⟩ i below
      rw [← shows i below, read (by omega)]
  · have grown := treadfsWriteBegin_grown begun (Nat.not_le.mp inside)
    rw [Teadfs.sameReads_iff]
    constructor
    · rintro ⟨size, -⟩
      have raised : (treadfsWriteBegin env proc dentry file pos w).2.inode.iSize =
        w.inode.iSize := size
      omega
    · rintro ⟨within, -⟩
      exact absurd within inside

/-! ## Handles that may not write -/

/-- A handle with the access `OFR_ENCRYPT` writes the byte that is there already: the write
is refused, and no read of the view tells. -/
theorem refused_rewrite_unseen :
    SameReads (xorCb .encrypt) .raw (freshWorld [1, 2, 3]).inode
      (writeChunk (clientEnv (xorCb .encrypt)) 7 exampleDentry (exampleFile .encrypt) 0 [1] 1
        (freshWorld [1, 2, 3])).2.inode := by
  have begun : (treadfsWriteBegin (clientEnv (xorCb .encrypt)) 7 exampleDentry
      (exampleFile .encrypt) 0 (freshWorld [1, 2, 3])).1 = 0 := by
    decide +kernel
  have failed : (writeChunk (clientEnv (xorCb .encrypt)) 7 exampleDentry (exampleFile .encrypt) 0
      [1] 1 (freshWorld [1, 2, 3])).1 < 0 := by
    decide +kernel
  have same : ∀ i : Fin 3, overlay (begunPage (clientEnv (xorCb .encrypt)) 7
      (exampleFile .encrypt) 0 (freshWorld [1, 2, 3])) 0 [1] (i.castLE (by decide)) =
      shown (xorCb .encrypt) .raw (freshWorld [1, 2, 3]).inode 0 (i.castLE (by decide)) := by
    decide +kernel
  refine (failed_write_unseen_iff (xorCb .encrypt) begun failed).mpr ⟨Nat.zero_le _, ?_⟩
  rintro ⟨i, _⟩ below
  have less : i < 3 := by
    simpa [freshWorld] using below
  exact same ⟨i, less⟩

/-- It writes another byte: the write is refused, and the next read of the view, through this
or any other handle of it, returns the refused byte. -/
theorem refused_write_seen :
    (writeChunk (clientEnv (xorCb .encrypt)) 7 exampleDentry (exampleFile .encrypt) 0 [9] 1
        (freshWorld [1, 2, 3])).1 = eio ∧
      (teadfsAioReadUpdateAtime (clientEnv (xorCb .encrypt)) 7 (exampleFile .init) 0 1
        (freshWorld [1, 2, 3])).2.1 = [1] ∧
      (teadfsAioReadUpdateAtime (clientEnv (xorCb .encrypt)) 7 (exampleFile .init) 0 1
        (writeChunk (clientEnv (xorCb .encrypt)) 7 exampleDentry (exampleFile .encrypt) 0 [9] 1
          (freshWorld [1, 2, 3])).2).2.1 = [9] ∧
      ¬ SameReads (xorCb .encrypt) .raw (freshWorld [1, 2, 3]).inode
        (writeChunk (clientEnv (xorCb .encrypt)) 7 exampleDentry (exampleFile .encrypt) 0 [9] 1
          (freshWorld [1, 2, 3])).2.inode := by
  refine ⟨by decide +kernel, by decide +kernel, by decide +kernel, ?_⟩
  intro same
  have byte := same.readAt 0 1
  revert byte
  decide +kernel

end Teadfs
