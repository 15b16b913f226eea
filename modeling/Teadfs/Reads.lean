/-
# Teadfs.Reads — what reads of a view return

A read goes page by page and stops at the upper `i_size`. A page that is Uptodate is copied
as it is, another one is filled first. So for a client that answers, all that reads of a
view can return is given by `i_size` and by what is `shown` of each page: its bytes, or what
filling it would leave in its frame (`genericReadLoop_shown`). Two states of an inode are
told apart by no read of a view exactly if they agree in that (`sameReads_iff`).
-/
import Teadfs.PageFill

namespace Teadfs

set_option autoImplicit false

open Protocol FileContent Frame

/-- What reads of a view show of page `index`, for a client with the callbacks `cb`. -/
def shown (cb : DealCb) (view : View) (inode : InodeInfo) (index : Nat) : FrameBytes :=
  let page := inode.mapping view index
  if page.uptodate then page.data else overlay page.data 0 (refill cb view inode.lower index)

/-- The byte at a position, from the pages of a file. -/
def byteAt (pages : Nat → FrameBytes) (p : Nat) : UInt8 :=
  pages (p / pageCacheSize) ⟨p % pageCacheSize, Nat.mod_lt _ (by decide)⟩

/-- At most `count` bytes from `pos` on, up to `size`. -/
def readAt (pages : Nat → FrameBytes) (size pos count : Nat) : List UInt8 :=
  (List.range (min count (size - pos))).map fun k => byteAt pages (pos + k)

theorem byteAt_page (pages : Nat → FrameBytes) (index : Nat) (i : Fin pageCacheSize) :
    byteAt pages (index * pageCacheSize + i) = pages index i := by
  have page : (index * pageCacheSize + i) / pageCacheSize = index := by
    rw [Nat.mul_comm, Nat.mul_add_div (by decide), Nat.div_eq_of_lt i.isLt, Nat.add_zero]
  have rest : (index * pageCacheSize + i) % pageCacheSize = i := by
    rw [Nat.mul_comm, Nat.mul_add_mod, Nat.mod_eq_of_lt i.isLt]
  simp only [byteAt, page, rest]

/-- A range inside one page is a window of it. -/
theorem window_eq_map (pages : Nat → FrameBytes) {pos n : Nat}
    (inside : pos % pageCacheSize + n ≤ pageCacheSize) :
    window (pages (pos / pageCacheSize)) (pos % pageCacheSize) n =
      (List.range n).map fun k => byteAt pages (pos + k) := by
  apply List.ext_getElem?
  intro k
  rw [getElem?_window, List.getElem?_map]
  by_cases less : k < n
  · have room : pos % pageCacheSize + k < pageCacheSize := by omega
    rw [dif_pos ⟨less, room⟩, List.getElem?_range less]
    have here := byteAt_page pages (pos / pageCacheSize) ⟨pos % pageCacheSize + k, room⟩
    have place : pos / pageCacheSize * pageCacheSize + (pos % pageCacheSize + k) = pos + k := by
      have split := Nat.div_add_mod' pos pageCacheSize
      omega
    rw [place] at here
    exact congrArg some here.symm
  · rw [dif_neg fun both => less both.1, List.getElem?_eq_none (by simpa using less)]
    rfl

/-- A read is its first piece and the rest. -/
theorem readAt_append (pages : Nat → FrameBytes) {size pos count n : Nat}
    (piece : n ≤ min count (size - pos)) :
    ((List.range n).map fun k => byteAt pages (pos + k)) ++
      readAt pages size (pos + n) (count - n) = readAt pages size pos count := by
  have total : min count (size - pos) = n + min (count - n) (size - (pos + n)) := by omega
  rw [readAt, readAt, total, List.range_add, List.map_append, List.map_map]
  simp only [Function.comp_def, Nat.add_assoc]

section Loop

variable {env : Env} {cb : DealCb} (obliging : Obliging env) (answers : Answers env cb) {proc : Nat}
  {file : FileInfo} {w : World}

include obliging answers

/-- Filling a page that is not Uptodate shows what was shown, on every page. -/
theorem fillPage_shown (served : Served proc file w) {index : Nat}
    (missing : (w.page file.view index).uptodate = false) :
    (fillPage env proc file index w).1 = 0 ∧
      ((fillPage env proc file index w).2.page file.view index).data =
        shown cb file.view w.inode index ∧
      ∀ index', shown cb file.view (fillPage env proc file index w).2.inode index' =
        shown cb file.view w.inode index' := by
  rcases fillPage_delivered env proc file index w with ⟨none, -, -⟩ | ⟨bytes, some, -, rc, page⟩
  · rw [pageDelivered_answered obliging answers served] at none
    cases none
  rw [pageDelivered_answered obliging answers served, Option.some.injEq] at some
  subst some
  have before : shown cb file.view w.inode index = overlay (w.page file.view index).data 0
      (refill cb file.view w.inode.lower index) :=
    if_neg (by rw [show (w.inode.mapping file.view index).uptodate = false from missing]; decide)
  have filled : (fillPage env proc file index w).2.inode.mapping file.view index =
      ⟨true, overlay (w.page file.view index).data 0
        (refill cb file.view w.inode.lower index)⟩ := page
  refine ⟨rc, by rw [page, before], ?_⟩
  intro index'
  by_cases here : index' = index
  · subst here
    rw [before, shown, filled]
    rfl
  · have kept : (fillPage env proc file index w).2.inode.mapping file.view index' =
        w.inode.mapping file.view index' :=
      fillPage_page_of_ne env proc file index w here file.view
    rw [shown, shown, kept, fillPage_lower]

/-- The loop of a read returns what is shown, up to `i_size`. -/
theorem genericReadLoop_shown (served : Served proc file w) {fuel count : Nat} (pos : Nat)
    (enough : count ≤ fuel) :
    (genericReadLoop env proc file fuel pos count w).1 =
        (readAt (shown cb file.view w.inode) w.inode.iSize pos count).length ∧
      (genericReadLoop env proc file fuel pos count w).2.1 =
        readAt (shown cb file.view w.inode) w.inode.iSize pos count := by
  induction fuel generalizing pos count w with
  | zero =>
      have none : count = 0 := by omega
      subst none
      simp [genericReadLoop, readAt]
  | succ fuel ih =>
      obtain ⟨filled, fill⟩ : ∃ filled : Int × World,
          filled = if (w.page file.view (pos / pageCacheSize)).uptodate then (0, w)
            else teadfsReadpage env proc file (pos / pageCacheSize) w := ⟨_, rfl⟩
      have ready : filled.1 = 0 ∧ (filled.2.page file.view (pos / pageCacheSize)).data =
          shown cb file.view w.inode (pos / pageCacheSize) ∧
          shown cb file.view filled.2.inode = shown cb file.view w.inode ∧
          filled.2.inode.iSize = w.inode.iSize ∧ Served proc file filled.2 := by
        subst fill
        split
        · rename_i uptodate
          exact ⟨rfl, (if_pos uptodate).symm, rfl, rfl, served⟩
        · rename_i missing
          obtain ⟨rc, data, same⟩ := fillPage_shown obliging answers served
            (Bool.eq_false_iff.mpr missing)
          exact ⟨rc, data, funext same, fillPage_iSize ..,
            served.steady (fillPage_steady env proc file _ w)⟩
      obtain ⟨rc, data, same, size, still⟩ := ready
      simp only [genericReadLoop, ← fill]
      split
      · rename_i done
        have none : min count (w.inode.iSize - pos) = 0 := by omega
        simp [readAt, none]
      · rename_i more
        rw [if_neg (not_not.mpr rc), data]
        have some : 0 < pageCacheSize - pos % pageCacheSize := by
          have := Nat.mod_lt pos (show 0 < pageCacheSize by decide)
          omega
        generalize piece : min (min (pageCacheSize - pos % pageCacheSize) count)
          (w.inode.iSize - pos) = n
        obtain ⟨rest, bytes⟩ := ih still (pos + n) (show count - n ≤ fuel by omega)
        rw [same, size] at rest bytes
        have joined := readAt_append (shown cb file.view w.inode)
          (show n ≤ min count (w.inode.iSize - pos) by omega)
        rw [← window_eq_map (shown cb file.view w.inode) (by omega)] at joined
        simp only [rest, bytes, joined]
        refine ⟨?_, trivial⟩
        rw [if_neg (by omega), ← joined, List.length_append]
        push_cast
        rfl

end Loop

/-! ## What reads tell apart -/

/-- No read of the view, through whatever handle, at whatever time and with whatever state
of the channel, returns another result or other bytes in one state of the inode than in
the other. -/
def SameReads (cb : DealCb) (view : View) (inode inode' : InodeInfo) : Prop :=
  ∀ (env : Env) (proc : Nat) (file : FileInfo) (chan : Channel) (pos count : Nat),
    Obliging env → Answers env cb → file.view = view → Served proc file ⟨inode, chan⟩ →
    (teadfsAioReadUpdateAtime env proc file pos count ⟨inode', chan⟩).1 =
        (teadfsAioReadUpdateAtime env proc file pos count ⟨inode, chan⟩).1 ∧
      (teadfsAioReadUpdateAtime env proc file pos count ⟨inode', chan⟩).2.1 =
        (teadfsAioReadUpdateAtime env proc file pos count ⟨inode, chan⟩).2.1

/-- The two states show the same below one and the same `i_size`. -/
def SameShown (cb : DealCb) (view : View) (inode inode' : InodeInfo) : Prop :=
  inode'.iSize = inode.iSize ∧
    ∀ (index : Nat) (i : Fin pageCacheSize), index * pageCacheSize + i < inode.iSize →
      shown cb view inode' index i = shown cb view inode index i

/-- A handle of a view, for a process that is not the client. -/
def viewFile : View → FileInfo
  | .raw => exampleFile .init
  | .decrypted => exampleFile .decrypt

theorem view_viewFile (view : View) : (viewFile view).view = view := by
  cases view <;> rfl

/-- A channel with a client. -/
def openChannel : Channel := ⟨⟨1, 1, true⟩, 0, []⟩

theorem viewFile_served (view : View) (inode : InodeInfo) :
    Served 7 (viewFile view) ⟨inode, openChannel⟩ := by
  refine ⟨by cases view <;> rfl, fun _ => ⟨rfl, ?_⟩⟩
  show (7 : Nat) ≠ 1
  decide

section Reads

variable {cb : DealCb} {view : View} {inode inode' : InodeInfo}

/-- Where the pages agree below the size, reads do. -/
theorem readAt_congr {pages pages' : Nat → FrameBytes} {size : Nat}
    (same : ∀ (index : Nat) (i : Fin pageCacheSize), index * pageCacheSize + i < size →
      pages' index i = pages index i) (pos count : Nat) :
    readAt pages' size pos count = readAt pages size pos count := by
  apply List.map_congr_left
  intro k member
  rw [List.mem_range] at member
  apply same
  have split := Nat.div_add_mod' (pos + k) pageCacheSize
  dsimp only
  omega

theorem SameShown.reads (same : SameShown cb view inode inode') :
    SameReads cb view inode inode' := by
  rintro env proc file chan pos count obliging answers rfl served
  have served' : Served proc file ⟨inode', chan⟩ := served
  obtain ⟨rc, bytes⟩ := genericReadLoop_shown obliging answers served pos (Nat.le_refl count)
  obtain ⟨rc', bytes'⟩ := genericReadLoop_shown obliging answers served' pos (Nat.le_refl count)
  dsimp only at rc bytes rc' bytes'
  rw [same.1, readAt_congr same.2] at rc' bytes'
  simp only [teadfsAioReadUpdateAtime, genericFileAioRead]
  exact ⟨by rw [rc, rc'], bytes'.trans bytes.symm⟩

/-- A read of one byte below `i_size` returns what is shown there. -/
theorem SameReads.readAt (same : SameReads cb view inode inode') (pos count : Nat) :
    readAt (shown cb view inode') inode'.iSize pos count =
      readAt (shown cb view inode) inode.iSize pos count := by
  have obliging := clientEnv_obliging cb
  have answers := clientEnv_answers cb
  have viewed := view_viewFile view
  have bytes := (genericReadLoop_shown obliging answers (viewFile_served view inode) pos
    (Nat.le_refl count)).2
  have bytes' := (genericReadLoop_shown obliging answers (viewFile_served view inode') pos
    (Nat.le_refl count)).2
  have read := (same _ 7 (viewFile view) openChannel pos count obliging answers viewed
    (viewFile_served view inode)).2
  rw [viewed] at bytes bytes'
  exact bytes'.symm.trans (read.trans bytes)

/-- **What no read tells apart.** Reads of a view return the same in two states of an inode
exactly if these have the same `i_size` and show the same below it. -/
theorem sameReads_iff :
    SameReads cb view inode inode' ↔ SameShown cb view inode inode' := by
  refine ⟨?_, SameShown.reads⟩
  intro same
  have size : inode'.iSize = inode.iSize := by
    have length := congrArg List.length (same.readAt (min inode.iSize inode'.iSize) 1)
    simp only [Teadfs.readAt, List.length_map, List.length_range] at length
    omega
  refine ⟨size, ?_⟩
  intro index i inside
  have byte := same.readAt (index * pageCacheSize + i) 1
  have one : min 1 (inode.iSize - (index * pageCacheSize + i)) = 1 := by omega
  rw [size] at byte
  simp only [Teadfs.readAt, one, List.range_one, List.map_cons, List.map_nil, Nat.add_zero,
    List.cons.injEq, and_true, byteAt_page] at byte
  exact byte

end Reads

end Teadfs
