/-
# Teadfs.RawView — an unlabelled file is its lower file

A file whose every verdict is `OFR_INIT` is written through as it is. `RawView` says that
the lower file is a reference content and the upper `i_size` its length, and each
successful operation applies to the reference what POSIX says it does: a write
overwrites, extends, and fills a gap with zeros; a size change cuts or fills.

A write far past the end first meets the nested truncate of `treadfs_write_begin`, which
fills the file up to the page of the write (`treadfsWriteBegin_raw`); the write itself
fills the rest of the gap, so the two together are one write (`write_resize`).
-/
import Teadfs.Lib.Simulation
import Teadfs.SizeChange

namespace Teadfs

set_option autoImplicit false

open Protocol FileContent Frame Relation

/-- Every open upcall comes back with the verdict `OFR_INIT`, or fails. -/
def InitVerdicts (env : Env) : Prop :=
  ∀ proc path fileId w, (teadfsRequestOpen env proc path fileId w).1 = OpenFileResult.init.code ∨
    (teadfsRequestOpen env proc path fileId w).1 < 0

/-- The raw view of the content `content`. -/
structure RawView (content : List UInt8) (w : World) : Prop where
  lower : w.inode.lower = content
  size : w.inode.iSize = content.length

/-- A write through a handle, or a size change, by a process. -/
inductive RawOp where
  | write (proc : Nat) (file : FileInfo) (pos : Nat) (data : List UInt8)
  | setSize (proc : Nat) (n : Nat) (byHandle : Bool)

namespace RawOp

/-- The operation on the file: its result and the state after it. -/
def run (env : Env) (dentry : Dentry) : RawOp → World → Int × World
  | .write proc file pos data, w => teadfsAioWrite env proc dentry file pos data w
  | .setSize proc n byHandle, w => teadfsSetattr env proc dentry (sizeChange n byHandle) w

/-- The operation succeeds; a write is made through an `OFR_INIT` handle. -/
def Succeeds (env : Env) (dentry : Dentry) (w : World) (op : RawOp) : Prop :=
  match op with
  | .write _ file _ data => file.access = .init ∧ (op.run env dentry w).1 = data.length
  | .setSize _ _ _ => (op.run env dentry w).1 = 0

/-- The operation on the content: with `O_APPEND`, a write goes to the end. -/
def apply : RawOp → List UInt8 → List UInt8
  | .write _ file pos data, content =>
      FileContent.write 0 (if file.append then content.length else pos) data content
  | .setSize _ n _, content => resize 0 n content

end RawOp

/-- A successful operation is a step on both levels. -/
theorem RawOp.Succeeds.step {env : Env} {dentry : Dentry} {w : World} {op : RawOp}
    (succeeds : op.Succeeds env dentry w) (content : List UInt8) :
    Simulation.Joint (fun s op => RawOp.Succeeds env dentry s.1 op)
      (fun op w => (RawOp.run env dentry op w).2) RawOp.apply (w, content)
      ((op.run env dentry w).2, op.apply content) :=
  ⟨op, succeeds, rfl⟩

section Raw

variable {env : Env} (whole : WholeWrites env) (verdicts : InitVerdicts env)
  {proc : Nat} {dentry : Dentry} {content : List UInt8} {w : World}

include whole verdicts

/-- Zeros are stored as they are, whoever grows the file. -/
theorem stores_init : Stores env proc dentry (fun _ => True) 0 0 where
  keep _ _ := trivial
  store := by
    intro w w' k offset ref _ _ _ success
    have raw : OpenFileResult.ofCode (teadfsRequestOpenPath env proc dentry w).1 ≠ .decrypt := by
      have code : (teadfsRequestOpenPath env proc dentry w).1 = OpenFileResult.init.code ∨
          (teadfsRequestOpenPath env proc dentry w).1 < 0 := by
        unfold teadfsRequestOpenPath
        split
        · exact .inr (show enomem < 0 by decide)
        · exact verdicts proc dentry.lowerPath 0 w.tick
      rcases code with init | failed
      · rw [init]
        decide
      · unfold OpenFileResult.ofCode
        split_ifs <;> first | omega | simp
    exact teadfsWriteLower_raw_stored whole success raw (.of_plain rfl offset w')

omit whole verdicts in
/-- Reading in the page of a write changes nothing that the view is about. -/
theorem pageForWrite_raw (env : Env) (proc : Nat) (file : FileInfo) (view : RawView content w)
    (index : Nat) :
    RawView content (pageForWrite env proc file index w).2 := by
  unfold pageForWrite
  split
  · exact ⟨view.lower, view.size⟩
  · exact ⟨by rw [fillPage_lower]; exact view.lower, by rw [fillPage_iSize]; exact view.size⟩

/-- `treadfs_write_begin` fills the content up to the page it prepares. -/
theorem treadfsWriteBegin_raw {file : FileInfo} {pos : Nat} (view : RawView content w)
    (success : (treadfsWriteBegin env proc dentry file pos w).1 = 0) :
    RawView (resize 0 (max content.length (pos / pageCacheSize * pageCacheSize)) content)
      (treadfsWriteBegin env proc dentry file pos w).2 := by
  have failed : ¬ enomem = 0 := by decide
  have ready := pageForWrite_raw env proc file view (pos / pageCacheSize)
  rcases treadfsWriteBegin_cases env proc dentry file pos w with
    noPage | ⟨notFilled, stopped⟩ | ⟨-, grown, grow, ⟨notGrown, stopped⟩ | ⟨rc, frame, done⟩⟩
  · rw [noPage] at success
    exact absurd success failed
  · rw [stopped] at success
    exact absurd success notFilled
  · rw [stopped] at success
    exact absurd success notGrown
  · rw [done]
    suffices grownView : RawView
        (resize 0 (max content.length (pos / pageCacheSize * pageCacheSize)) content) grown.2 from
      ⟨grownView.lower, grownView.size⟩
    rcases grow with ⟨hole, rfl⟩ | ⟨inside, rfl⟩
    · obtain ⟨lower, size⟩ :=
        teadfsTruncate_stored (stores_init whole verdicts) trivial hole rc
      rw [ready.size] at hole
      rw [Nat.max_eq_right hole.le]
      refine ⟨?_, by rw [size, length_resize]⟩
      rw [lower, ready.lower, ready.size, Nat.add_zero, write_replicate_end]
      congr 1
      omega
    · rw [ready.size] at inside
      rw [Nat.max_eq_left inside, resize_self]
      exact ready

/-- One page-bounded write, copied whole, writes its block. -/
theorem writeChunk_raw {file : FileInfo} (init : file.access = .init) {pos : Nat}
    {data : List UInt8} (block : data ≠ []) (atEnd : file.append = true → pos = content.length)
    (bounded : pos % pageCacheSize + data.length ≤ pageCacheSize) (view : RawView content w)
    (success : 0 ≤ (writeChunk env proc dentry file pos data data.length w).1) :
    (writeChunk env proc dentry file pos data data.length w).1 = data.length ∧
      RawView (write 0 pos data content)
        (writeChunk env proc dentry file pos data data.length w).2 := by
  have raw : file.access ≠ .decrypt := by
    rw [init]
    decide
  have begun : (treadfsWriteBegin env proc dentry file pos w).1 = 0 := by
    by_contra failed
    have nonpos := treadfsWriteBegin_nonpos env proc dentry file pos w
    simp only [writeChunk, if_pos failed] at success
    omega
  have ready := treadfsWriteBegin_raw whole verdicts view begun
  simp only [writeChunk, begun, ne_eq, not_true, if_false, List.take_length, teadfsWriteEnd,
    Nat.lt_irrefl, false_and, window_copyToPage file bounded] at success ⊢
  generalize treadfsWriteBegin env proc dentry file pos w = b at ready success ⊢
  split_ifs at success ⊢ with failed
  · exact absurd success (Int.not_le.mpr failed)
  · have page := Nat.div_mul_le_self pos pageCacheSize
    have lower : (copyToPage file pos data b.2).inode.lower = resize 0
        (max content.length (pos / pageCacheSize * pageCacheSize)) content := ready.lower
    have inPlace : InPlace file pos (copyToPage file pos data b.2) := by
      intro append
      rw [lower, length_resize, lowerOffset, if_neg raw, atEnd append]
      rw [atEnd append] at page
      exact Nat.max_eq_left page
    have stored := teadfsWriteLower_raw_stored whole (Int.not_lt.mp failed) raw inPlace
    have written : write 0 pos data (copyToPage file pos data b.2).inode.lower =
        write 0 pos data content := by
      rw [lower, write_resize 0 block (by omega) (by omega)]
    refine ⟨rfl, ?_, ?_⟩
    · rw [World.setSize_inode, stored]
      exact written
    · rw [World.setSize_inode, stored]
      exact congrArg List.length written

/-- The passes of `generic_perform_write` write their blocks one behind the other. -/
theorem genericPerformWrite_raw {file : FileInfo} (init : file.access = .init) {fuel pos : Nat}
    {data : List UInt8} (enough : data.length ≤ fuel)
    (atEnd : file.append = true → pos = content.length) (view : RawView content w)
    (success : (genericPerformWrite env proc dentry file fuel pos data w).1 = data.length) :
    RawView (write 0 pos data content)
      (genericPerformWrite env proc dentry file fuel pos data w).2 := by
  induction fuel generalizing pos data content w with
  | zero =>
      have empty : data = [] := List.eq_nil_of_length_eq_zero (by omega)
      subst empty
      exact view
  | succ fuel ih =>
      cases empty : data.isEmpty with
      | true =>
          rw [List.isEmpty_iff] at empty
          subst empty
          exact view
      | false =>
          have block : data ≠ [] := by simpa using empty
          obtain ⟨some_taken, bound, inPage, taken⟩ := @chunkLen_bounds pos data block
          generalize piece : chunkLen pos data = len at some_taken bound inPage taken
          simp only [genericPerformWrite, empty, Bool.false_eq_true, if_false, piece] at success ⊢
          by_cases failed : (writeChunk env proc dentry file pos (data.take len) len w).1 < 0
          · simp only [if_pos failed] at success
            omega
          simp only [if_neg failed] at success ⊢
          have fits : pos % pageCacheSize + (data.take len).length ≤ pageCacheSize := by
            rw [taken]
            exact inPage
          obtain ⟨count, first⟩ := writeChunk_raw whole verdicts init
            (List.ne_nil_of_length_pos (by rw [taken]; exact some_taken)) atEnd fits view
            (by rw [taken]; exact Int.not_lt.mp failed)
          rw [taken] at count first
          -- an error of a later pass would leave the count short
          have rest : (genericPerformWrite env proc dentry file fuel (pos + len) (data.drop len)
              (writeChunk env proc dentry file pos (data.take len) len w).2).1 =
              (data.drop len).length := by
            rw [List.length_drop]
            split_ifs at success with short
            · have all : data.drop len = [] := List.eq_nil_of_length_eq_zero (by simp; omega)
              rw [all] at short
              cases fuel <;> simp [genericPerformWrite] at short
            · omega
          have joined := write_write_adjacent 0 pos (data.take len) (data.drop len) content
          rw [taken, List.take_append_drop] at joined
          rw [← joined]
          refine ih (by rw [List.length_drop]; omega) ?_ first rest
          intro append
          rw [atEnd append, write_end, List.length_append, taken]

/-- One successful operation applies itself to the content. -/
theorem rawOp_view (op : RawOp) (succeeds : op.Succeeds env dentry w) (view : RawView content w) :
    RawView (op.apply content) (op.run env dentry w).2 := by
  cases op with
  | write proc file pos data =>
      obtain ⟨init, count⟩ := succeeds
      have raw : file.access ≠ .decrypt := by
        rw [init]
        decide
      simp only [RawOp.run, RawOp.apply, teadfsAioWrite, raw, if_false] at count ⊢
      have start : writePos file pos w = if file.append then content.length else pos := by
        rw [writePos, view.size]
      rw [start] at count ⊢
      exact genericPerformWrite_raw whole verdicts init (Nat.le_refl _)
        (fun append => if_pos append) view count
  | setSize proc n byHandle =>
      have rc : (teadfsSetattr env proc dentry (sizeChange n byHandle) w).1 = 0 := succeeds
      obtain ⟨lower, size⟩ := teadfsSetattr_stored (stores_init whole verdicts) trivial rc
      simp only [RawOp.run, RawOp.apply]
      refine ⟨?_, by rw [size, length_resize]⟩
      rw [lower, sizeChanged, view.lower, view.size]
      split
      · rfl
      · rename_i grows
        rw [Nat.add_zero, write_replicate_end]
        congr 1
        omega

end Raw

/-- A connected client that answers every open with `OFR_INIT` gives such verdicts; a
caller that is the client itself gets none. -/
theorem clientEnv_initVerdicts : InitVerdicts (clientEnv (xorCb .init)) := by
  intro proc path fileId w
  by_cases connected : Connected proc w
  · exact .inl (teadfsRequestOpen_answered (clientEnv_answers (xorCb .init)) connected rfl
      (by decide) (by decide))
  · refine .inr ?_
    rw [teadfsRequestOpen_silent connected]
    decide

end Teadfs
