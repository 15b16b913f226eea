/-
# Teadfs.SequentialReads — reading a labelled file from its start to its end

`teadfs_aio_read_update_atime` takes the label's 256 bytes off the result of every
call, while the file position advances by the bytes the kernel copied and the end of
file is where the upper `i_size` is, 256 bytes behind the plaintext. Over a sequence of
calls the bytes counted fall 256 short of the position with each call
(`length_delivered`), and the position never passes `i_size`: so only one call can be
made before the count is wrong, and a call that returns zero then delivers nothing.
-/
import Teadfs.DecryptedView

namespace Teadfs

set_option autoImplicit false

open Protocol FileContent Frame

/-! ## The calls -/

/-- The file position and the state before the `k`-th call, with buffers `sizes`. -/
def readState (env : Env) (proc : Nat) (file : FileInfo) (sizes : Nat → Nat) (w : World) :
    Nat → Nat × World
  | 0 => (0, w)
  | k + 1 =>
      let s := readState env proc file sizes w k
      let r := teadfsAioReadUpdateAtime env proc file s.1 (sizes k) s.2
      -- the kernel advances the position by what it copied
      (s.1 + r.2.1.length, r.2.2)

/-- What the `k`-th call returns, and the bytes it copies out. -/
def readCall (env : Env) (proc : Nat) (file : FileInfo) (sizes : Nat → Nat) (w : World) (k : Nat) :
    Int × List UInt8 :=
  let s := readState env proc file sizes w k
  let r := teadfsAioReadUpdateAtime env proc file s.1 (sizes k) s.2
  (r.1, r.2.1)

/-- What the first `k` calls deliver: of each call the bytes it says it returned. -/
def delivered (env : Env) (proc : Nat) (file : FileInfo) (sizes : Nat → Nat) (w : World) (k : Nat) :
    List UInt8 :=
  (List.range k).flatMap fun j =>
    (readCall env proc file sizes w j).2.take (readCall env proc file sizes w j).1.toNat

/-- Calls are made until one returns zero: the `k`-th is made if none before it did. -/
def Issued (env : Env) (proc : Nat) (file : FileInfo) (sizes : Nat → Nat) (w : World) (k : Nat) :
    Prop :=
  ∀ j < k, (readCall env proc file sizes w j).1 ≠ 0

/-- Every call made returns a count of its buffer, one of them returns zero, and up to
it the plaintext is delivered. -/
def ReadsDeliver (env : Env) (proc : Nat) (file : FileInfo) (sizes : Nat → Nat) (w : World)
    (plain : List UInt8) : Prop :=
  (∀ k, Issued env proc file sizes w k →
    0 ≤ (readCall env proc file sizes w k).1 ∧ (readCall env proc file sizes w k).1 ≤ sizes k) ∧
  ∃ k, Issued env proc file sizes w k ∧ (readCall env proc file sizes w k).1 = 0 ∧
    delivered env proc file sizes w (k + 1) = plain

/-! ## One call -/

section Reads

variable {env : Env} {enc : Equiv.Perm UInt8} {onOpen onRelease : Nat → Nat → List UInt8 → Int}
  {proc : Nat} {file : FileInfo} {label plain : List UInt8}

theorem DecryptedView.iSize {w : World} (view : DecryptedView enc label plain w)
    (labelled : label.length = encryptFileHeaderSize) :
    w.inode.iSize = plain.length + encryptFileHeaderSize := by
  rw [view.size, view.lower, List.length_append, List.length_map, labelled, Nat.add_comm]

/-- The kernel's read copies what is left of the count up to `i_size`. -/
theorem genericReadLoop_decrypted (obliging : Obliging env)
    (answers : Answers env (cipherCb enc onOpen onRelease)) (isOpen : file.lowerFile.isSome)
    (labelled : label.length = encryptFileHeaderSize) {fuel : Nat} (pos count : Nat)
    (enough : count ≤ fuel) {w : World} (connected : Connected proc w)
    (view : DecryptedView enc label plain w) :
    ∃ bytes w', genericReadLoop env proc file fuel pos count w = ((bytes.length : Int), bytes, w') ∧
      bytes.length = min count (plain.length + encryptFileHeaderSize - pos) ∧
      DecryptedView enc label plain w' ∧ Connected proc w' := by
  induction fuel generalizing pos count w with
  | zero => exact ⟨[], w, rfl, by simp; omega, view, connected⟩
  | succ fuel ih =>
      by_cases stop : count = 0 ∨ w.inode.iSize ≤ pos
      · refine ⟨[], w, by rw [genericReadLoop, if_pos stop]; rfl, ?_, view, connected⟩
        rw [view.iSize labelled] at stop
        simp only [List.length_nil]
        omega
      · obtain ⟨filled, fill⟩ : ∃ filled : Int × World,
            filled = if (w.page file.view (pos / pageCacheSize)).uptodate then (0, w)
              else teadfsReadpage env proc file (pos / pageCacheSize) w := ⟨_, rfl⟩
        have ready : filled.1 = 0 ∧ DecryptedView enc label plain filled.2 ∧
            Connected proc filled.2 := by
          subst fill
          split
          · exact ⟨rfl, view, connected⟩
          · obtain ⟨rc, kept⟩ := fillPage_view obliging answers isOpen labelled
              connected view (pos / pageCacheSize)
            exact ⟨rc, kept, (fillPage_steady env proc file _ w).connected connected⟩
        obtain ⟨rc, kept, still⟩ := ready
        have size := view.iSize labelled
        rw [size] at stop
        obtain ⟨n, piece⟩ : ∃ n, n = min (min (pageCacheSize - pos % pageCacheSize) count)
            (plain.length + encryptFileHeaderSize - pos) := ⟨_, rfl⟩
        have inPage := Nat.mod_lt pos (show 0 < pageCacheSize by decide)
        obtain ⟨rest, w', loop, length, view', connected'⟩ :=
          ih (pos + n) (count - n) (by omega) still kept
        refine ⟨window (filled.2.page file.view (pos / pageCacheSize)).data (pos % pageCacheSize) n
          ++ rest, w', ?_, ?_, view', connected'⟩
        · rw [genericReadLoop, if_neg (by rw [size]; exact stop)]
          simp only [← fill, rc, size, ← piece, loop]
          simp
        · rw [List.length_append, length_window, length]
          omega

/-! ## The sequence of calls -/

section Sequence

variable (obliging : Obliging env) (answers : Answers env (cipherCb enc onOpen onRelease))
  (isOpen : file.lowerFile.isSome) (decrypt : file.access = .decrypt)
  (labelled : label.length = encryptFileHeaderSize) (sizes : Nat → Nat) {w : World}
  (connected : Connected proc w) (start : DecryptedView enc label plain w)

include obliging answers isOpen decrypt labelled connected start

omit decrypt in
/-- The position stays below `i_size` and the view is kept, call after call. -/
theorem readState_spec (k : Nat) :
    (readState env proc file sizes w k).1 ≤ plain.length + encryptFileHeaderSize ∧
      DecryptedView enc label plain (readState env proc file sizes w k).2 ∧
      Connected proc (readState env proc file sizes w k).2 := by
  induction k with
  | zero => exact ⟨Nat.zero_le _, start, connected⟩
  | succ k ih =>
      obtain ⟨before, view, still⟩ := ih
      obtain ⟨bytes, w', read, length, view', still'⟩ := genericReadLoop_decrypted obliging answers
        isOpen labelled (readState env proc file sizes w k).1 (sizes k) (Nat.le_refl _)
        still view
      simp only [readState, teadfsAioReadUpdateAtime, genericFileAioRead, read]
      exact ⟨by omega, view', still'⟩

/-- Every call returns 256 less than what it copies. -/
theorem readCall_spec (k : Nat) :
    (readCall env proc file sizes w k).1 =
        (readCall env proc file sizes w k).2.length - encryptFileHeaderSize ∧
      (readCall env proc file sizes w k).2.length = min (sizes k)
        (plain.length + encryptFileHeaderSize - (readState env proc file sizes w k).1) ∧
      (readState env proc file sizes w (k + 1)).1 =
        (readState env proc file sizes w k).1 + (readCall env proc file sizes w k).2.length := by
  obtain ⟨-, view, still⟩ :=
    readState_spec obliging answers isOpen labelled sizes connected start k
  obtain ⟨bytes, w', read, length, -⟩ := genericReadLoop_decrypted obliging answers
    isOpen labelled (readState env proc file sizes w k).1 (sizes k) (Nat.le_refl _)
    still view
  simp only [readState, readCall, teadfsAioReadUpdateAtime, genericFileAioRead, read, decrypt,
    if_true]
  exact ⟨trivial, length, trivial⟩

/-- With each call that returns a count, what is delivered falls 256 bytes further
behind the position. -/
theorem length_delivered (k : Nat)
    (counts : ∀ j < k, 0 ≤ (readCall env proc file sizes w j).1) :
    (delivered env proc file sizes w k).length + encryptFileHeaderSize * k =
      (readState env proc file sizes w k).1 := by
  induction k with
  | zero => rfl
  | succ k ih =>
      have before := ih fun j less => counts j (Nat.lt_succ_of_lt less)
      obtain ⟨rc, -, position⟩ :=
        readCall_spec obliging answers isOpen decrypt labelled sizes connected start k
      have count := counts k (Nat.lt_succ_self k)
      rw [delivered] at before ⊢
      rw [List.range_succ, List.flatMap_append, List.length_append, List.flatMap_singleton,
        List.length_take, position]
      rw [Nat.mul_succ]
      omega

/-- A sequence of calls that delivers the plaintext is one call on an empty one. -/
theorem readsDeliver_one_call (delivers : ReadsDeliver env proc file sizes w plain) :
    plain = [] ∧ encryptFileHeaderSize ≤ sizes 0 := by
  obtain ⟨ranges, k, issued, done, all⟩ := delivers
  have counts : ∀ j < k + 1, 0 ≤ (readCall env proc file sizes w j).1 := by
    intro j less
    exact (ranges j fun i earlier => issued i (by omega)).1
  have behind :=
    length_delivered obliging answers isOpen decrypt labelled sizes connected start (k + 1) counts
  obtain ⟨bound, -⟩ :=
    readState_spec obliging answers isOpen labelled sizes connected start (k + 1)
  rw [all] at behind
  have header : 0 < encryptFileHeaderSize := by decide
  cases k with
  | succ k =>
      -- two calls would put the position a label's length past `i_size`
      rw [Nat.mul_succ, Nat.mul_succ] at behind
      omega
  | zero =>
      obtain ⟨rc, length, position⟩ :=
        readCall_spec obliging answers isOpen decrypt labelled sizes connected start 0
      have zero : (readState env proc file sizes w 0).1 = 0 := rfl
      have empty : plain.length = 0 := by omega
      exact ⟨List.eq_nil_of_length_eq_zero empty, by omega⟩

/-- **Sequential reads deliver the plaintext only when there is none.** Reading a
labelled file from position 0 with buffers `sizes` delivers its plaintext if and only
if the plaintext is empty and the first buffer holds a label. -/
theorem sequential_reads_deliver_iff :
    ReadsDeliver env proc file sizes w plain ↔ plain = [] ∧ encryptFileHeaderSize ≤ sizes 0 := by
  constructor
  · exact readsDeliver_one_call obliging answers isOpen decrypt labelled sizes connected start
  · rintro ⟨rfl, large⟩
    obtain ⟨rc, length, position⟩ :=
      readCall_spec obliging answers isOpen decrypt labelled sizes connected start 0
    have zero : (readState env proc file sizes w 0).1 = 0 := rfl
    have done : (readCall env proc file sizes w 0).1 = 0 := by
      rw [zero] at length
      simp only [List.length_nil] at length
      omega
    refine ⟨?_, 0, fun j less => absurd less (Nat.not_lt_zero j), done, ?_⟩
    · intro k issued
      cases k with
      | zero => omega
      | succ k => exact absurd done (issued 0 (Nat.succ_pos k))
    · simp [delivered, done]

end Sequence

end Reads

/-- An empty labelled file, read with a buffer of one page. -/
theorem empty_file_delivers :
    ReadsDeliver (clientEnv (xorCb .decrypt)) 7 (exampleFile .decrypt) (fun _ => 4096)
      (freshWorld (shippedLabel ++ [].map xorCipher)) [] :=
  (sequential_reads_deliver_iff (clientEnv_obliging (xorCb .decrypt))
    (clientEnv_answers (xorCb .decrypt)) (rfl : (exampleFile .decrypt).lowerFile.isSome) rfl
    length_shippedLabel (fun _ => 4096) (⟨rfl, by decide⟩ : Connected 7 (freshWorld _))
    (freshWorld_view xorCipher shippedLabel [])).mpr ⟨rfl, by decide⟩

/-- Three bytes behind a label, read by pages: the second call returns -256. -/
theorem three_bytes_not_delivered :
    ¬ ReadsDeliver (clientEnv (xorCb .decrypt)) 7 (exampleFile .decrypt) (fun _ => 4096)
      (freshWorld (shippedLabel ++ [1, 2, 3].map xorCipher)) [1, 2, 3] := by
  intro delivers
  obtain ⟨empty, -⟩ := readsDeliver_one_call (clientEnv_obliging (xorCb .decrypt))
    (clientEnv_answers (xorCb .decrypt)) (rfl : (exampleFile .decrypt).lowerFile.isSome) rfl
    length_shippedLabel (fun _ => 4096) (⟨rfl, by decide⟩ : Connected 7 (freshWorld _))
    (freshWorld_view xorCipher shippedLabel [1, 2, 3]) delivers
  exact absurd empty (by decide)

end Teadfs
