/-
# Teadfs.Truncation — changing the size of a labelled file

A size change of a labelled file is asked for in logical bytes: the plaintext is cut or
filled with zeros, the label stays. `truncate_upper` compares the size it is asked for
with an `i_size` that counts the label. Cutting sets the size of the lower file to the
logical size, so the label is cut with it; growing starts at `i_size`, which is a
label's length behind the plaintext, and goes through the encrypting path, which adds
the label's length once more.

The zeros are written chunk by chunk, and a chunk of which the lower write moves only a part
counts as written. So the lower file is what it was, with an encrypted zero wherever one was
moved (`Extension.Moves`) and a plain one in the gaps (`Extension.before_patched`).
`LogicalSizeMet` is what is left.
-/
import Teadfs.SizeFailures

namespace Teadfs

set_option autoImplicit false

open Protocol FileContent

/-- The condition on a size change from `i_size` `s` to `n` of a file with plaintext
`plain`, where `moves` are the positions of the zeros that the lower writes move: the size is
the plaintext's and stays; or the file grows past the plaintext, with its last zero moved unless
the plaintext ends there, what zeros overwrite was zero, and a zero left in a gap behind the
plaintext is an encrypted zero. -/
def LogicalSizeMet (enc : Equiv.Perm UInt8) (plain : List UInt8) (moves : Nat → Prop) (s n : Nat) :
    Prop :=
  (n = s ∧ s = plain.length) ∨
    (s < n ∧ plain.length ≤ n ∧ (plain.length < n → moves (n - 1)) ∧
      (∀ i, plain.length ≤ i → i < n → ¬ moves i → enc 0 = 0) ∧
      ∀ i b, moves i → plain[i]? = some b → b = 0)

/-! ## The zeros that are moved -/

/-- A `teadfs_write` under the verdict `OFR_DECRYPT` that returns no error has stored what the
lower write moved of the client's block, a label further on. -/
theorem teadfsWrite_labelled {env : Env} {cb : DealCb} {proc : Nat} {dentry : Dentry} {w : World}
    (answers : Answers env cb) (preserves : ∀ o d, (cb.onWrite o d).length = d.length)
    (decrypt : writeVerdict env proc dentry w = .decrypt) {data : List UInt8} {offset : Nat}
    (word : data.length < 2 ^ 32) (passed : ¬ (teadfsWrite env proc dentry data offset w).1 < 0) :
    (teadfsWrite env proc dentry data offset w).2.inode.lower =
      write 0 (min w.inode.iSize offset + encryptFileHeaderSize)
        ((cb.onWrite (min w.inode.iSize offset) data).take
          ((writeTransfer env proc dentry w).amount data.length)) w.inode.lower := by
  rcases teadfsWrite_cases env proc dentry data offset w with
    ⟨errno, -, refused⟩ | ⟨ref, w', -, inode, chan, opened, written⟩
  · rw [refused] at passed
    exact absurd errno.property passed
  rw [show OpenFileResult.ofCode (teadfsRequestOpenPath env proc dentry w).1 =
    writeVerdict env proc dentry w from rfl, decrypt] at written
  rw [written] at passed ⊢
  dsimp only at passed ⊢
  split_ifs at passed ⊢ with negative
  · exact absurd negative passed
  obtain ⟨-, stored⟩ := teadfsWriteLower_stored (Int.not_lt.mp negative)
  have clock : w'.chan.clock = openTick env proc dentry w + 1 := congrArg Channel.clock chan
  have transfer : lowerTransfer env ⟨some ref, .decrypt, [], false⟩ w' =
      writeTransfer env proc dentry w := by
    rw [lowerTransfer, writeTransfer, clock, if_pos rfl, if_pos decrypt]
  have ticked : Connected proc w'.tick := opened.connected (connected_of_decrypt decrypt)
  obtain ⟨-, block⟩ := teadfsRequestWrite_answered answers ticked (min w.inode.iSize offset) data
    (preserves _ data).le word
  rw [lowerPosition_of_inPlace (.of_plain rfl _ _), lowerOffset, if_pos rfl, lowerBlock, if_pos rfl,
    block, transfer, preserves] at stored
  rw [World.setSize_inode, fput]
  dsimp only
  rw [stored, inode]

namespace Extension

/-- The zero at `j` of the file that grows is one that the lower write of its chunk moves. -/
def Moves (x : Extension) (j : Nat) : Prop :=
  x.entry.inode.iSize ≤ j ∧ j < x.iaSize ∧
    (j - x.entry.inode.iSize) % pageCacheSize <
      x.moved ((j - x.entry.inode.iSize) / pageCacheSize)

instance (x : Extension) (j : Nat) : Decidable (x.Moves j) :=
  inferInstanceAs (Decidable (_ ∧ _ ∧ _))

variable {x : Extension}

/-- The zeros moved by the first `k + 1` chunks are those of the first `k`, and the first
`moved k` of chunk `k`. -/
theorem moves_succ {k : Nat} (inside : k < chunks x.total) (j : Nat) :
    (x.Moves j ∧ j < x.entry.inode.iSize + (k + 1) * pageCacheSize) ↔
      (x.Moves j ∧ j < x.entry.inode.iSize + k * pageCacheSize) ∨
        x.entry.inode.iSize + k * pageCacheSize ≤ j ∧
          j < x.entry.inode.iSize + k * pageCacheSize + x.moved k := by
  have part : x.moved k ≤ chunkSize x.total k := Transfer.amount_le _ _
  have more := lt_chunks_iff.mp inside
  have total : x.total = x.iaSize - x.entry.inode.iSize := rfl
  rw [chunkSize] at part
  rw [Nat.succ_mul]
  by_cases early : j < x.entry.inode.iSize + k * pageCacheSize
  · constructor
    · rintro ⟨moves, -⟩
      exact .inl ⟨moves, early⟩
    · rintro (⟨moves, -⟩ | ⟨late, -⟩)
      · exact ⟨moves, by omega⟩
      · omega
  · by_cases here : j < x.entry.inode.iSize + (k * pageCacheSize + pageCacheSize)
    · -- the chunk of `j` is `k`
      have chunk : (j - x.entry.inode.iSize) / pageCacheSize = k :=
        Nat.div_eq_of_lt_le (by omega) (by rw [Nat.succ_mul]; omega)
      have split := Nat.div_add_mod' (j - x.entry.inode.iSize) pageCacheSize
      rw [chunk] at split
      simp only [Moves, chunk, early, and_false, false_or]
      omega
    · simp only [early, here, and_false, false_or, false_iff]
      omega

section Labelled

variable {enc : Equiv.Perm UInt8} {onOpen onRelease : Nat → Nat → List UInt8 → Int}
  (answers : Answers x.env (cipherCb enc onOpen onRelease))
  (verdict : onOpen 0 x.proc x.dentry.lowerPath = OpenFileResult.decrypt.code)
  (connected : Connected x.proc x.entry) (grows : x.entry.inode.iSize ≤ x.iaSize)

include answers verdict connected grows

/-- A chunk that passes stores what the lower write moves of its zeros, encrypted, a label behind
`i_size`. -/
theorem chunk_labelled {k : Nat} (inside : k < chunks x.total)
    (passed : ∀ j ≤ k, ¬ (x.chunk j (x.before j)).1 < 0) :
    (x.before (k + 1)).inode.lower =
      write 0 (encryptFileHeaderSize + (x.entry.inode.iSize + k * pageCacheSize))
        (List.replicate (x.moved k) (enc 0)) (x.before k).inode.lower := by
  have early : ∀ j < k, ¬ (x.chunk j (x.before j)).1 < 0 := fun j less => passed j less.le
  have size := before_iSize grows early
  have below := before_iSize_le grows early
  rw [Nat.min_eq_right (lt_chunks_iff.mp inside).le] at size
  have here : Connected x.proc (x.before k) := (x.before_steady k).connected connected
  have decrypt : writeVerdict x.env x.proc x.dentry (x.before k) = .decrypt :=
    teadfsRequestOpenPath_decrypt answers here verdict
  have position : min (x.before k).inode.iSize (x.iaSize + k * pageCacheSize) =
      x.entry.inode.iSize + k * pageCacheSize := by omega
  have page : chunkSize x.total k ≤ pageCacheSize := Nat.min_le_right _ _
  have paged : pageCacheSize < 2 ^ 32 := by decide
  have stored := teadfsWrite_labelled answers (fun _ _ => List.length_map _) decrypt
    (by rw [List.length_replicate]; omega) (passed k (Nat.le_refl k))
  have part : x.moved k ≤ chunkSize x.total k := Transfer.amount_le _ _
  have zeros : ((List.replicate (chunkSize x.total k) (0 : UInt8)).map enc).take
      ((writeTransfer x.env x.proc x.dentry (x.before k)).amount (chunkSize x.total k)) =
      List.replicate (x.moved k) (enc 0) := by
    rw [← moved, List.map_replicate, List.take_replicate, Nat.min_eq_left part]
  rw [position, List.length_replicate, Nat.add_comm _ encryptFileHeaderSize] at stored
  exact stored.trans (congrArg (fun block => write 0 _ block _) zeros)

/-- After `k` chunks the lower file is what it was, with an encrypted zero wherever one of them
moved it, and plain zeros in the gaps. The induction is on the chunks. -/
theorem before_patched {label old : List UInt8} (labelled : label.length = encryptFileHeaderSize)
    (lower : x.entry.inode.lower = label ++ old) {k : Nat} (inside : k ≤ chunks x.total)
    (passed : ∀ j < k, ¬ (x.chunk j (x.before j)).1 < 0) :
    ∃ new, (x.before k).inode.lower = label ++ new ∧
      Patched 0 (enc 0)
        (fun j => x.Moves j ∧ j < x.entry.inode.iSize + k * pageCacheSize) old new := by
  induction k with
  | zero =>
      have none : (fun j => x.Moves j ∧ j < x.entry.inode.iSize + 0 * pageCacheSize) =
          fun _ => False := by
        funext j
        simp only [Moves, eq_iff_iff, iff_false]
        omega
      rw [none]
      exact ⟨old, lower, .refl 0 (enc 0) old⟩
  | succ k ih =>
      obtain ⟨new, same, patched⟩ := ih (Nat.le_of_lt inside)
        fun j early => passed j (Nat.lt_succ_of_lt early)
      have next := chunk_labelled answers verdict connected grows inside
        fun j early => passed j (Nat.lt_succ_of_le early)
      rw [same, ← labelled, write_append_left] at next
      refine ⟨_, next, ?_⟩
      rw [show (fun j => x.Moves j ∧ j < x.entry.inode.iSize + (k + 1) * pageCacheSize) = _ from
        funext fun j => propext (moves_succ inside j)]
      exact patched.write (fun j moved => moved.2) (x.moved k)

/-- The loop that returns no error leaves the label, and the encryption of the plaintext
extended to its target, under `LogicalSizeMet`. -/
theorem loop_labelled_iff {label plain : List UInt8}
    (labelled : label.length = encryptFileHeaderSize)
    (lower : x.entry.inode.lower = label ++ plain.map enc) (success : 0 ≤ (x.loop x.total).1) :
    (x.loop x.total).2.inode.lower = label ++ (resize 0 x.iaSize plain).map enc ↔
      plain.length ≤ x.iaSize ∧ (plain.length < x.iaSize → x.Moves (x.iaSize - 1)) ∧
        (∀ i, plain.length ≤ i → i < x.iaSize → ¬ x.Moves i → enc 0 = 0) ∧
        ∀ i b, x.Moves i → plain[i]? = some b → b = 0 := by
  have passed := fun k inside => chunk_of_loop (chunks_le x.total) success (k := k) inside
  obtain ⟨new, same, patched⟩ := before_patched answers verdict connected grows labelled lower
    (Nat.le_refl _) passed
  have all : (fun j => x.Moves j ∧ j < x.entry.inode.iSize + chunks x.total * pageCacheSize) =
      x.Moves := by
    funext j
    have enough := total_le_chunks x.total
    have total : x.total = x.iaSize - x.entry.inode.iSize := rfl
    simp only [Moves, eq_iff_iff, and_iff_left_iff_imp]
    omega
  rw [all] at patched
  have whole := patched.eq_resize_iff (n := x.iaSize) fun j moves => moves.2.1
  rw [loop_passed passed (chunks_le x.total), same, List.append_cancel_left_eq, map_resize, whole,
    List.length_map]
  refine and_congr_right' (and_congr_right' (and_congr ?_ ?_))
  · exact forall_congr' fun i => by rw [eq_comm]
  · simp only [List.getElem?_map, Option.map_eq_some_iff]
    constructor
    · intro zeros i b moves there
      exact enc.injective (zeros i _ moves ⟨b, there, rfl⟩)
    · rintro zeros i _ moves ⟨b, there, rfl⟩
      rw [zeros i b moves there]

end Labelled

end Extension

/-! ## The size change -/

section Labelled

variable {env : Env} {enc : Equiv.Perm UInt8} {onOpen onRelease : Nat → Nat → List UInt8 → Int}
  {proc : Nat} {dentry : Dentry}

/-- The growth that `teadfs_setattr` makes of a file. -/
def growthTo (env : Env) (proc : Nat) (dentry : Dentry) (n : Nat) (w : World) : Extension :=
  extensionTo env proc dentry n w.tick

/-- A size change that grows the file, if it goes through, is the loop. -/
theorem teadfsSetattr_growth {n : Nat} {byHandle : Bool} {w : World} (grows : w.inode.iSize < n)
    (success : (teadfsSetattr env proc dentry (sizeChange n byHandle) w).1 = 0) :
    0 ≤ ((growthTo env proc dentry n w).loop (growthTo env proc dentry n w).total).1 ∧
      (teadfsSetattr env proc dentry (sizeChange n byHandle) w).2.inode =
        ((growthTo env proc dentry n w).loop (growthTo env proc dentry n w).total).2.inode := by
  have failed : enomem < 0 := by decide
  have larger : w.tick.inode.iSize < (sizeChange n byHandle).iaSize := grows
  rcases teadfsSetattr_cases env proc dentry n byHandle w with ⟨errno, refused⟩ | ran
  · rw [refused] at success
    exact absurd success errno.property.ne
  rw [ran] at success ⊢
  cases buffer : env.zalloc w.tick.chan.clock with
  | false =>
      have t : truncateUpper env proc dentry (sizeChange n byHandle) (sizeChange n byHandle)
          w.tick = (enomem, { sizeChange n byHandle with attrSize := false }, w.tick.tick) := by
        simp only [truncateUpper, zalloc, if_neg larger.ne', if_pos larger, buffer, if_true]
      rw [t] at success
      simp only [failed, if_true] at success
      exact absurd success failed.ne
  | true =>
      rw [truncateUpper_loop (sizeChange n byHandle) larger buffer] at success ⊢
      dsimp only at success ⊢
      split_ifs at success ⊢ with negative
      · exact absurd success negative.ne
      · exact ⟨Int.not_lt.mp negative, notifyChange_inode env rfl _⟩

/-- **When a size change keeps a labelled file.** A successful size change to `n` by a
process with the verdict `OFR_DECRYPT` leaves the label and the encryption of the
plaintext cut or extended to `n` if and only if `LogicalSizeMet`. For the `i_size` that
lookup and writes give a labelled file, that is: the file grows by more than a label,
the cipher fixes zero, and the last zero is moved by the lower write of its chunk. -/
theorem size_change_keeps_labelled_file_iff {label plain : List UInt8} {w : World} {n : Nat}
    {byHandle : Bool} (answers : Answers env (cipherCb enc onOpen onRelease))
    (verdict : onOpen 0 proc dentry.lowerPath = OpenFileResult.decrypt.code)
    (connected : Connected proc w) (labelled : label.length = encryptFileHeaderSize)
    (lower : w.inode.lower = label ++ plain.map enc)
    (success : (teadfsSetattr env proc dentry (sizeChange n byHandle) w).1 = 0) :
    ((teadfsSetattr env proc dentry (sizeChange n byHandle) w).2.inode.lower =
        label ++ (resize 0 n plain).map enc ↔
      LogicalSizeMet enc plain (growthTo env proc dentry n w).Moves w.inode.iSize n) ∧
      (w.inode.iSize = w.inode.lower.length →
        (LogicalSizeMet enc plain (growthTo env proc dentry n w).Moves w.inode.iSize n ↔
          plain.length + encryptFileHeaderSize < n ∧ enc 0 = 0 ∧
            (growthTo env proc dentry n w).Moves (n - 1))) := by
  have header : 0 < encryptFileHeaderSize := by decide
  constructor
  · rcases Nat.lt_trichotomy w.inode.iSize n with grows | same | shrinks
    · obtain ⟨rc, inode⟩ := teadfsSetattr_growth grows success
      have exactly := Extension.loop_labelled_iff (x := growthTo env proc dentry n w) answers
        verdict connected grows.le labelled lower rc
      rw [inode]
      refine exactly.trans ⟨fun met => .inr ⟨grows, met⟩, ?_⟩
      rintro (⟨same, -⟩ | ⟨-, met⟩)
      · omega
      · exact met
    · rcases teadfsSetattr_notGrown same.ge success with ⟨-, kept⟩ | ⟨shrinks, -⟩
      · rw [kept, lower, List.append_cancel_left_eq]
        constructor
        · intro equal
          have length := congrArg List.length equal
          rw [List.length_map, List.length_map, length_resize] at length
          exact .inl ⟨same.symm, by omega⟩
        · rintro (⟨-, full⟩ | ⟨grows, -⟩)
          · rw [← same, full, resize_self]
          · omega
      · omega
    · -- the lower file has the logical size: the label's length is missing
      rcases teadfsSetattr_notGrown shrinks.le success with ⟨same, -⟩ | ⟨-, cut⟩
      · omega
      · rw [cut]
        constructor
        · intro equal
          have length := congrArg List.length equal
          simp only [length_resize, List.length_append, List.length_map, labelled] at length
          omega
        · rintro (⟨same, -⟩ | ⟨grows, -⟩) <;> omega
  · intro size
    rw [lower, List.length_append, List.length_map, labelled] at size
    constructor
    · rintro (⟨-, same⟩ | ⟨grows, -, last, gap, -⟩)
      · omega
      · refine ⟨by omega, gap plain.length (Nat.le_refl _) (by omega) ?_, last (by omega)⟩
        intro moves
        have start : w.inode.iSize ≤ plain.length := moves.1
        omega
    · rintro ⟨grows, fixed, last⟩
      refine .inr ⟨by omega, by omega, fun _ => last, fun _ _ _ _ => fixed, ?_⟩
      intro i b moves inside
      have start : w.inode.iSize ≤ i := moves.1
      have bound := (List.getElem?_eq_some_iff.mp inside).1
      omega

end Labelled

/-- A client whose cipher exchanges 1 and 2, and decrypts for everyone. -/
def swapCb : DealCb :=
  cipherCb (Equiv.swap 1 2) (fun _ _ _ => OpenFileResult.decrypt.code) fun _ _ _ => 1

/-- One byte behind a label, grown to 300 bytes by a client that fixes zero. -/
theorem swap_growth_keeps_file :
    (teadfsSetattr (clientEnv swapCb) 7 exampleDentry (sizeChange 300 false)
        (freshWorld (shippedLabel ++ [1].map (Equiv.swap 1 2)))).2.inode.lower =
      shippedLabel ++ (resize 0 300 [1]).map (Equiv.swap 1 2) := by
  have exact_iff := size_change_keeps_labelled_file_iff (clientEnv_answers swapCb) rfl
    (⟨rfl, by decide⟩ : Connected 7 (freshWorld _)) length_shippedLabel rfl
    (by decide +kernel : (teadfsSetattr (clientEnv swapCb) 7 exampleDentry (sizeChange 300 false)
      (freshWorld (shippedLabel ++ [1].map (Equiv.swap 1 2)))).1 = 0)
  exact exact_iff.1.mpr ((exact_iff.2 rfl).mpr (by decide +kernel))

/-- An `O_TRUNC` of three bytes behind the shipped label succeeds and cuts the label. -/
theorem truncation_to_zero_cuts_label :
    (teadfsSetattr (clientEnv (xorCb .decrypt)) 7 exampleDentry (sizeChange 0 false)
        (freshWorld (shippedLabel ++ [1, 2, 3].map xorCipher))).1 = 0 ∧
      (teadfsSetattr (clientEnv (xorCb .decrypt)) 7 exampleDentry (sizeChange 0 false)
        (freshWorld (shippedLabel ++ [1, 2, 3].map xorCipher))).2.inode.lower ≠
          shippedLabel ++ (resize 0 0 [1, 2, 3]).map xorCipher := by
  decide +kernel

end Teadfs
