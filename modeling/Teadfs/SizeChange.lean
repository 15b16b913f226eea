/-
# Teadfs.SizeChange — what a successful size change stores

Growing a file is a loop of `teadfs_write` over pages of zeros. Each call asks the
client for a verdict afresh, and what the zeros become in the lower file depends on
it: `Stores shift z` says that under the verdicts of a process they arrive `shift`
bytes further on, as copies of `z`. The loop hands every page over at the target size
and relies on `teadfs_write` to move it back to the current `i_size`, so the pages are
adjacent and the loop is one write at the old `i_size` (`truncateLoop_stored`).

Nothing is assumed to succeed: the results are about the calls that did.
-/
import Teadfs.Client

namespace Teadfs

set_option autoImplicit false

open Protocol FileContent

/-- A lower write is complete or fails. -/
def WholeWrites (env : Env) : Prop := ∀ t n, env.kernelWrite t ≠ .short n

theorem clientEnv_wholeWrites (cb : DealCb) : WholeWrites (clientEnv cb) :=
  fun _ _ partway => by cases partway

/-! ## Stored blocks -/

section Stored

variable {env : Env} (whole : WholeWrites env) {proc : Nat} {file : FileInfo} {data : List UInt8}
  {offset : Nat} {w : World} (success : 0 ≤ (teadfsWriteLower env proc file data offset w).1)

include whole success

/-- A block that was stored was stored whole. -/
theorem teadfsWriteLower_whole :
    (teadfsWriteLower env proc file data offset w).2.inode =
      { w.inode with
        lower := write 0 (lowerPosition file offset w) (lowerBlock env proc file data offset w)
          w.inode.lower } := by
  obtain ⟨moved, stored⟩ := teadfsWriteLower_stored success
  have full : lowerTransfer env file w = .full := by
    cases answer : lowerTransfer env file w with
    | fails errno => exact absurd answer (moved errno)
    | short n => exact absurd answer (whole _ n)
    | full => rfl
  rw [stored, full, Transfer.amount, List.take_length]

theorem teadfsWriteLower_raw_stored (raw : file.access ≠ .decrypt)
    (inPlace : InPlace file offset w) :
    (teadfsWriteLower env proc file data offset w).2.inode =
      { w.inode with lower := write 0 offset data w.inode.lower } := by
  rw [teadfsWriteLower_whole whole success, lowerPosition_of_inPlace inPlace, lowerOffset,
    lowerBlock, if_neg raw, if_neg raw]

theorem teadfsWriteLower_decrypted_stored {cb : DealCb} (answers : Answers env cb)
    (decrypt : file.access = .decrypt) (inPlace : InPlace file offset w)
    (connected : Connected proc w) (word : data.length < 2 ^ 32)
    (preserves : ∀ o d, (cb.onWrite o d).length = d.length) :
    (teadfsWriteLower env proc file data offset w).2.inode =
      { w.inode with
        lower := write 0 (offset + encryptFileHeaderSize) (cb.onWrite offset data)
          w.inode.lower } := by
  have ticked : Connected proc w.tick := connected
  obtain ⟨-, block⟩ := teadfsRequestWrite_answered answers ticked offset data
    (preserves offset data).le word
  rw [teadfsWriteLower_whole whole success, lowerPosition_of_inPlace inPlace, lowerOffset,
    lowerBlock, if_pos decrypt, if_pos decrypt, block]

end Stored

/-- Under the verdicts of `proc` a block of zeros reaches the lower file `shift` bytes
behind its offset, as copies of `z`. `good` is what the verdicts rest on. -/
structure Stores (env : Env) (proc : Nat) (dentry : Dentry) (good : World → Prop) (shift : Nat)
    (z : UInt8) : Prop where
  keep : ∀ {w w'}, Steady w w' → good w → good w'
  store : ∀ {w w' : World} {k offset : Nat} {ref : Nat}, good w → Steady w w' →
    k ≤ pageCacheSize →
    0 ≤ (teadfsWriteLower env proc
      ⟨some ref, .ofCode (teadfsRequestOpenPath env proc dentry w).1, [], false⟩
      (List.replicate k 0) offset w').1 →
    (teadfsWriteLower env proc
      ⟨some ref, .ofCode (teadfsRequestOpenPath env proc dentry w).1, [], false⟩
      (List.replicate k 0) offset w').2.inode =
      { w'.inode with
        lower := write 0 (offset + shift) (List.replicate k z) w'.inode.lower }

/-- The lower file after a size change from `s` to `n`. -/
def sizeChanged (shift : Nat) (z : UInt8) (s n : Nat) (lower : List UInt8) : List UInt8 :=
  if n < s then resize 0 n lower else write 0 (s + shift) (List.replicate (n - s) z) lower

/-- A successful size change that does not grow the file does nothing, or cuts the lower file and
the inode's own pages. -/
theorem teadfsSetattr_notGrown {env : Env} {proc : Nat} {dentry : Dentry} {n : Nat}
    {byHandle : Bool} {w : World} (notGrown : n ≤ w.inode.iSize)
    (success : (teadfsSetattr env proc dentry (sizeChange n byHandle) w).1 = 0) :
    (n = w.inode.iSize ∧
        (teadfsSetattr env proc dentry (sizeChange n byHandle) w).2.inode = w.inode) ∨
      (n < w.inode.iSize ∧ (teadfsSetattr env proc dentry (sizeChange n byHandle) w).2.inode =
        { (truncateSetsize env n w.tick).inode with lower := resize 0 n w.inode.lower }) := by
  rcases teadfsSetattr_cases env proc dentry n byHandle w with ⟨errno, refused⟩ | ran
  · rw [refused] at success
    exact absurd success errno.property.ne
  rw [ran] at success ⊢
  dsimp only at success ⊢
  split_ifs at success ⊢ with failed
  · exact absurd success failed.ne
  rcases truncateUpper_cases env proc dentry (sizeChange n byHandle) (sizeChange n byHandle) w.tick
    with ⟨same, t⟩ | ⟨more, -, -⟩ | ⟨more, -⟩ | ⟨shrinks, t⟩
  · refine .inl ⟨same, ?_⟩
    rw [t]
    exact notifyChange_inode env rfl w.tick
  · exact absurd more notGrown.not_gt
  · exact absurd more notGrown.not_gt
  · refine .inr ⟨shrinks, ?_⟩
    rw [t] at success ⊢
    rcases notifyChange_cases env { sizeChange n byHandle with attrSize := true, iaSize := n }
      (truncateSetsize env n w.tick) with ⟨errno, refused⟩ | done
    · exact absurd ((congrArg Prod.fst refused).symm.trans success) errno.property.ne
    · exact (congrArg (fun r => r.2.inode) done).trans rfl

section Zeros

variable {env : Env} {proc : Nat} {dentry : Dentry} {good : World → Prop} {shift : Nat} {z : UInt8}
  (stores : Stores env proc dentry good shift z)

include stores

/-- A page of zeros handed over at or beyond `i_size` is appended there. -/
theorem teadfsWrite_stored {w : World} (holds : good w) {k offset : Nat} (page : k ≤ pageCacheSize)
    (beyond : w.inode.iSize ≤ offset)
    (success : 0 ≤ (teadfsWrite env proc dentry (List.replicate k 0) offset w).1) :
    (teadfsWrite env proc dentry (List.replicate k 0) offset w).1 = 0 ∧
      (teadfsWrite env proc dentry (List.replicate k 0) offset w).2.inode =
        { w.inode with
          lower := write 0 (w.inode.iSize + shift) (List.replicate k z) w.inode.lower
          iSize := w.inode.iSize + k } := by
  rcases teadfsWrite_cases env proc dentry (List.replicate k 0) offset w with
    ⟨errno, -, failed⟩ | ⟨ref, w', -, inode, -, opened, written⟩
  · rw [failed] at success
    exact absurd success (Int.not_le.mpr errno.property)
  · rw [written] at success ⊢
    simp only [Nat.min_eq_left beyond, List.length_replicate] at success ⊢
    split_ifs at success ⊢ with failed
    · exact absurd success (Int.not_le.mpr failed)
    · have stored := stores.store holds opened page (Int.not_lt.mp failed)
      refine ⟨rfl, ?_⟩
      simp only [World.setSize_inode, fput, stored, inode, LowerFiles.put_get]
      congr 1
      omega

/-- The loop appends all of its zeros at the `i_size` it starts with. -/
theorem truncateLoop_stored {iaSize total fuel truncatePos : Nat} {w : World} (holds : good w)
    (enough : total - truncatePos ≤ fuel)
    (left : w.inode.iSize + (total - truncatePos) = iaSize)
    (success : 0 ≤ (truncateLoop env proc dentry iaSize total fuel truncatePos w).1) :
    (truncateLoop env proc dentry iaSize total fuel truncatePos w).1 = 0 ∧
      (truncateLoop env proc dentry iaSize total fuel truncatePos w).2.inode =
        { w.inode with
          lower := write 0 (w.inode.iSize + shift) (List.replicate (total - truncatePos) z)
            w.inode.lower
          iSize := iaSize } := by
  induction fuel generalizing truncatePos w with
  | zero =>
      have none : total - truncatePos = 0 := by omega
      rw [none, Nat.add_zero] at left
      simp [truncateLoop, none, ← left]
  | succ fuel ih =>
      simp only [truncateLoop] at success ⊢
      split_ifs at success ⊢ with more failed
      · exact absurd success (Int.not_le.mpr failed)
      · -- one page appended, then the rest behind it
        have page : min (total - truncatePos) pageCacheSize ≤ pageCacheSize := Nat.min_le_right _ _
        obtain ⟨-, first⟩ := teadfsWrite_stored stores holds page
          (by omega : w.inode.iSize ≤ iaSize + truncatePos) (Int.not_lt.mp failed)
        have still := stores.keep (teadfsWrite_steady env proc dentry
          (List.replicate (min (total - truncatePos) pageCacheSize) 0) (iaSize + truncatePos) w)
          holds
        have paged : 0 < pageCacheSize := by decide
        obtain ⟨rc, rest⟩ := ih still (by omega) (by rw [first]; dsimp only; omega) success
        have joined := write_write_adjacent 0 (w.inode.iSize + shift)
          (List.replicate (min (total - truncatePos) pageCacheSize) z)
          (List.replicate (total - (truncatePos + pageCacheSize)) z) w.inode.lower
        have all : min (total - truncatePos) pageCacheSize +
            (total - (truncatePos + pageCacheSize)) = total - truncatePos := by omega
        rw [List.length_replicate, List.replicate_append_replicate, all,
          Nat.add_right_comm] at joined
        refine ⟨rc, ?_⟩
        rw [rest, first]
        dsimp only
        rw [joined]
      · have none : total - truncatePos = 0 := by omega
        rw [none, Nat.add_zero] at left
        simp [none, ← left]

/-- `truncate_upper` to a larger size appends zeros, and leaves nothing to the lower file
system. -/
theorem truncateUpper_grown {ia lowerIa : Iattr} {w : World} (holds : good w)
    (grows : w.inode.iSize < ia.iaSize)
    (success : 0 ≤ (truncateUpper env proc dentry ia lowerIa w).1) :
    ∃ w', truncateUpper env proc dentry ia lowerIa w =
        (0, { lowerIa with attrSize := false }, w') ∧
      w'.inode =
        { w.inode with
          lower := write 0 (w.inode.iSize + shift) (List.replicate (ia.iaSize - w.inode.iSize) z)
            w.inode.lower
          iSize := ia.iaSize } := by
  have failed : ¬ 0 ≤ enomem := by decide
  rcases truncateUpper_cases env proc dentry ia lowerIa w with
    ⟨same, -⟩ | ⟨-, -, t⟩ | ⟨-, t⟩ | ⟨shrinks, -⟩
  · omega
  · rw [t] at success
    exact absurd success failed
  · rw [t] at success ⊢
    have left : w.tick.inode.iSize + (ia.iaSize - w.inode.iSize - 0) = ia.iaSize := by
      rw [World.tick_inode]
      omega
    obtain ⟨rc, grown⟩ := truncateLoop_stored stores
      (stores.keep (⟨rfl, rfl, rfl⟩ : Steady w w.tick) holds) (Nat.sub_le _ _) left success
    exact ⟨_, by simp only [rc], grown⟩
  · omega

/-- What a successful size change does to the inode: nothing; zeros at `i_size`, and no
page touched; or a cut of the lower file and of the inode's own pages. -/
theorem teadfsSetattr_inode {n : Nat} {byHandle : Bool} {w : World} (holds : good w)
    (success : (teadfsSetattr env proc dentry (sizeChange n byHandle) w).1 = 0) :
    (n = w.inode.iSize ∧
        (teadfsSetattr env proc dentry (sizeChange n byHandle) w).2.inode = w.inode) ∨
      (w.inode.iSize < n ∧ (teadfsSetattr env proc dentry (sizeChange n byHandle) w).2.inode =
        { w.inode with
          lower := write 0 (w.inode.iSize + shift) (List.replicate (n - w.inode.iSize) z)
            w.inode.lower
          iSize := n }) ∨
      (n < w.inode.iSize ∧ (teadfsSetattr env proc dentry (sizeChange n byHandle) w).2.inode =
        { (truncateSetsize env n w.tick).inode with lower := resize 0 n w.inode.lower }) := by
  by_cases grows : w.inode.iSize < n
  · rcases teadfsSetattr_cases env proc dentry n byHandle w with ⟨errno, refused⟩ | ran
    · rw [refused] at success
      exact absurd success errno.property.ne
    rw [ran] at success ⊢
    dsimp only at success ⊢
    split_ifs at success ⊢ with failed
    · exact absurd success failed.ne
    have larger : w.tick.inode.iSize < (sizeChange n byHandle).iaSize := grows
    obtain ⟨w', t, grown⟩ := truncateUpper_grown stores
      (stores.keep (⟨rfl, rfl, rfl⟩ : Steady w w.tick) holds) larger (Int.not_lt.mp failed)
    refine .inr (.inl ⟨grows, ?_⟩)
    rw [t]
    exact (notifyChange_inode env rfl w').trans grown
  · rcases teadfsSetattr_notGrown (Nat.not_lt.mp grows) success with same | cut
    · exact .inl same
    · exact .inr (.inr cut)

/-- A size change that returns success, as far as the lower file and the size go. -/
theorem teadfsSetattr_stored {n : Nat} {byHandle : Bool} {w : World} (holds : good w)
    (success : (teadfsSetattr env proc dentry (sizeChange n byHandle) w).1 = 0) :
    (teadfsSetattr env proc dentry (sizeChange n byHandle) w).2.inode.lower =
        sizeChanged shift z w.inode.iSize n w.inode.lower ∧
      (teadfsSetattr env proc dentry (sizeChange n byHandle) w).2.inode.iSize = n := by
  rcases teadfsSetattr_inode stores holds success with
    ⟨rfl, same⟩ | ⟨grows, grown⟩ | ⟨shrinks, cut⟩
  · rw [same]
    exact ⟨by simp [sizeChanged], rfl⟩
  · rw [grown, sizeChanged, if_neg grows.not_gt]
    exact ⟨rfl, rfl⟩
  · rw [cut, sizeChanged, if_pos shrinks]
    exact ⟨rfl, rfl⟩

/-- What a successful `teadfs_truncate` to a larger size does to the inode. -/
theorem teadfsTruncate_grown {n : Nat} {w : World} (holds : good w) (grows : w.inode.iSize < n)
    (success : (teadfsTruncate env proc dentry n w).1 = 0) :
    (teadfsTruncate env proc dentry n w).2.inode =
      { w.inode with
        lower := write 0 (w.inode.iSize + shift) (List.replicate (n - w.inode.iSize) z)
          w.inode.lower
        iSize := n } := by
  have upper : 0 ≤ (truncateUpper env proc dentry ⟨true, n, false, false, false, false⟩
      ⟨false, 0, false, false, false, false⟩ w).1 := by
    by_contra failed
    simp only [teadfsTruncate] at success
    rw [if_neg (by omega)] at success
    exact failed success.ge
  obtain ⟨w', t, grown⟩ := truncateUpper_grown stores holds grows upper
  simp only [teadfsTruncate, t, Bool.false_eq_true, and_false, if_false, grown]

/-- `teadfs_truncate` to a larger size. -/
theorem teadfsTruncate_stored {n : Nat} {w : World} (holds : good w) (grows : w.inode.iSize < n)
    (success : (teadfsTruncate env proc dentry n w).1 = 0) :
    (teadfsTruncate env proc dentry n w).2.inode.lower =
        write 0 (w.inode.iSize + shift) (List.replicate (n - w.inode.iSize) z) w.inode.lower ∧
      (teadfsTruncate env proc dentry n w).2.inode.iSize = n := by
  rw [teadfsTruncate_grown stores holds grows success]
  exact ⟨rfl, rfl⟩

end Zeros

end Teadfs
