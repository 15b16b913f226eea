/-
# Teadfs.SizeFailures — size changes that fail on the way

`truncate_upper` grows a file by a loop of `teadfs_write` over chunks of zeros, a page each.
Every chunk opens the lower file, takes a buffer and writes, and each of the three can fail.
`beforeChunk` is the state before chunk `k`, and `LowerFails` says, from the answers of the
environment alone, whether the chunk fails in it. The loop then ends after the last chunk or
in the first one that fails (`truncateLoop_completed`, `truncateLoop_stopped`), whatever
number of passes it is allowed beyond the number of chunks.

With whole lower writes the chunks are appended one behind the other, although the loop
hands them over at the target size and beyond (`extension_loop`). A short write is taken
for a whole one, so then `i_size` runs ahead of the lower file; and a request to shrink
cuts the upper inode before the lower one is asked. So a failed size change leaves the two
sizes in agreement only under the condition of `failed_size_change_agrees_iff`.
-/
import Teadfs.Reads
import Teadfs.SizeChange

namespace Teadfs

set_option autoImplicit false

open Protocol FileContent

/-! ## One chunk -/

/-- The verdict that `teadfs_write` asks for. -/
def writeVerdict (env : Env) (proc : Nat) (dentry : Dentry) (w : World) : OpenFileResult :=
  .ofCode (teadfsRequestOpenPath env proc dentry w).1

/-- The tick at which `teadfs_write` opens the lower file. -/
def openTick (env : Env) (proc : Nat) (dentry : Dentry) (w : World) : Nat :=
  (teadfsRequestOpenPath env proc dentry w).2.chan.clock

/-- How the lower write of a `teadfs_write` ends. Under `OFR_DECRYPT` the upcall for its data
comes before it. -/
def writeTransfer (env : Env) (proc : Nat) (dentry : Dentry) (w : World) : Transfer :=
  env.kernelWrite (openTick env proc dentry w +
    if writeVerdict env proc dentry w = .decrypt then 3 else 2)

/-- Opening or writing the lower file fails: it does not open, there is no buffer, the verdict
is `OFR_ENCRYPT`, or the lower write returns an error. -/
def LowerFails (env : Env) (proc : Nat) (dentry : Dentry) (w : World) : Prop :=
  (∃ errno, env.dentryOpen (openTick env proc dentry w) .rdwr = some errno) ∨
    env.zalloc (openTick env proc dentry w + 1) = false ∨
    writeVerdict env proc dentry w = .encrypt ∨
    ∃ errno, writeTransfer env proc dentry w = .fails errno

section Chunk

variable {env : Env} {proc : Nat} {dentry : Dentry} {w : World}

/-- A lower write returns an error exactly if it fails. -/
theorem kernelWrite_fails_iff (append : Bool) (data : List UInt8) (offset : Nat) (w : World) :
    (kernelWrite env append data offset w).1 < 0 ↔
      ∃ errno, env.kernelWrite w.chan.clock = .fails errno := by
  unfold kernelWrite
  cases env.kernelWrite w.chan.clock with
  | fails errno => exact ⟨fun _ => ⟨errno, rfl⟩, fun _ => errno.property⟩
  | short n => simp
  | full => simp

/-- `teadfs_write_lower` without an upcall fails without a buffer, for the encrypted view,
or in the lower write. -/
theorem teadfsWriteLower_fails_iff {file : FileInfo} (isOpen : file.lowerFile.isSome)
    (raw : file.access ≠ .decrypt) (data : List UInt8) (offset : Nat) :
    (teadfsWriteLower env proc file data offset w).1 < 0 ↔
      env.zalloc w.chan.clock = false ∨ file.access = .encrypt ∨
        ∃ errno, env.kernelWrite (w.chan.clock + 1) = .fails errno := by
  obtain ⟨ref, opened⟩ := Option.isSome_iff_exists.mp isOpen
  have failed : eio < 0 := by decide
  cases buffer : env.zalloc w.chan.clock with
  | false => simp only [teadfsWriteLower, zalloc, opened, buffer, if_true, failed, true_or]
  | true =>
      by_cases encrypt : file.access = .encrypt
      · simp only [teadfsWriteLower, zalloc, opened, buffer, Bool.true_eq_false, if_false, encrypt,
          if_true, failed, true_or, or_true]
      · simp only [teadfsWriteLower, zalloc, opened, buffer, Bool.true_eq_false, encrypt, raw,
          if_false, false_or]
        exact kernelWrite_fails_iff file.append data offset w.tick

theorem Transfer.amount_le (transfer : Transfer) (n : Nat) : transfer.amount n ≤ n := by
  cases transfer with
  | fails errno => exact Nat.zero_le n
  | short k => exact Nat.min_le_right k n
  | full => exact Nat.le_refl n

/-- What `teadfs_write` does under a verdict other than `OFR_DECRYPT`: it fails and changes
neither level, or it stores what the lower write moves and takes it for all of the data. -/
theorem teadfsWrite_unlabelled (raw : writeVerdict env proc dentry w ≠ .decrypt)
    (data : List UInt8) (offset : Nat) :
    (LowerFails env proc dentry w ∧ (teadfsWrite env proc dentry data offset w).1 < 0 ∧
        ∃ refs, (teadfsWrite env proc dentry data offset w).2.inode =
          { w.inode with lowerRefs := refs }) ∨
      (¬ LowerFails env proc dentry w ∧ (teadfsWrite env proc dentry data offset w).1 = 0 ∧
        (teadfsWrite env proc dentry data offset w).2.inode =
          { w.inode with
            lower := write 0 (min w.inode.iSize offset)
              (data.take ((writeTransfer env proc dentry w).amount data.length)) w.inode.lower
            iSize := max w.inode.iSize (min w.inode.iSize offset + data.length) }) := by
  rcases teadfsWrite_cases env proc dentry data offset w with
    ⟨errno, unopened, refused⟩ | ⟨ref, w', opened, inode, chan, -, written⟩
  · have failed : (teadfsWrite env proc dentry data offset w).1 < 0 := by
      rw [refused]
      exact errno.property
    exact .inl ⟨.inl ⟨errno, unopened⟩, failed, teadfsWrite_failed failed⟩
  rw [show OpenFileResult.ofCode (teadfsRequestOpenPath env proc dentry w).1 =
    writeVerdict env proc dentry w from rfl] at written
  have clock : w'.chan.clock = openTick env proc dentry w + 1 := congrArg Channel.clock chan
  have opens : ¬ ∃ errno, env.dentryOpen (openTick env proc dentry w) .rdwr = some errno := by
    rintro ⟨errno, unopened⟩
    have answer : env.dentryOpen (teadfsRequestOpenPath env proc dentry w).2.chan.clock .rdwr =
      some errno := unopened
    simp only [dentryOpen, answer] at opened
    cases (Prod.mk.inj opened).1
  have lowerFails_iff := @teadfsWriteLower_fails_iff env proc w'
    ⟨some ref, writeVerdict env proc dentry w, [], false⟩ rfl raw data (min w.inode.iSize offset)
  rw [clock] at lowerFails_iff
  have fails_iff : LowerFails env proc dentry w ↔ (teadfsWriteLower env proc
      ⟨some ref, writeVerdict env proc dentry w, [], false⟩ data (min w.inode.iSize offset)
      w').1 < 0 := by
    rw [lowerFails_iff, LowerFails, writeTransfer, if_neg raw]
    simp only [opens, false_or]
  rw [fails_iff, written]
  dsimp only
  split_ifs with negative
  · exact .inl ⟨negative, negative, _, (teadfsWriteLower_failed negative).trans inode⟩
  · refine .inr ⟨negative, rfl, ?_⟩
    obtain ⟨-, stored⟩ := teadfsWriteLower_stored (Int.not_lt.mp negative)
    have transfer : lowerTransfer env ⟨some ref, writeVerdict env proc dentry w, [], false⟩ w' =
        writeTransfer env proc dentry w := by
      rw [lowerTransfer, writeTransfer, clock, if_neg raw, if_neg raw]
    rw [transfer, lowerPosition_of_inPlace (.of_plain rfl _ _), lowerOffset, lowerBlock, if_neg raw,
      if_neg raw] at stored
    simp only [fput, World.setSize_inode, stored, inode, LowerFiles.put_get]

end Chunk

/-! ## The loop -/

/-- The number of chunks of an extension by `total` bytes. -/
def chunks (total : Nat) : Nat := (total + (pageCacheSize - 1)) / pageCacheSize

/-- The bytes of chunk `k`: a page, or what is left. -/
def chunkSize (total k : Nat) : Nat := min (total - k * pageCacheSize) pageCacheSize

theorem lt_chunks_iff {total k : Nat} : k < chunks total ↔ k * pageCacheSize < total := by
  have paged : 0 < pageCacheSize := by decide
  rw [chunks, Nat.lt_iff_add_one_le, Nat.le_div_iff_mul_le paged, Nat.add_mul]
  omega

theorem total_le_chunks (total : Nat) : total ≤ chunks total * pageCacheSize :=
  Nat.not_lt.mp fun more => Nat.lt_irrefl _ (lt_chunks_iff.mpr more)

theorem chunks_le (total : Nat) : chunks total ≤ total := by
  refine Nat.not_lt.mp fun more => ?_
  have inside := lt_chunks_iff.mp more
  have paged : 0 < pageCacheSize := by decide
  exact absurd inside (Nat.not_lt.mpr (Nat.le_mul_of_pos_right total paged))

/-- The loop of `truncate_upper` that grows a file to `iaSize`, entered in `entry`. -/
structure Extension where
  env : Env
  proc : Nat
  dentry : Dentry
  iaSize : Nat
  entry : World

namespace Extension

/-- `total_truncate_size`. -/
def total (x : Extension) : Nat := x.iaSize - x.entry.inode.iSize

/-- The loop, cut off after `fuel` passes. -/
def loop (x : Extension) (fuel : Nat) : Int × World :=
  truncateLoop x.env x.proc x.dentry x.iaSize x.total fuel 0 x.entry

/-- Chunk `k`, written in `w`. -/
def chunk (x : Extension) (k : Nat) (w : World) : Int × World :=
  teadfsWrite x.env x.proc x.dentry (List.replicate (chunkSize x.total k) 0)
    (x.iaSize + k * pageCacheSize) w

/-- The state before chunk `k`. -/
def before (x : Extension) : Nat → World
  | 0 => x.entry
  | k + 1 => (x.chunk k (x.before k)).2

/-- Opening or writing the lower file fails at chunk `k`. -/
def Fails (x : Extension) (k : Nat) : Prop := LowerFails x.env x.proc x.dentry (x.before k)

/-- The verdict for chunk `k`. -/
def verdict (x : Extension) (k : Nat) : OpenFileResult :=
  writeVerdict x.env x.proc x.dentry (x.before k)

/-- The bytes that the lower write of chunk `k` moves. -/
def moved (x : Extension) (k : Nat) : Nat :=
  (writeTransfer x.env x.proc x.dentry (x.before k)).amount (chunkSize x.total k)

variable {x : Extension}

/-- A pass of the loop is a chunk. -/
theorem truncateLoop_chunk {k : Nat} (inside : k < chunks x.total) (fuel : Nat) (w : World) :
    truncateLoop x.env x.proc x.dentry x.iaSize x.total (fuel + 1) (k * pageCacheSize) w =
      let r := x.chunk k w
      if r.1 < 0 then r
      else truncateLoop x.env x.proc x.dentry x.iaSize x.total fuel ((k + 1) * pageCacheSize)
        r.2 := by
  rw [truncateLoop, if_pos (lt_chunks_iff.mp inside), Nat.succ_mul]
  rfl

/-- The loop, after the chunks below `k`. -/
theorem loop_after {k fuel : Nat} (passed : ∀ j < k, ¬ (x.chunk j (x.before j)).1 < 0)
    (inside : k ≤ chunks x.total) (enough : k ≤ fuel) :
    x.loop fuel = truncateLoop x.env x.proc x.dentry x.iaSize x.total (fuel - k)
      (k * pageCacheSize) (x.before k) := by
  induction k with
  | zero =>
      rw [Nat.zero_mul]
      rfl
  | succ k ih =>
      rw [ih (fun j before => passed j (Nat.lt_succ_of_lt before)) (Nat.le_of_lt inside)
        (Nat.le_of_lt enough)]
      rw [show fuel - k = fuel - (k + 1) + 1 by omega, truncateLoop_chunk inside]
      dsimp only
      rw [if_neg (passed k (Nat.lt_succ_self k))]
      rfl

/-- The loop that passes all its chunks returns 0. -/
theorem loop_passed (passed : ∀ k < chunks x.total, ¬ (x.chunk k (x.before k)).1 < 0) {fuel : Nat}
    (enough : chunks x.total ≤ fuel) : x.loop fuel = (0, x.before (chunks x.total)) := by
  have done := Nat.not_lt.mpr (total_le_chunks x.total)
  rw [loop_after passed (Nat.le_refl _) enough]
  cases fuel - chunks x.total with
  | zero => rfl
  | succ fuel => rw [truncateLoop, if_neg done]

/-- The loop that returns no error has passed all its chunks. -/
theorem chunk_of_loop {fuel : Nat} (enough : chunks x.total ≤ fuel) (success : 0 ≤ (x.loop fuel).1)
    {k : Nat} (inside : k < chunks x.total) : ¬ (x.chunk k (x.before k)).1 < 0 := by
  induction k using Nat.strong_induction_on with
  | _ k ih =>
      intro negative
      rw [loop_after (fun j early => ih j early (early.trans inside)) inside.le
        (inside.le.trans enough), show fuel - k = fuel - (k + 1) + 1 by omega,
        truncateLoop_chunk inside] at success
      dsimp only at success
      rw [if_pos negative] at success
      omega

/-- What file operations never change stays through the chunks. -/
theorem before_steady (x : Extension) (k : Nat) : Steady x.entry (x.before k) := by
  induction k with
  | zero => exact .refl _
  | succ k ih => exact ih.trans (teadfsWrite_steady ..)

/-- `i_size` follows the chunks, whatever the lower writes move. -/
theorem before_iSize (grows : x.entry.inode.iSize ≤ x.iaSize) {k : Nat}
    (passed : ∀ j < k, ¬ (x.chunk j (x.before j)).1 < 0) :
    (x.before k).inode.iSize = x.entry.inode.iSize + min x.total (k * pageCacheSize) := by
  induction k with
  | zero => simp [before]
  | succ k ih =>
      have size := ih fun j early => passed j (Nat.lt_succ_of_lt early)
      have next : (x.before (k + 1)).inode.iSize = max (x.before k).inode.iSize
          (min (x.before k).inode.iSize (x.iaSize + k * pageCacheSize) +
            (List.replicate (chunkSize x.total k) (0 : UInt8)).length) :=
        teadfsWrite_iSize (Int.not_lt.mp (passed k (Nat.lt_succ_self k)))
      have total : x.total = x.iaSize - x.entry.inode.iSize := rfl
      rw [next, List.length_replicate, size, chunkSize, Nat.succ_mul]
      omega

/-- The chunks below `k` are all inside the size that was asked for. -/
theorem before_iSize_le (grows : x.entry.inode.iSize ≤ x.iaSize) {k : Nat}
    (passed : ∀ j < k, ¬ (x.chunk j (x.before j)).1 < 0) :
    (x.before k).inode.iSize ≤ x.iaSize := by
  have total : x.total = x.iaSize - x.entry.inode.iSize := rfl
  rw [before_iSize grows passed]
  omega

section Unlabelled

variable (raw : ∀ k < chunks x.total, x.verdict k ≠ .decrypt)

include raw

/-- What chunk `k` does: it fails and changes neither level, or it stores what the lower
write moves of its zeros, at `i_size`. -/
theorem chunk_cases {k : Nat} (inside : k < chunks x.total) :
    (x.Fails k ∧ (x.chunk k (x.before k)).1 < 0 ∧
        ∃ refs, (x.before (k + 1)).inode = { (x.before k).inode with lowerRefs := refs }) ∨
      (¬ x.Fails k ∧ (x.chunk k (x.before k)).1 = 0 ∧
        ((x.before k).inode.iSize ≤ x.iaSize → (x.before (k + 1)).inode =
          { (x.before k).inode with
            lower := write 0 (x.before k).inode.iSize (List.replicate (x.moved k) 0)
              (x.before k).inode.lower
            iSize := (x.before k).inode.iSize + chunkSize x.total k })) := by
  rcases teadfsWrite_unlabelled (raw k inside) (List.replicate (chunkSize x.total k) 0)
    (x.iaSize + k * pageCacheSize) with failed | ⟨passes, rc, stored⟩
  · exact .inl failed
  · refine .inr ⟨passes, rc, ?_⟩
    intro below
    have position : min (x.before k).inode.iSize (x.iaSize + k * pageCacheSize) =
        (x.before k).inode.iSize := by omega
    have part : x.moved k ≤ chunkSize x.total k := Transfer.amount_le _ _
    rw [position, List.length_replicate, List.take_replicate, ← moved, Nat.min_eq_left part,
      Nat.max_eq_right (Nat.le_add_right _ _)] at stored
    exact stored

theorem chunk_passes {k : Nat} (inside : k < chunks x.total) (passes : ¬ x.Fails k) :
    ¬ (x.chunk k (x.before k)).1 < 0 := by
  rcases chunk_cases raw inside with ⟨fails, -⟩ | ⟨-, rc, -⟩
  · exact absurd fails passes
  · omega

/-- The loop that passes all its chunks returns 0. -/
theorem loop_completed (passes : ∀ k < chunks x.total, ¬ x.Fails k) {fuel : Nat}
    (enough : chunks x.total ≤ fuel) : x.loop fuel = (0, x.before (chunks x.total)) :=
  loop_passed (fun k inside => chunk_passes raw inside (passes k inside)) enough

/-- The loop ends in the first chunk that fails, with its error. -/
theorem loop_stopped {k fuel : Nat} (inside : k < chunks x.total)
    (passes : ∀ j < k, ¬ x.Fails j) (fails : x.Fails k) (enough : k < fuel) :
    (x.loop fuel).1 < 0 ∧ x.loop fuel = x.chunk k (x.before k) ∧
      ∃ refs, (x.loop fuel).2.inode = { (x.before k).inode with lowerRefs := refs } := by
  rcases chunk_cases raw inside with ⟨-, negative, same⟩ | ⟨passed, -⟩
  · have ends : x.loop fuel = x.chunk k (x.before k) := by
      rw [loop_after (fun j early => chunk_passes raw (early.trans inside) (passes j early))
        (Nat.le_of_lt inside) (Nat.le_of_lt enough),
        show fuel - k = fuel - (k + 1) + 1 by omega, truncateLoop_chunk inside]
      exact if_pos negative
    refine ⟨?_, ends, ?_⟩
    · rw [ends]
      exact negative
    · rw [ends]
      exact same
  · exact absurd fails passed

omit raw in
/-- Some chunk is the first to fail, or none fails. -/
theorem completed_or_stopped (x : Extension) :
    (∀ k < chunks x.total, ¬ x.Fails k) ∨
      ∃ k < chunks x.total, (∀ j < k, ¬ x.Fails j) ∧ x.Fails k := by
  classical
  by_cases some : ∃ k, k < chunks x.total ∧ x.Fails k
  · obtain ⟨inside, fails⟩ := Nat.find_spec some
    refine .inr ⟨Nat.find some, inside, ?_, fails⟩
    intro j early fails'
    exact Nat.find_min some early ⟨early.trans inside, fails'⟩
  · exact .inl fun k inside fails => some ⟨k, inside, fails⟩

/-- Passes beyond the number of chunks change nothing. -/
theorem loop_terminates {fuel : Nat} (enough : chunks x.total ≤ fuel) :
    x.loop fuel = x.loop (chunks x.total) := by
  rcases x.completed_or_stopped with passes | ⟨k, inside, passes, fails⟩
  · rw [loop_completed raw passes enough, loop_completed raw passes (Nat.le_refl _)]
  · rw [(loop_stopped raw inside passes fails (inside.trans_le enough)).2.1,
      (loop_stopped raw inside passes fails inside).2.1]

theorem chunks_pass {k : Nat} (inside : k ≤ chunks x.total) (passes : ∀ j < k, ¬ x.Fails j) :
    ∀ j < k, ¬ (x.chunk j (x.before j)).1 < 0 :=
  fun j early => chunk_passes raw (early.trans_le inside) (passes j early)

/-- Whole writes append the chunks one behind the other. -/
theorem before_lower (whole : WholeWrites x.env) (agree : x.entry.inode.iSize =
    x.entry.inode.lower.length) (grows : x.entry.inode.iSize ≤ x.iaSize) {k : Nat}
    (inside : k ≤ chunks x.total) (passes : ∀ j < k, ¬ x.Fails j) :
    (x.before k).inode.lower =
      x.entry.inode.lower ++ List.replicate (min x.total (k * pageCacheSize)) 0 := by
  induction k with
  | zero => simp [before]
  | succ k ih =>
      have early : ∀ j < k, ¬ x.Fails j := fun j less => passes j (Nat.lt_succ_of_lt less)
      have passed := chunks_pass raw (Nat.le_of_lt inside) early
      have size := before_iSize grows passed
      have lower := ih (Nat.le_of_lt inside) early
      have all : x.moved k = chunkSize x.total k := by
        cases answer : writeTransfer x.env x.proc x.dentry (x.before k) with
        | fails errno =>
            exact absurd (.inr (.inr (.inr ⟨errno, answer⟩))) (passes k (Nat.lt_succ_self k))
        | short n => exact absurd answer (whole _ n)
        | full => rw [moved, answer, Transfer.amount]
      rcases chunk_cases raw inside with ⟨fails, -⟩ | ⟨-, -, stored⟩
      · exact absurd fails (passes k (Nat.lt_succ_self k))
      have atEnd : (x.before k).inode.iSize = (x.before k).inode.lower.length := by
        rw [size, lower, List.length_append, List.length_replicate, agree]
      rw [stored (before_iSize_le grows passed), all]
      dsimp only
      rw [atEnd, write_replicate_end, resize_eq, List.take_of_length_le (Nat.le_add_right _ _),
        Nat.add_sub_cancel_left, lower, List.append_assoc, List.replicate_append_replicate,
        Nat.succ_mul, chunkSize]
      congr 2
      omega

end Unlabelled

end Extension

/-- **The loop of an extension.** Let the two sizes of a file agree below the target, let no
verdict be `OFR_ENCRYPT` or `OFR_DECRYPT`, and let lower writes be whole. Then the loop ends
within the number of chunks. If no chunk fails it returns 0, `i_size` is the target, and the
lower file is what it was with zeros up to the target behind it. If chunk `k` is the first
to fail it returns an error, and the two sizes agree, with the zeros of `k` pages behind what
the lower file was. -/
theorem extension_loop {x : Extension} (whole : WholeWrites x.env)
    (agree : x.entry.inode.iSize = x.entry.inode.lower.length)
    (grows : x.entry.inode.iSize < x.iaSize)
    (plain : ∀ k < chunks x.total, x.verdict k ≠ .encrypt ∧ x.verdict k ≠ .decrypt) :
    (∀ fuel, chunks x.total ≤ fuel → x.loop fuel = x.loop x.total) ∧
      ((∀ k < chunks x.total, ¬ x.Fails k) →
        (x.loop x.total).1 = 0 ∧ (x.loop x.total).2.inode.iSize = x.iaSize ∧
          (x.loop x.total).2.inode.lower =
            x.entry.inode.lower ++ List.replicate (x.iaSize - x.entry.inode.iSize) 0) ∧
      ∀ k < chunks x.total, (∀ j < k, ¬ x.Fails j) → x.Fails k →
        (x.loop x.total).1 < 0 ∧
          (x.loop x.total).2.inode.iSize = x.entry.inode.iSize + pageCacheSize * k ∧
          (x.loop x.total).2.inode.lower.length = x.entry.inode.iSize + pageCacheSize * k ∧
          (x.loop x.total).2.inode.lower =
            x.entry.inode.lower ++ List.replicate (pageCacheSize * k) 0 := by
  have raw : ∀ k < chunks x.total, x.verdict k ≠ .decrypt := fun k inside => (plain k inside).2
  have enough := chunks_le x.total
  refine ⟨?_, ?_, ?_⟩
  · intro fuel more
    rw [Extension.loop_terminates raw more, Extension.loop_terminates raw enough]
  · intro passes
    have all : min x.total (chunks x.total * pageCacheSize) = x.total :=
      Nat.min_eq_left (total_le_chunks x.total)
    have size := Extension.before_iSize grows.le (Extension.chunks_pass raw (Nat.le_refl _) passes)
    have lower := Extension.before_lower raw whole agree grows.le (Nat.le_refl _) passes
    rw [all] at size lower
    rw [Extension.loop_completed raw passes enough]
    refine ⟨rfl, ?_, lower⟩
    rw [size, Extension.total]
    omega
  · intro k inside passes fails
    obtain ⟨negative, -, refs, same⟩ :=
      Extension.loop_stopped raw inside passes fails (inside.trans_le enough)
    have part : min x.total (k * pageCacheSize) = pageCacheSize * k := by
      rw [Nat.min_eq_right (lt_chunks_iff.mp inside).le, Nat.mul_comm]
    have size := Extension.before_iSize grows.le (Extension.chunks_pass raw inside.le passes)
    have lower := Extension.before_lower raw whole agree grows.le inside.le passes
    rw [part] at size lower
    rw [same]
    refine ⟨negative, size, ?_, lower⟩
    dsimp only
    rw [lower, List.length_append, List.length_replicate, agree]

/-! ## Failed size changes -/

namespace Extension

/-- The last chunk that does not fail is written whole, if there is one. -/
def LastWhole (x : Extension) : Prop :=
  ∀ k < chunks x.total, (∀ j ≤ k, ¬ x.Fails j) → (k + 1 = chunks x.total ∨ x.Fails (k + 1)) →
    x.moved k = chunkSize x.total k

/-- The chunks below `c` pass, and the loop does not get behind them. -/
structure EndsAt (x : Extension) (c : Nat) : Prop where
  inside : c ≤ chunks x.total
  passes : ∀ j < c, ¬ x.Fails j
  ends : c = chunks x.total ∨ x.Fails c

section Sizes

variable {x : Extension} (raw : ∀ k < chunks x.total, x.verdict k ≠ .decrypt)
  (grows : x.entry.inode.iSize ≤ x.iaSize)

include raw

/-- Where the loop ends, the two levels are as before the chunk it ends at. -/
theorem loop_endsAt : ∃ c refs, x.EndsAt c ∧
    (x.loop x.total).2.inode = { (x.before c).inode with lowerRefs := refs } := by
  rcases x.completed_or_stopped with passes | ⟨k, inside, passes, fails⟩
  · refine ⟨chunks x.total, (x.before (chunks x.total)).inode.lowerRefs,
      ⟨Nat.le_refl _, passes, .inl rfl⟩, ?_⟩
    rw [loop_completed raw passes (chunks_le x.total)]
  · obtain ⟨-, -, refs, same⟩ := loop_stopped raw inside passes fails
      (inside.trans_le (chunks_le x.total))
    exact ⟨k, refs, ⟨inside.le, passes, .inr fails⟩, same⟩

include grows

/-- The lower file is never ahead of `i_size`. -/
theorem before_length_le (agree : x.entry.inode.iSize = x.entry.inode.lower.length) {k : Nat}
    (inside : k ≤ chunks x.total) (passes : ∀ j < k, ¬ x.Fails j) :
    (x.before k).inode.lower.length ≤ (x.before k).inode.iSize := by
  induction k with
  | zero => exact agree.ge
  | succ k ih =>
      have early : ∀ j < k, ¬ x.Fails j := fun j less => passes j (Nat.lt_succ_of_lt less)
      rcases chunk_cases raw inside with ⟨fails, -⟩ | ⟨-, -, stored⟩
      · exact absurd fails (passes k (Nat.lt_succ_self k))
      rw [stored (before_iSize_le grows (chunks_pass raw (Nat.le_of_lt inside) early))]
      dsimp only
      have behind := ih (Nat.le_of_lt inside) early
      have part : x.moved k ≤ chunkSize x.total k := Transfer.amount_le _ _
      by_cases nothing : List.replicate (x.moved k) (0 : UInt8) = []
      · rw [nothing, write_nil]
        omega
      · rw [length_write 0 _ _ nothing, List.length_replicate]
        omega

/-- After a chunk the two sizes agree exactly if it was written whole. -/
theorem before_agrees_iff (agree : x.entry.inode.iSize = x.entry.inode.lower.length) {k : Nat}
    (inside : k < chunks x.total) (passes : ∀ j ≤ k, ¬ x.Fails j) :
    (x.before (k + 1)).inode.iSize = (x.before (k + 1)).inode.lower.length ↔
      x.moved k = chunkSize x.total k := by
  have early : ∀ j < k, ¬ x.Fails j := fun j less => passes j less.le
  have behind := before_length_le raw grows agree inside.le early
  have some : 0 < chunkSize x.total k := by
    have more := lt_chunks_iff.mp inside
    have paged : 0 < pageCacheSize := by decide
    rw [chunkSize]
    omega
  rcases chunk_cases raw inside with ⟨fails, -⟩ | ⟨-, -, stored⟩
  · exact absurd fails (passes k (Nat.le_refl k))
  rw [stored (before_iSize_le grows (chunks_pass raw inside.le early))]
  dsimp only
  by_cases nothing : x.moved k = 0
  · rw [nothing, List.replicate_zero, write_nil]
    omega
  · have block : List.replicate (x.moved k) (0 : UInt8) ≠ [] := by simpa using nothing
    rw [length_write 0 _ _ block, List.length_replicate]
    omega

/-- After the loop the two sizes agree exactly if the last chunk that did not fail was
written whole. -/
theorem loop_agrees_iff (agree : x.entry.inode.iSize = x.entry.inode.lower.length) :
    (x.loop x.total).2.inode.iSize = (x.loop x.total).2.inode.lower.length ↔ x.LastWhole := by
  obtain ⟨c, refs, endsAt, same⟩ := loop_endsAt raw
  rw [same]
  dsimp only
  cases c with
  | zero =>
      -- no chunk was written
      refine ⟨?_, fun _ => agree⟩
      rintro - k inside passes -
      rcases endsAt.ends with none | fails
      · omega
      · exact absurd fails (passes 0 (Nat.zero_le k))
  | succ c =>
      have passes : ∀ j ≤ c, ¬ x.Fails j := fun j early => endsAt.passes j (Nat.lt_succ_of_le early)
      rw [before_agrees_iff raw grows agree endsAt.inside passes]
      constructor
      · intro all k inside passes' ends
        -- the loop ends at one chunk only
        have last : k = c := by
          rcases Nat.lt_trichotomy k c with before | same | after
          · rcases ends with all | fails
            · have := endsAt.inside
              omega
            · exact absurd fails (passes (k + 1) before)
          · exact same
          · rcases endsAt.ends with all | fails
            · omega
            · exact absurd fails (passes' (c + 1) after)
        rw [last]
        exact all
      · intro last
        exact last c endsAt.inside passes endsAt.ends

end Sizes

end Extension

/-- The extension that `truncate_upper` makes of a file, in the state after the allocation
of its page of zeros. -/
def extensionTo (env : Env) (proc : Nat) (dentry : Dentry) (iaSize : Nat) (w : World) :
    Extension :=
  ⟨env, proc, dentry, iaSize, w.tick⟩

/-- No verdict on the chunks of an extension is `OFR_DECRYPT`. -/
def Unlabelled (env : Env) (proc : Nat) (dentry : Dentry) (iaSize : Nat) (w : World) : Prop :=
  ∀ k < chunks (extensionTo env proc dentry iaSize w).total,
    (extensionTo env proc dentry iaSize w).verdict k ≠ .decrypt

/-- What an extension needs to end with the two sizes in agreement, however it ends: there is
no page of zeros, or the last chunk that does not fail is written whole. -/
def GrowsWhole (env : Env) (proc : Nat) (dentry : Dentry) (iaSize : Nat) (w : World) : Prop :=
  env.zalloc w.chan.clock = false ∨ (extensionTo env proc dentry iaSize w).LastWhole

section Failed

variable {env : Env} {proc : Nat} {dentry : Dentry} {w : World}

/-- `truncate_upper` to a larger size, with its page of zeros, is the loop. -/
theorem truncateUpper_loop {ia : Iattr} (lowerIa : Iattr) (larger : w.inode.iSize < ia.iaSize)
    (buffer : env.zalloc w.chan.clock = true) :
    truncateUpper env proc dentry ia lowerIa w =
      let x := extensionTo env proc dentry ia.iaSize w
      ((x.loop x.total).1, { lowerIa with attrSize := false }, (x.loop x.total).2) := by
  simp only [truncateUpper, zalloc, if_neg larger.ne', if_pos larger, buffer, Bool.true_eq_false,
    if_false]
  rfl

/-- `truncate_upper` to a size that is not smaller, as far as the two sizes go. -/
theorem truncateUpper_agrees_iff {ia lowerIa : Iattr}
    (agree : w.inode.iSize = w.inode.lower.length)
    (raw : Unlabelled env proc dentry ia.iaSize w) (grows : w.inode.iSize ≤ ia.iaSize) :
    (truncateUpper env proc dentry ia lowerIa w).2.1.attrSize = false ∧
      ((truncateUpper env proc dentry ia lowerIa w).2.2.inode.iSize =
          (truncateUpper env proc dentry ia lowerIa w).2.2.inode.lower.length ↔
        GrowsWhole env proc dentry ia.iaSize w) := by
  rcases Nat.eq_or_lt_of_le grows with same | larger
  · -- nothing to write
    have t : truncateUpper env proc dentry ia lowerIa w =
        (0, { lowerIa with attrSize := false }, w) := if_pos same.symm
    have nothing : (extensionTo env proc dentry ia.iaSize w).total = 0 :=
      Nat.sub_eq_zero_of_le same.ge
    rw [t]
    refine ⟨rfl, fun _ => .inr ?_, fun _ => agree⟩
    intro k inside
    rw [nothing] at inside
    exact absurd (lt_chunks_iff.mp inside) (Nat.not_lt_zero _)
  cases buffer : env.zalloc w.chan.clock with
  | false =>
      have t : truncateUpper env proc dentry ia lowerIa w =
          (enomem, { lowerIa with attrSize := false }, w.tick) := by
        simp only [truncateUpper, zalloc, if_neg larger.ne', if_pos larger, buffer, if_true]
      rw [t]
      exact ⟨rfl, fun _ => .inl buffer, fun _ => agree⟩
  | true =>
      have whole := Extension.loop_agrees_iff raw grows agree
      rw [truncateUpper_loop lowerIa larger buffer, GrowsWhole, buffer]
      simp only [Bool.true_eq_false, false_or]
      exact ⟨trivial, whole⟩

/-- `teadfs_setattr` that gets past `inode_change_ok`, as far as the inode goes, if the size
does not shrink: what `truncate_upper` made of it. -/
theorem teadfsSetattr_grown_inode {ia : Iattr} (size : ia.attrSize = true)
    (allowed : env.inodeChangeOk w.chan.clock = none)
    (kept : (truncateUpper env proc dentry ia ia w.tick).2.1.attrSize = false) :
    (teadfsSetattr env proc dentry ia w).2.inode =
      (truncateUpper env proc dentry ia ia w.tick).2.2.inode := by
  simp only [teadfsSetattr, allowed, size, if_true]
  split_ifs
  · rfl
  · exact notifyChange_inode env kept _
  · exact notifyChange_inode env kept _

/-- A size change that shrinks, and fails behind `inode_change_ok`, has cut the upper inode
and nothing else. -/
theorem teadfsSetattr_shrink_failed {ia : Iattr} (size : ia.attrSize = true)
    (allowed : env.inodeChangeOk w.chan.clock = none) (shrinks : ia.iaSize < w.inode.iSize)
    (failed : (teadfsSetattr env proc dentry ia w).1 < 0) :
    (teadfsSetattr env proc dentry ia w).2.inode =
      (truncateSetsize env ia.iaSize w.tick).inode := by
  have t : truncateUpper env proc dentry ia ia w.tick =
      (0, { ia with attrSize := true, iaSize := ia.iaSize },
        truncateSetsize env ia.iaSize w.tick) := by
    have smaller : ia.iaSize < w.tick.inode.iSize := shrinks
    rw [truncateUpper, if_neg smaller.ne, if_neg smaller.not_gt]
  simp only [teadfsSetattr, allowed, size, if_true, t, Int.lt_irrefl, if_false] at failed ⊢
  generalize (if ia.attrKillSuid ∨ ia.attrKillSgid then _ else _ : Iattr) = lowerIa at failed ⊢
  rcases notifyChange_cases env lowerIa (truncateSetsize env ia.iaSize w.tick) with
    ⟨errno, refused⟩ | done
  · rw [refused]
    rfl
  · rw [done] at failed
    exact absurd failed (Int.lt_irrefl 0)

end Failed

/-- **When a failed size change leaves the two levels in agreement.** Let the two sizes of a
file agree, let no verdict be `OFR_DECRYPT`, and let a size change return an error. If it
was `teadfs_setattr`, the sizes agree again, and a request to shrink has left all that reads
return as it was, if and only if `inode_change_ok` refused it, or the request was not to
shrink and the last chunk of zeros that did not fail was written whole. If it was the
`teadfs_truncate` of `treadfs_write_begin`, which only grows, the sizes agree again if and only
if that chunk was written whole. -/
theorem failed_size_change_agrees_iff {env : Env} {proc : Nat} {dentry : Dentry} {w : World}
    (agree : w.inode.iSize = w.inode.lower.length) :
    (∀ ia : Iattr, ia.attrSize = true → Unlabelled env proc dentry ia.iaSize w.tick →
      (teadfsSetattr env proc dentry ia w).1 < 0 →
      ((teadfsSetattr env proc dentry ia w).2.inode.iSize =
            (teadfsSetattr env proc dentry ia w).2.inode.lower.length ∧
          (ia.iaSize < w.inode.iSize → ∀ (cb : DealCb) (view : View),
            SameReads cb view w.inode (teadfsSetattr env proc dentry ia w).2.inode) ↔
        (∃ errno, env.inodeChangeOk w.chan.clock = some errno) ∨
          w.inode.iSize ≤ ia.iaSize ∧ GrowsWhole env proc dentry ia.iaSize w.tick)) ∧
      ∀ newLength, w.inode.iSize < newLength → Unlabelled env proc dentry newLength w →
        (teadfsTruncate env proc dentry newLength w).1 < 0 →
        ((teadfsTruncate env proc dentry newLength w).2.inode.iSize =
            (teadfsTruncate env proc dentry newLength w).2.inode.lower.length ↔
          GrowsWhole env proc dentry newLength w) := by
  constructor
  · intro ia size raw failed
    cases answer : env.inodeChangeOk w.chan.clock with
    | some errno =>
        have refused : teadfsSetattr env proc dentry ia w = (errno.val, w.tick) := by
          simp only [teadfsSetattr, answer]
        rw [refused]
        refine ⟨fun _ => .inl ⟨errno, rfl⟩, fun _ => ⟨agree, ?_⟩⟩
        intro _ cb view
        exact sameReads_iff.mpr ⟨rfl, fun _ _ _ => rfl⟩
    | none =>
        by_cases grows : w.inode.iSize ≤ ia.iaSize
        · obtain ⟨kept, whole⟩ := @truncateUpper_agrees_iff env proc dentry w.tick ia ia agree raw
            grows
          rw [teadfsSetattr_grown_inode size answer kept, whole]
          constructor
          · rintro ⟨met, -⟩
            exact .inr ⟨grows, met⟩
          · rintro (⟨errno, refused⟩ | ⟨-, met⟩)
            · cases refused
            · exact ⟨met, fun shrinks => absurd grows (Nat.not_le.mpr shrinks)⟩
        · have shrinks := Nat.not_le.mp grows
          rw [teadfsSetattr_shrink_failed size answer shrinks failed]
          constructor
          · rintro ⟨same, -⟩
            have cut : ia.iaSize = w.inode.lower.length := same
            omega
          · rintro (⟨errno, refused⟩ | ⟨met, -⟩)
            · cases refused
            · exact absurd met grows
  · intro newLength grows raw _
    obtain ⟨kept, whole⟩ := @truncateUpper_agrees_iff env proc dentry w
      ⟨true, newLength, false, false, false, false⟩ ⟨false, 0, false, false, false, false⟩ agree raw
      grows.le
    simp only [teadfsTruncate, kept, Bool.false_eq_true, and_false, if_false]
    exact whole

/-! ## Three bytes -/

/-- Three bytes without a label, to be grown to 8198: three chunks of zeros. -/
def threeBytesGrown (env : Env) : Extension :=
  ⟨env, 7, exampleDentry, 8198, freshWorld [1, 2, 3]⟩

/-- The client is answered, but the lower file system is full from tick 5 on: that is after
the first chunk. -/
def filledEnv : Env :=
  { clientEnv (xorCb .init) with
    kernelWrite := fun tick => if tick < 5 then .full else .fails ⟨eio, by decide⟩ }

theorem filledEnv_answers : Answers filledEnv (xorCb .init) :=
  ⟨fun _ => rfl, fun _ => rfl, fun _ _ => ⟨_, rfl⟩⟩

/-- Every chunk is asked for under the verdict that the client gave. -/
theorem threeBytesGrown_verdict {env : Env} (answers : Answers env (xorCb .init)) (k : Nat) :
    (threeBytesGrown env).verdict k = .init := by
  have connected : Connected 7 ((threeBytesGrown env).before k) :=
    ((threeBytesGrown env).before_steady k).connected (by decide : Connected 7 (freshWorld _))
  have given : (xorCb .init).onOpen 0 7 exampleDentry.lowerPath = OpenFileResult.init.code := rfl
  have code := teadfsRequestOpenPath_answered answers connected given (by decide) (by decide)
  exact congrArg OpenFileResult.ofCode code

theorem threeBytesGrown_total (env : Env) : (threeBytesGrown env).total = 8195 := by
  simp [threeBytesGrown, Extension.total, freshWorld]

/-- Where the lower file system is full, the lower write of a chunk goes by its tick. -/
theorem filledEnv_transfer (k : Nat) :
    writeTransfer filledEnv 7 exampleDentry ((threeBytesGrown filledEnv).before k) =
      if openTick filledEnv 7 exampleDentry ((threeBytesGrown filledEnv).before k) + 2 < 5
      then .full else .fails ⟨eio, by decide⟩ := by
  have verdict : writeVerdict filledEnv 7 exampleDentry ((threeBytesGrown filledEnv).before k) ≠
      .decrypt := by
    have asked := threeBytesGrown_verdict filledEnv_answers k
    exact fun decrypt => by cases asked.symm.trans decrypt
  rw [writeTransfer, if_neg verdict]
  rfl

/-- The three chunks are appended, and where the lower file system is full behind the first,
that one is. -/
theorem pages_appended :
    (((threeBytesGrown (clientEnv (xorCb .init))).loop 8195).1 = 0 ∧
      ((threeBytesGrown (clientEnv (xorCb .init))).loop 8195).2.inode.lower =
        [1, 2, 3] ++ List.replicate 8195 0) ∧
      ((threeBytesGrown filledEnv).loop 8195).1 < 0 ∧
      ((threeBytesGrown filledEnv).loop 8195).2.inode.lower =
        [1, 2, 3] ++ List.replicate 4096 0 := by
  have plain : ∀ {env : Env}, Answers env (xorCb .init) → ∀ k,
      (threeBytesGrown env).verdict k ≠ .encrypt ∧ (threeBytesGrown env).verdict k ≠ .decrypt := by
    intro env answers k
    rw [threeBytesGrown_verdict answers]
    decide
  constructor
  · have answers := clientEnv_answers (xorCb .init)
    have ends := extension_loop (x := threeBytesGrown (clientEnv (xorCb .init)))
      (clientEnv_wholeWrites _) rfl (by decide) (fun k _ => plain answers k)
    have passes : ∀ k, ¬ (threeBytesGrown (clientEnv (xorCb .init))).Fails k := by
      rintro k (⟨errno, unopened⟩ | noBuffer | encrypt | ⟨errno, refused⟩)
      · cases unopened
      · cases noBuffer
      · exact (plain answers k).1 encrypt
      · cases refused
    obtain ⟨rc, -, lower⟩ := ends.2.1 fun k _ => passes k
    rw [threeBytesGrown_total] at rc lower
    have zeros := threeBytesGrown_total (clientEnv (xorCb .init))
    rw [Extension.total] at zeros
    rw [zeros] at lower
    exact ⟨rc, lower⟩
  · have whole : WholeWrites filledEnv := by
      intro tick n partway
      have part : (if tick < 5 then Transfer.full else .fails ⟨eio, by decide⟩) = .short n := partway
      split at part <;> cases part
    have ends := extension_loop (x := threeBytesGrown filledEnv) whole rfl (by decide)
      (fun k _ => plain filledEnv_answers k)
    have first : ¬ (threeBytesGrown filledEnv).Fails 0 := by
      rintro (⟨errno, unopened⟩ | noBuffer | encrypt | ⟨errno, refused⟩)
      · cases unopened
      · cases noBuffer
      · exact (plain filledEnv_answers 0).1 encrypt
      · have moves := (filledEnv_transfer 0).trans (if_pos (by decide +kernel))
        cases moves.symm.trans refused
    have second : (threeBytesGrown filledEnv).Fails 1 :=
      .inr (.inr (.inr ⟨_, (filledEnv_transfer 1).trans (if_neg (by decide +kernel))⟩))
    have inside : 1 < chunks (threeBytesGrown filledEnv).total := by
      rw [threeBytesGrown_total]
      decide
    have early : ∀ j < 1, ¬ (threeBytesGrown filledEnv).Fails j := by
      intro j below
      rw [Nat.lt_one_iff.mp below]
      exact first
    obtain ⟨rc, -, -, lower⟩ := ends.2.2 1 inside early second
    rw [threeBytesGrown_total] at rc lower
    exact ⟨rc, lower⟩

/-- The lower file system refuses every change of attributes. -/
def refusingEnv : Env :=
  { clientEnv (xorCb .init) with notifyChange := fun _ => some ⟨eio, by decide⟩ }

/-- A request to grow three bytes to five fails in the lower file system, behind the zeros:
the sizes agree. -/
theorem refused_growth_agrees :
    (teadfsSetattr refusingEnv 7 exampleDentry (sizeChange 5 false) (freshWorld [1, 2, 3])).1 < 0 ∧
      (teadfsSetattr refusingEnv 7 exampleDentry (sizeChange 5 false)
          (freshWorld [1, 2, 3])).2.inode.iSize =
        (teadfsSetattr refusingEnv 7 exampleDentry (sizeChange 5 false)
          (freshWorld [1, 2, 3])).2.inode.lower.length := by
  have failed : (teadfsSetattr refusingEnv 7 exampleDentry (sizeChange 5 false)
      (freshWorld [1, 2, 3])).1 < 0 := by
    decide +kernel
  have one : ∀ k < chunks (extensionTo refusingEnv 7 exampleDentry 5
      (freshWorld [1, 2, 3]).tick).total, k = 0 := by
    intro k inside
    have few : k < 1 := inside
    omega
  have raw : Unlabelled refusingEnv 7 exampleDentry 5 (freshWorld [1, 2, 3]).tick := by
    intro k inside
    rw [one k inside]
    decide +kernel
  have whole : (extensionTo refusingEnv 7 exampleDentry 5
      (freshWorld [1, 2, 3]).tick).LastWhole := by
    intro k inside _ _
    rw [one k inside]
    decide +kernel
  have exact_iff := (failed_size_change_agrees_iff (w := freshWorld [1, 2, 3]) rfl).1
    (sizeChange 5 false) rfl raw failed
  exact ⟨failed, (exact_iff.mpr (.inr ⟨by decide, .inr whole⟩)).1⟩

/-- A request to shrink three bytes to one fails in the lower file system: the upper size is
one, the lower one is three, and two bytes can no longer be read. -/
theorem refused_shrink_disagrees :
    (teadfsSetattr refusingEnv 7 exampleDentry (sizeChange 1 false)
        (freshWorld [1, 2, 3])).1 = eio ∧
      (teadfsSetattr refusingEnv 7 exampleDentry (sizeChange 1 false)
        (freshWorld [1, 2, 3])).2.inode.iSize = 1 ∧
      (teadfsSetattr refusingEnv 7 exampleDentry (sizeChange 1 false)
        (freshWorld [1, 2, 3])).2.inode.lower.length = 3 ∧
      ¬ SameReads (xorCb .init) .raw (freshWorld [1, 2, 3]).inode
        (teadfsSetattr refusingEnv 7 exampleDentry (sizeChange 1 false)
          (freshWorld [1, 2, 3])).2.inode := by
  refine ⟨by decide +kernel, by decide +kernel, by decide +kernel, ?_⟩
  intro same
  have size := (sameReads_iff.mp same).1
  revert size
  decide +kernel

end Teadfs
