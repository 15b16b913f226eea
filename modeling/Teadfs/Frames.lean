/-
# Teadfs.Frames — what each operation can do

One lemma for each function of `Teadfs.Mmap`, in the order of its callers: what it
may change, whatever the environment answers (`_inode`, `_steady`, `_cases`),
and what it computes when the lower file system is `Obliging` and, for an
`OFR_DECRYPT` handle, the client `Answers`. The refinement modules use these and do
not look inside the functions again.
-/
import Mathlib.Order.Basic
import Teadfs.File

namespace Teadfs

set_option autoImplicit false

open Protocol FileContent Frame

/-- The lower file system and the allocator do all that they are asked for. -/
structure Obliging (env : Env) : Prop where
  kernelRead : ∀ t, env.kernelRead t = .full
  kernelWrite : ∀ t, env.kernelWrite t = .full
  dentryOpen : ∀ t mode, env.dentryOpen t mode = none
  zalloc : ∀ t, env.zalloc t = true
  grabPage : ∀ t, env.grabPage t = true

/-! ## The lower file -/

@[simp] theorem kernelRead_world (env : Env) (offset size : Nat) (w : World) :
    (kernelRead env offset size w).2 = w.tick := by
  unfold kernelRead
  split <;> rfl

theorem kernelRead_full {env : Env} {w : World} (full : env.kernelRead w.chan.clock = .full)
    (offset size : Nat) :
    kernelRead env offset size w = (.ok (slice offset size w.inode.lower), w.tick) := by
  simp [kernelRead, full, Transfer.amount]

/-- A lower write fails and changes nothing, or stores a prefix of its data. -/
theorem kernelWrite_cases (env : Env) (append : Bool) (data : List UInt8) (offset : Nat)
    (w : World) :
    (∃ errno : Errno, kernelWrite env append data offset w = (errno.val, w.tick)) ∨
      ∃ sent, sent <+: data ∧ kernelWrite env append data offset w =
        ((sent.length : Int),
          (w.tick.setLower (write 0 (writtenAt append offset w) sent w.inode.lower)).record
            (.lowerWrite (writtenAt append offset w) sent)) := by
  unfold kernelWrite
  split
  · rename_i errno _
    exact .inl ⟨errno, rfl⟩
  · exact .inr ⟨_, List.take_prefix _ _, rfl⟩

theorem kernelWrite_full {env : Env} {w : World} (full : env.kernelWrite w.chan.clock = .full)
    (append : Bool) (data : List UInt8) (offset : Nat) :
    kernelWrite env append data offset w =
      ((data.length : Int),
        (w.tick.setLower (write 0 (writtenAt append offset w) data w.inode.lower)).record
          (.lowerWrite (writtenAt append offset w) data)) := by
  simp [kernelWrite, full, Transfer.amount]

theorem kernelWrite_stored {env : Env} {append : Bool} {data : List UInt8} {offset : Nat}
    {w : World} (success : 0 ≤ (kernelWrite env append data offset w).1) :
    (∀ errno, env.kernelWrite w.chan.clock ≠ .fails errno) ∧
      (kernelWrite env append data offset w).2.inode =
        { w.inode with
          lower := write 0 (writtenAt append offset w)
            (data.take ((env.kernelWrite w.chan.clock).amount data.length)) w.inode.lower } := by
  unfold kernelWrite at success ⊢
  cases answer : env.kernelWrite w.chan.clock with
  | fails errno =>
      simp only [answer] at success
      exact absurd success (Int.not_le.mpr errno.property)
  | short n => simp
  | full => simp

/-! ## Blocks -/

section ReadLower

variable (env : Env) (proc : Nat) (file : FileInfo) {size : Nat} (data : Fin size → UInt8)
  (offset : Nat) (w : World)

@[simp] theorem teadfsReadLower_inode :
    (teadfsReadLower env proc file data offset w).2.2.inode = w.inode := by
  unfold teadfsReadLower
  split
  · rfl
  · dsimp only
    have world := kernelRead_world env
      (if file.access = .decrypt then offset + encryptFileHeaderSize else offset) size w
    split <;> rename_i read <;> rw [read] at world <;> dsimp only at world <;> subst world
    · rfl
    · split_ifs <;> simp [teadfsRequestRead]

theorem teadfsReadLower_steady :
    Steady w (teadfsReadLower env proc file data offset w).2.2 := by
  unfold teadfsReadLower
  split
  · exact .refl w
  · dsimp only
    have world := kernelRead_world env
      (if file.access = .decrypt then offset + encryptFileHeaderSize else offset) size w
    split <;> rename_i read <;> rw [read] at world <;> dsimp only at world <;> subst world
    · exact ⟨rfl, rfl, rfl⟩
    · split_ifs
      · exact requestBlock_steady env proc .read _ _ _ w.tick
      · exact requestBlock_steady env proc .read _ _ _ w.tick
      · exact ⟨rfl, rfl, rfl⟩

end ReadLower

/-- What a read through a decrypting handle can do: stop before its upcall, or make
it with a prefix of the lower bytes behind the label, told their offset there, and
keep that prefix unless a block comes back. -/
theorem teadfsReadLower_cases {file : FileInfo} (decrypt : file.access = .decrypt) (env : Env)
    (proc : Nat) {size : Nat} (data : Fin size → UInt8) (offset : Nat) (w : World) :
    (∃ rc w', rc < 0 ∧ (w' = w ∨ w' = w.tick) ∧
        teadfsReadLower env proc file data offset w = (rc, data, w')) ∨
      ∃ bytes, (kernelRead env (offset + encryptFileHeaderSize) size w).1 = .ok bytes ∧
        bytes <+: slice (offset + encryptFileHeaderSize) size w.inode.lower ∧
        teadfsReadLower env proc file data offset w =
          let r := teadfsRequestRead env proc (offset + encryptFileHeaderSize) bytes size w.tick
          if r.1 ≤ 0 then ((bytes.length : Int), overlay data 0 bytes, r.2.2)
          else (r.1, overlay (overlay data 0 bytes) 0 r.2.1, r.2.2) := by
  cases opened : file.lowerFile with
  | none =>
      refine .inl ⟨eio, w, by decide, .inl rfl, ?_⟩
      simp only [teadfsReadLower, opened]
  | some ref =>
      simp only [teadfsReadLower, opened, decrypt, if_true, kernelRead]
      cases answer : env.kernelRead w.chan.clock with
      | fails errno => exact .inl ⟨errno, w.tick, errno.property, .inr rfl, rfl⟩
      | short n => exact .inr ⟨_, rfl, List.take_prefix _ _, rfl⟩
      | full => exact .inr ⟨_, rfl, List.take_prefix _ _, rfl⟩

/-- A raw handle reads the lower bytes. -/
theorem teadfsReadLower_raw {env : Env} (obliging : Obliging env) (proc : Nat) {file : FileInfo}
    (isOpen : file.lowerFile.isSome) (raw : file.access ≠ .decrypt) {size : Nat}
    (data : Fin size → UInt8) (offset : Nat) (w : World) :
    teadfsReadLower env proc file data offset w =
      (((slice offset size w.inode.lower).length : Int),
        overlay data 0 (slice offset size w.inode.lower), w.tick) := by
  obtain ⟨ref, opened⟩ := Option.isSome_iff_exists.mp isOpen
  simp [teadfsReadLower, opened, raw, kernelRead_full (obliging.kernelRead _)]

/-- A decrypting handle reads what the client makes of the lower bytes behind the
label, told their offset in the lower file. -/
theorem teadfsReadLower_decrypted {env : Env} {cb : DealCb} (obliging : Obliging env)
    (answers : Answers env cb) {proc : Nat} {w : World} (connected : Connected proc w)
    {file : FileInfo} (isOpen : file.lowerFile.isSome) (decrypt : file.access = .decrypt)
    {size : Nat} (data : Fin size → UInt8) (offset : Nat) (word : size < 2 ^ 32)
    (preserves : ∀ o d, (cb.onRead o d).length = d.length) :
    (teadfsReadLower env proc file data offset w).1 =
        (slice (offset + encryptFileHeaderSize) size w.inode.lower).length ∧
      (teadfsReadLower env proc file data offset w).2.1 =
        overlay data 0 (cb.onRead (offset + encryptFileHeaderSize)
          (slice (offset + encryptFileHeaderSize) size w.inode.lower)) := by
  obtain ⟨ref, opened⟩ := Option.isSome_iff_exists.mp isOpen
  have ticked : Connected proc w.tick := connected
  simp only [teadfsReadLower, opened, decrypt, if_true, kernelRead_full (obliging.kernelRead _)]
  have short : (slice (offset + encryptFileHeaderSize) size w.inode.lower).length ≤ size := by
    rw [length_slice]
    omega
  generalize slice (offset + encryptFileHeaderSize) size w.inode.lower = raw at short ⊢
  have fits : (cb.onRead (offset + encryptFileHeaderSize) raw).length ≤ size := by
    rw [preserves]
    exact short
  obtain ⟨rc, block⟩ := teadfsRequestRead_answered answers ticked
    (offset + encryptFileHeaderSize) raw fits word
  rw [preserves] at rc
  split_ifs with nothing
  · -- nothing to decrypt: the upcall returns zero and the empty raw block stands
    have empty : raw = [] := List.eq_nil_of_length_eq_zero (by omega)
    have same : cb.onRead (offset + encryptFileHeaderSize) raw = raw :=
      (List.eq_nil_of_length_eq_zero (by rw [preserves, empty]; rfl)).trans empty.symm
    exact ⟨rfl, by rw [same]⟩
  · exact ⟨rc, by rw [block, overlay_overlay (preserves _ raw).ge]⟩

section WriteLower

variable (env : Env) (proc : Nat) (file : FileInfo) (data : List UInt8) (offset : Nat) (w : World)

theorem kernelWrite_steady (append : Bool) :
    Steady w (kernelWrite env append data offset w).2 := by
  rcases kernelWrite_cases env append data offset w with ⟨errno, failed⟩ | ⟨sent, -, stored⟩
  · rw [failed]; exact ⟨rfl, rfl, rfl⟩
  · rw [stored]; exact ⟨rfl, rfl, rfl⟩

/-- A lower write touches nothing of the inode but the lower bytes. -/
theorem kernelWrite_inode (append : Bool) : ∃ lower,
    (kernelWrite env append data offset w).2.inode = { w.inode with lower := lower } := by
  rcases kernelWrite_cases env append data offset w with ⟨errno, failed⟩ | ⟨sent, -, stored⟩
  · exact ⟨w.inode.lower, by rw [failed]; rfl⟩
  · exact ⟨_, by rw [stored]; rfl⟩

theorem teadfsWriteLower_inode : ∃ lower,
    (teadfsWriteLower env proc file data offset w).2.inode = { w.inode with lower := lower } := by
  unfold teadfsWriteLower zalloc
  split
  · exact ⟨w.inode.lower, rfl⟩
  · dsimp only
    split_ifs
    · exact ⟨w.inode.lower, rfl⟩
    · exact ⟨w.inode.lower, rfl⟩
    · exact ⟨w.inode.lower, by simp [teadfsRequestWrite]⟩
    · obtain ⟨lower, stored⟩ := kernelWrite_inode env
        (teadfsRequestWrite env proc offset data data.length w.tick).2.1
        (offset + encryptFileHeaderSize)
        (teadfsRequestWrite env proc offset data data.length w.tick).2.2 file.append
      exact ⟨lower, by rw [stored]; simp [teadfsRequestWrite]⟩
    · exact kernelWrite_inode env data offset w.tick file.append

theorem teadfsWriteLower_steady :
    Steady w (teadfsWriteLower env proc file data offset w).2 := by
  unfold teadfsWriteLower zalloc
  split
  · exact .refl w
  · dsimp only
    split_ifs
    · exact ⟨rfl, rfl, rfl⟩
    · exact ⟨rfl, rfl, rfl⟩
    · exact requestBlock_steady env proc .write _ _ _ w.tick
    · exact (requestBlock_steady env proc .write _ _ _ w.tick).trans
        (kernelWrite_steady env _ _ _ _)
    · exact kernelWrite_steady env data offset w.tick file.append

end WriteLower

/-- What a write through a decrypting handle can do: stop before its upcall or at a
failed one with `-EIO`, or hand the block that came back to the lower file system. -/
theorem teadfsWriteLower_cases {file : FileInfo} (decrypt : file.access = .decrypt) (env : Env)
    (proc : Nat) (data : List UInt8) (offset : Nat) (w : World) :
    (∃ w', (file.lowerFile = none ∧ w' = w ∨ env.zalloc w.chan.clock = false ∧ w' = w.tick) ∧
        teadfsWriteLower env proc file data offset w = (eio, w')) ∨
      ((teadfsRequestWrite env proc offset data data.length w.tick).1 < 0 ∧
        teadfsWriteLower env proc file data offset w =
          (eio, (teadfsRequestWrite env proc offset data data.length w.tick).2.2)) ∨
      (0 ≤ (teadfsRequestWrite env proc offset data data.length w.tick).1 ∧
        teadfsWriteLower env proc file data offset w =
          kernelWrite env file.append
            (teadfsRequestWrite env proc offset data data.length w.tick).2.1
            (offset + encryptFileHeaderSize)
            (teadfsRequestWrite env proc offset data data.length w.tick).2.2) := by
  cases opened : file.lowerFile with
  | none =>
      refine .inl ⟨w, .inl ⟨rfl, rfl⟩, ?_⟩
      simp only [teadfsWriteLower, opened]
  | some ref =>
      simp only [teadfsWriteLower, zalloc, opened, decrypt, if_true, reduceCtorEq, if_false]
      split_ifs with noMemory failed
      · exact .inl ⟨w.tick, .inr ⟨noMemory, rfl⟩, rfl⟩
      · exact .inr (.inl ⟨failed, if_pos failed⟩)
      · exact .inr (.inr ⟨Int.not_lt.mp failed, if_neg failed⟩)

/-- The place of a block of a handle in the lower file: behind the label. -/
def lowerOffset (file : FileInfo) (offset : Nat) : Nat :=
  if file.access = .decrypt then offset + encryptFileHeaderSize else offset

/-- Where a block written at `offset` goes in the lower file. -/
def lowerPosition (file : FileInfo) (offset : Nat) (w : World) : Nat :=
  writtenAt file.append (lowerOffset file offset) w

/-- A block goes to its place, unless the handle appends and that is not the end. -/
def InPlace (file : FileInfo) (offset : Nat) (w : World) : Prop :=
  file.append = true → w.inode.lower.length = lowerOffset file offset

instance (file : FileInfo) (offset : Nat) (w : World) : Decidable (InPlace file offset w) :=
  inferInstanceAs (Decidable (_ → _))

theorem lowerPosition_of_inPlace {file : FileInfo} {offset : Nat} {w : World}
    (inPlace : InPlace file offset w) : lowerPosition file offset w = lowerOffset file offset := by
  unfold lowerPosition writtenAt
  split
  · rename_i append
    exact inPlace append
  · rfl

theorem InPlace.of_plain {file : FileInfo} (plain : file.append = false) (offset : Nat)
    (w : World) : InPlace file offset w := by
  intro append
  rw [plain] at append
  cases append

/-- What a block becomes on its way down: for a decrypting handle, what the client makes
of it. -/
def lowerBlock (env : Env) (proc : Nat) (file : FileInfo) (data : List UInt8) (offset : Nat)
    (w : World) : List UInt8 :=
  if file.access = .decrypt then (teadfsRequestWrite env proc offset data data.length w.tick).2.1
  else data

/-- How the lower write of a block ends: one question comes before it, two for a
decrypting handle. -/
def lowerTransfer (env : Env) (file : FileInfo) (w : World) : Transfer :=
  env.kernelWrite (w.chan.clock + if file.access = .decrypt then 2 else 1)

/-- A write that returns no error has stored what the lower write moved of its block. -/
theorem teadfsWriteLower_stored {env : Env} {proc : Nat} {file : FileInfo} {data : List UInt8}
    {offset : Nat} {w : World} (success : 0 ≤ (teadfsWriteLower env proc file data offset w).1) :
    (∀ errno, lowerTransfer env file w ≠ .fails errno) ∧
      (teadfsWriteLower env proc file data offset w).2.inode =
        { w.inode with
          lower := write 0 (lowerPosition file offset w)
            ((lowerBlock env proc file data offset w).take ((lowerTransfer env file w).amount
              (lowerBlock env proc file data offset w).length)) w.inode.lower } := by
  have failed : ¬ 0 ≤ eio := by decide
  by_cases decrypt : file.access = .decrypt
  · simp only [lowerTransfer, lowerPosition, lowerOffset, lowerBlock, decrypt, if_true]
    rcases teadfsWriteLower_cases decrypt env proc data offset w with
      ⟨w', -, stopped⟩ | ⟨-, refused⟩ | ⟨-, passed⟩
    · rw [stopped] at success
      exact absurd success failed
    · rw [refused] at success
      exact absurd success failed
    · rw [passed] at success ⊢
      have stored := kernelWrite_stored success
      simpa [teadfsRequestWrite, writtenAt] using stored
  · simp only [lowerTransfer, lowerPosition, lowerOffset, lowerBlock, decrypt, if_false]
    unfold teadfsWriteLower at success ⊢
    cases opened : file.lowerFile with
    | none =>
        simp only [opened] at success
        exact absurd success failed
    | some ref =>
        simp only [opened, zalloc, decrypt, if_false] at success ⊢
        split_ifs at success ⊢
        · exact absurd success failed
        · exact absurd success failed
        · exact kernelWrite_stored success

theorem kernelWrite_failed {env : Env} {append : Bool} {data : List UInt8} {offset : Nat}
    {w : World} (failed : (kernelWrite env append data offset w).1 < 0) :
    (kernelWrite env append data offset w).2.inode = w.inode := by
  rcases kernelWrite_cases env append data offset w with ⟨errno, refused⟩ | ⟨sent, -, stored⟩
  · rw [refused]
    rfl
  · rw [stored] at failed
    exact absurd failed (Int.not_lt.mpr (Int.natCast_nonneg _))

/-- A write that returns an error has changed nothing of the inode. -/
theorem teadfsWriteLower_failed {env : Env} {proc : Nat} {file : FileInfo} {data : List UInt8}
    {offset : Nat} {w : World} (failed : (teadfsWriteLower env proc file data offset w).1 < 0) :
    (teadfsWriteLower env proc file data offset w).2.inode = w.inode := by
  unfold teadfsWriteLower zalloc at failed ⊢
  cases opened : file.lowerFile with
  | none => rfl
  | some ref =>
      simp only [opened] at failed ⊢
      split_ifs at failed ⊢
      · rfl
      · rfl
      · simp [teadfsRequestWrite]
      · rw [kernelWrite_failed failed]
        simp [teadfsRequestWrite]
      · exact kernelWrite_failed failed

/-- A handle opened for the encrypted view cannot write. -/
theorem teadfsWriteLower_encrypt (env : Env) (proc : Nat) {file : FileInfo}
    (encrypt : file.access = .encrypt) (data : List UInt8) (offset : Nat) (w : World) :
    (teadfsWriteLower env proc file data offset w).1 = eio ∧
      (teadfsWriteLower env proc file data offset w).2.inode = w.inode := by
  unfold teadfsWriteLower zalloc
  split
  · exact ⟨rfl, rfl⟩
  · simp [encrypt]

theorem teadfsWriteLower_raw {env : Env} (obliging : Obliging env) (proc : Nat) {file : FileInfo}
    (isOpen : file.lowerFile.isSome) (notEncrypt : file.access ≠ .encrypt)
    (raw : file.access ≠ .decrypt) (data : List UInt8) (offset : Nat) (w : World) :
    (teadfsWriteLower env proc file data offset w).1 = data.length ∧
      (teadfsWriteLower env proc file data offset w).2.inode =
        { w.inode with lower := write 0 (lowerPosition file offset w) data w.inode.lower } := by
  obtain ⟨ref, opened⟩ := Option.isSome_iff_exists.mp isOpen
  simp [teadfsWriteLower, zalloc, opened, notEncrypt, raw, obliging.zalloc,
    kernelWrite_full (obliging.kernelWrite _), lowerPosition, lowerOffset, writtenAt]

/-- A decrypting handle stores what the client makes of the data behind the label,
told the logical offset. -/
theorem teadfsWriteLower_decrypted {env : Env} {cb : DealCb} (obliging : Obliging env)
    (answers : Answers env cb) {proc : Nat} {w : World} (connected : Connected proc w)
    {file : FileInfo} (isOpen : file.lowerFile.isSome) (decrypt : file.access = .decrypt)
    (data : List UInt8) (offset : Nat) (word : data.length < 2 ^ 32)
    (preserves : ∀ o d, (cb.onWrite o d).length = d.length) :
    (teadfsWriteLower env proc file data offset w).1 = data.length ∧
      (teadfsWriteLower env proc file data offset w).2.inode =
        { w.inode with
          lower := write 0 (lowerPosition file offset w) (cb.onWrite offset data)
            w.inode.lower } := by
  obtain ⟨ref, opened⟩ := Option.isSome_iff_exists.mp isOpen
  have ticked : Connected proc w.tick := connected
  obtain ⟨rc, block⟩ := teadfsRequestWrite_answered answers ticked offset data
    (preserves offset data).le word
  rw [preserves] at rc
  have done : ¬ (teadfsRequestWrite env proc offset data data.length w.tick).1 < 0 := by
    rw [rc]
    omega
  simp only [teadfsWriteLower, zalloc, opened, obliging.zalloc, decrypt, if_true, done, if_false,
    reduceCtorEq, block, kernelWrite_full (obliging.kernelWrite _), preserves]
  exact ⟨trivial, by simp [teadfsRequestWrite, lowerPosition, lowerOffset, decrypt, writtenAt]⟩

/-- What `teadfs_write` can do: fail to open the lower file, or write through the
verdict it has asked for, and put the lower file and raise `i_size` if that went well.
A failed write leaves the lower file open. -/
theorem teadfsWrite_cases (env : Env) (proc : Nat) (dentry : Dentry) (data : List UInt8)
    (offset : Nat) (w : World) :
    (∃ errno : Errno,
        env.dentryOpen (teadfsRequestOpenPath env proc dentry w).2.chan.clock .rdwr = some errno ∧
        teadfsWrite env proc dentry data offset w =
          (errno.val, (teadfsRequestOpenPath env proc dentry w).2.tick)) ∨
      ∃ ref w', dentryOpen env .rdwr (teadfsRequestOpenPath env proc dentry w).2 = (.ok ref, w') ∧
        w'.inode = { w.inode with lowerRefs := w.inode.lowerRefs.get ref } ∧
        w'.chan = (teadfsRequestOpenPath env proc dentry w).2.tick.chan ∧ Steady w w' ∧
        teadfsWrite env proc dentry data offset w =
          let r := teadfsWriteLower env proc
            ⟨some ref, .ofCode (teadfsRequestOpenPath env proc dentry w).1, [], false⟩ data
            (min w.inode.iSize offset) w'
          if r.1 < 0 then r
          else (0, (fput ref r.2).setSize
            (max w.inode.iSize (min w.inode.iSize offset + data.length))) := by
  have position : (if w.inode.iSize < offset then w.inode.iSize else offset) =
      min w.inode.iSize offset := by
    split <;> omega
  simp only [teadfsWrite, teadfsGetLowerFile, dentryOpen, Bool.false_eq_true, and_false, if_false,
    position]
  cases answer : env.dentryOpen (teadfsRequestOpenPath env proc dentry w).2.chan.clock .rdwr with
  | some errno => exact .inl ⟨errno, rfl, rfl⟩
  | none =>
      refine .inr ⟨(teadfsRequestOpenPath env proc dentry w).2.chan.clock,
        { (teadfsRequestOpenPath env proc dentry w).2.tick with
          inode.lowerRefs := (teadfsRequestOpenPath env proc dentry w).2.inode.lowerRefs.get
            (teadfsRequestOpenPath env proc dentry w).2.chan.clock }, rfl, ?_, rfl,
        teadfsRequestOpenPath_steady env proc dentry w, ?_⟩
      · simp
      · dsimp only
        obtain ⟨lower, inode⟩ := teadfsWriteLower_inode env proc
          ⟨some (teadfsRequestOpenPath env proc dentry w).2.chan.clock,
            .ofCode (teadfsRequestOpenPath env proc dentry w).1, [], false⟩ data
          (min w.inode.iSize offset)
          { (teadfsRequestOpenPath env proc dentry w).2.tick with
            inode.lowerRefs := (teadfsRequestOpenPath env proc dentry w).2.inode.lowerRefs.get
              (teadfsRequestOpenPath env proc dentry w).2.chan.clock }
        generalize teadfsWriteLower env proc _ data _ _ = r at inode ⊢
        split
        · rfl
        · simp only [teadfsPutLowerFile, Bool.false_eq_true, and_false, if_false, fputLower]
          split
          · rename_i grows
            rw [Nat.max_eq_right grows.le]
          · rename_i inside
            rw [Nat.max_eq_left (Nat.not_lt.mp inside), World.setSize_self]
            simp [fput, inode]

theorem teadfsWrite_steady (env : Env) (proc : Nat) (dentry : Dentry) (data : List UInt8)
    (offset : Nat) (w : World) : Steady w (teadfsWrite env proc dentry data offset w).2 := by
  have verdict := teadfsRequestOpenPath_steady env proc dentry w
  rcases teadfsWrite_cases env proc dentry data offset w with
    ⟨errno, -, failed⟩ | ⟨ref, w', -, -, -, opened, written⟩
  · rw [failed]
    exact verdict
  · rw [written]
    dsimp only
    split_ifs
    · exact opened.trans (teadfsWriteLower_steady ..)
    · exact opened.trans (teadfsWriteLower_steady env proc _ _ _ w')

/-- A `teadfs_write` that returns an error has changed nothing but which lower files are
open. -/
theorem teadfsWrite_failed {env : Env} {proc : Nat} {dentry : Dentry} {data : List UInt8}
    {offset : Nat} {w : World} (failed : (teadfsWrite env proc dentry data offset w).1 < 0) :
    ∃ refs, (teadfsWrite env proc dentry data offset w).2.inode =
      { w.inode with lowerRefs := refs } := by
  rcases teadfsWrite_cases env proc dentry data offset w with
    ⟨errno, -, refused⟩ | ⟨ref, w', -, inode, -, -, written⟩
  · exact ⟨w.inode.lowerRefs, by rw [refused, World.tick_inode, teadfsRequestOpenPath_inode]⟩
  · rw [written] at failed ⊢
    dsimp only at failed ⊢
    split_ifs at failed ⊢ with negative
    · exact ⟨_, by rw [teadfsWriteLower_failed negative, inode]⟩
    · exact absurd failed (Int.lt_irrefl 0)

/-! ## Sizes -/

/-- A `teadfs_write` that returns no error has set the size it means to have stored. -/
theorem teadfsWrite_iSize {env : Env} {proc : Nat} {dentry : Dentry} {data : List UInt8}
    {offset : Nat} {w : World} (success : 0 ≤ (teadfsWrite env proc dentry data offset w).1) :
    (teadfsWrite env proc dentry data offset w).2.inode.iSize =
      max w.inode.iSize (min w.inode.iSize offset + data.length) := by
  rcases teadfsWrite_cases env proc dentry data offset w with
    ⟨errno, -, refused⟩ | ⟨ref, w', -, -, -, -, written⟩
  · rw [refused] at success
    exact absurd success (Int.not_le.mpr errno.property)
  · rw [written] at success ⊢
    dsimp only at success ⊢
    split_ifs at success ⊢ with negative
    · exact absurd success (Int.not_le.mpr negative)
    · rfl

/-- The loop of an extension that goes through ends with the size that was asked for. -/
theorem truncateLoop_iSize {env : Env} {proc : Nat} {dentry : Dentry}
    {iaSize total fuel truncatePos : Nat} {w : World} (enough : total - truncatePos ≤ fuel)
    (left : w.inode.iSize + (total - truncatePos) = iaSize)
    (success : 0 ≤ (truncateLoop env proc dentry iaSize total fuel truncatePos w).1) :
    (truncateLoop env proc dentry iaSize total fuel truncatePos w).2.inode.iSize = iaSize := by
  induction fuel generalizing truncatePos w with
  | zero =>
      show w.inode.iSize = iaSize
      omega
  | succ fuel ih =>
      simp only [truncateLoop] at success ⊢
      split_ifs at success ⊢ with more failed
      · exact absurd success (Int.not_le.mpr failed)
      · have size := teadfsWrite_iSize (Int.not_lt.mp failed)
        rw [List.length_replicate] at size
        have paged : 0 < pageCacheSize := by decide
        exact ih (by omega) (by rw [size]; omega) success
      · show w.inode.iSize = iaSize
        omega

theorem teadfsWrite_nonpos (env : Env) (proc : Nat) (dentry : Dentry) (data : List UInt8)
    (offset : Nat) (w : World) : (teadfsWrite env proc dentry data offset w).1 ≤ 0 := by
  rcases teadfsWrite_cases env proc dentry data offset w with
    ⟨errno, -, failed⟩ | ⟨ref, w', -, -, -, -, written⟩
  · rw [failed]
    exact errno.property.le
  · rw [written]
    dsimp only
    split_ifs with negative
    · exact negative.le
    · exact Int.le_refl 0

theorem truncateLoop_nonpos (env : Env) (proc : Nat) (dentry : Dentry)
    (iaSize total fuel truncatePos : Nat) (w : World) :
    (truncateLoop env proc dentry iaSize total fuel truncatePos w).1 ≤ 0 := by
  induction fuel generalizing truncatePos w with
  | zero => exact Int.le_refl 0
  | succ fuel ih =>
      simp only [truncateLoop]
      split_ifs
      · exact teadfsWrite_nonpos ..
      · exact ih ..
      · exact Int.le_refl 0

theorem truncateLoop_steady (env : Env) (proc : Nat) (dentry : Dentry)
    (iaSize total fuel truncatePos : Nat) (w : World) :
    Steady w (truncateLoop env proc dentry iaSize total fuel truncatePos w).2 := by
  induction fuel generalizing truncatePos w with
  | zero => exact .refl w
  | succ fuel ih =>
      simp only [truncateLoop]
      split_ifs
      · exact teadfsWrite_steady ..
      · exact (teadfsWrite_steady ..).trans (ih ..)
      · exact .refl w

/-- What `truncate_upper` can do: nothing, fail to allocate, write zeros, or cut. -/
theorem truncateUpper_cases (env : Env) (proc : Nat) (dentry : Dentry) (ia lowerIa : Iattr)
    (w : World) :
    (ia.iaSize = w.inode.iSize ∧
        truncateUpper env proc dentry ia lowerIa w = (0, { lowerIa with attrSize := false }, w)) ∨
      (w.inode.iSize < ia.iaSize ∧ env.zalloc w.chan.clock = false ∧
        truncateUpper env proc dentry ia lowerIa w =
          (enomem, { lowerIa with attrSize := false }, w.tick)) ∨
      (w.inode.iSize < ia.iaSize ∧ truncateUpper env proc dentry ia lowerIa w =
        let total := ia.iaSize - w.inode.iSize
        let r := truncateLoop env proc dentry ia.iaSize total total 0 w.tick
        (r.1, { lowerIa with attrSize := false }, r.2)) ∨
      (ia.iaSize < w.inode.iSize ∧ truncateUpper env proc dentry ia lowerIa w =
        (0, { lowerIa with attrSize := true, iaSize := ia.iaSize },
          truncateSetsize env ia.iaSize w)) := by
  rcases Nat.lt_trichotomy ia.iaSize w.inode.iSize with shrinks | same | grows
  · refine .inr (.inr (.inr ⟨shrinks, ?_⟩))
    rw [truncateUpper, if_neg shrinks.ne, if_neg shrinks.not_gt]
  · exact .inl ⟨same, by rw [truncateUpper, if_pos same]⟩
  · cases allocated : env.zalloc w.chan.clock with
    | false =>
        refine .inr (.inl ⟨grows, rfl, ?_⟩)
        simp only [truncateUpper, zalloc, if_neg grows.ne', if_pos grows, allocated, if_true]
    | true =>
        refine .inr (.inr (.inl ⟨grows, ?_⟩))
        simp only [truncateUpper, zalloc, if_neg grows.ne', if_pos grows, allocated,
          Bool.true_eq_false, if_false]

theorem truncateUpper_steady (env : Env) (proc : Nat) (dentry : Dentry) (ia lowerIa : Iattr)
    (w : World) : Steady w (truncateUpper env proc dentry ia lowerIa w).2.2 := by
  rcases truncateUpper_cases env proc dentry ia lowerIa w with
    ⟨-, same⟩ | ⟨-, -, noMemory⟩ | ⟨-, grown⟩ | ⟨-, cut⟩
  · rw [same]; exact .refl w
  · rw [noMemory]; exact ⟨rfl, rfl, rfl⟩
  · rw [grown]; exact truncateLoop_steady env proc dentry _ _ _ 0 w.tick
  · rw [cut]; exact ⟨rfl, rfl, rfl⟩

/-- `notify_change` fails and changes nothing, or sets the lower size if asked to. -/
theorem notifyChange_cases (env : Env) (ia : Iattr) (w : World) :
    (∃ errno : Errno, notifyChange env ia w = (errno.val, w.tick)) ∨
      notifyChange env ia w =
        (0, w.tick.setLower (if ia.attrSize then resize 0 ia.iaSize w.inode.lower
          else w.inode.lower)) := by
  cases answer : env.notifyChange w.chan.clock with
  | some errno => exact .inl ⟨errno, by simp only [notifyChange, answer]⟩
  | none =>
      refine .inr ?_
      simp only [notifyChange, answer]
      split <;> rfl

/-- Without a size, `notify_change` leaves the inode alone. -/
theorem notifyChange_inode (env : Env) {ia : Iattr} (noSize : ia.attrSize = false) (w : World) :
    (notifyChange env ia w).2.inode = w.inode := by
  rcases notifyChange_cases env ia w with ⟨errno, refused⟩ | done
  · rw [refused]
    rfl
  · rw [done, noSize]
    rfl

theorem notifyChange_steady (env : Env) (ia : Iattr) (w : World) :
    Steady w (notifyChange env ia w).2 := by
  rcases notifyChange_cases env ia w with ⟨errno, failed⟩ | done
  · rw [failed]; exact ⟨rfl, rfl, rfl⟩
  · rw [done]; exact ⟨rfl, rfl, rfl⟩

theorem teadfsTruncate_steady (env : Env) (proc : Nat) (dentry : Dentry) (newLength : Nat)
    (w : World) : Steady w (teadfsTruncate env proc dentry newLength w).2 := by
  have upper := truncateUpper_steady env proc dentry
    ⟨true, newLength, false, false, false, false⟩ ⟨false, 0, false, false, false, false⟩ w
  simp only [teadfsTruncate]
  split
  · exact upper.trans (notifyChange_steady ..)
  · exact upper

/-- `teadfs_truncate` to a larger size, if it goes through, sets it. -/
theorem teadfsTruncate_iSize {env : Env} {proc : Nat} {dentry : Dentry} {newLength : Nat}
    {w : World} (grows : w.inode.iSize < newLength)
    (success : (teadfsTruncate env proc dentry newLength w).1 = 0) :
    (teadfsTruncate env proc dentry newLength w).2.inode.iSize = newLength := by
  have failed : enomem ≠ 0 := by decide
  rcases truncateUpper_cases env proc dentry ⟨true, newLength, false, false, false, false⟩
    ⟨false, 0, false, false, false, false⟩ w with ⟨same, -⟩ | ⟨-, -, t⟩ | ⟨-, t⟩ | ⟨shrinks, -⟩
  · exact absurd same grows.ne'
  · simp only [teadfsTruncate, t, Bool.false_eq_true, and_false, if_false] at success
    exact absurd success failed
  · simp only [teadfsTruncate, t, Bool.false_eq_true, and_false, if_false] at success ⊢
    have left : w.tick.inode.iSize + (newLength - w.inode.iSize - 0) = newLength := by
      rw [World.tick_inode]
      omega
    exact truncateLoop_iSize (Nat.sub_le _ _) left success.ge
  · exact absurd shrinks grows.not_gt

theorem truncateUpper_nonpos (env : Env) (proc : Nat) (dentry : Dentry) (ia lowerIa : Iattr)
    (w : World) : (truncateUpper env proc dentry ia lowerIa w).1 ≤ 0 := by
  rcases truncateUpper_cases env proc dentry ia lowerIa w with
    ⟨-, t⟩ | ⟨-, -, t⟩ | ⟨-, t⟩ | ⟨-, t⟩
  · rw [t]
  · rw [t]; exact (by decide : enomem ≤ 0)
  · rw [t]; exact truncateLoop_nonpos ..
  · rw [t]

theorem teadfsTruncate_nonpos (env : Env) (proc : Nat) (dentry : Dentry) (newLength : Nat)
    (w : World) : (teadfsTruncate env proc dentry newLength w).1 ≤ 0 := by
  have upper := truncateUpper_nonpos env proc dentry
    ⟨true, newLength, false, false, false, false⟩ ⟨false, 0, false, false, false, false⟩ w
  simp only [teadfsTruncate]
  split
  · rcases notifyChange_cases env _ _ with ⟨errno, failed⟩ | done
    · rw [failed]
      exact errno.property.le
    · rw [done]
  · exact upper

/-- What a size change can do: be refused, fail in `truncate_upper`, or hand the
attributes that are left over to the lower file system. -/
theorem teadfsSetattr_cases (env : Env) (proc : Nat) (dentry : Dentry) (n : Nat) (byHandle : Bool)
    (w : World) :
    (∃ errno : Errno, teadfsSetattr env proc dentry (sizeChange n byHandle) w =
        (errno.val, w.tick)) ∨
      teadfsSetattr env proc dentry (sizeChange n byHandle) w =
        let t := truncateUpper env proc dentry (sizeChange n byHandle) (sizeChange n byHandle) w.tick
        if t.1 < 0 then (t.1, t.2.2) else notifyChange env t.2.1 t.2.2 := by
  have kill : (truncateUpper env proc dentry (sizeChange n byHandle) (sizeChange n byHandle)
      w.tick).2.1.attrKillSuid = false ∧ (truncateUpper env proc dentry (sizeChange n byHandle)
      (sizeChange n byHandle) w.tick).2.1.attrKillSgid = false := by
    rcases truncateUpper_cases env proc dentry (sizeChange n byHandle) (sizeChange n byHandle)
      w.tick with ⟨-, t⟩ | ⟨-, -, t⟩ | ⟨-, t⟩ | ⟨-, t⟩ <;> rw [t] <;> exact ⟨rfl, rfl⟩
  cases answer : env.inodeChangeOk w.chan.clock with
  | some errno => exact .inl ⟨errno, by simp only [teadfsSetattr, answer]⟩
  | none =>
      refine .inr ?_
      have size : (sizeChange n byHandle).attrSize = true := rfl
      simp only [teadfsSetattr, answer, size, if_true, kill, Bool.false_eq_true, or_self, if_false]

theorem teadfsSetattr_steady (env : Env) (proc : Nat) (dentry : Dentry) (n : Nat)
    (byHandle : Bool) (w : World) :
    Steady w (teadfsSetattr env proc dentry (sizeChange n byHandle) w).2 := by
  have upper : Steady w (truncateUpper env proc dentry (sizeChange n byHandle)
      (sizeChange n byHandle) w.tick).2.2 :=
    truncateUpper_steady env proc dentry _ _ w.tick
  rcases teadfsSetattr_cases env proc dentry n byHandle w with ⟨errno, refused⟩ | ran
  · rw [refused]; exact ⟨rfl, rfl, rfl⟩
  · rw [ran]
    dsimp only
    split_ifs
    · exact upper
    · exact upper.trans (notifyChange_steady ..)

/-! ## Pages -/

section FillPage

variable (env : Env) (proc : Nat) (file : FileInfo) (index : Nat) (w : World)

@[simp] theorem fillPage_lower : (fillPage env proc file index w).2.inode.lower = w.inode.lower := by
  simp [fillPage]

@[simp] theorem fillPage_iSize : (fillPage env proc file index w).2.inode.iSize = w.inode.iSize := by
  simp [fillPage]

theorem fillPage_steady : Steady w (fillPage env proc file index w).2 :=
  teadfsReadLower_steady env proc file _ _ w

theorem fillPage_nonpos : (fillPage env proc file index w).1 ≤ 0 := by
  simp only [fillPage]
  split <;> omega

/-- A fill whose read comes back with a count is a success, and leaves what was read. -/
theorem fillPage_of_read {n : Nat}
    (read : (teadfsReadLower env proc file (w.page file.view index).data (index * pageCacheSize)
      w).1 = n) :
    (fillPage env proc file index w).1 = 0 ∧
      (fillPage env proc file index w).2.page file.view index =
        ⟨true, (teadfsReadLower env proc file (w.page file.view index).data
          (index * pageCacheSize) w).2.1⟩ := by
  have success : (if (0 : Int) < n then (0 : Int) else n) = 0 := by
    split <;> omega
  simp only [fillPage, read, success, World.page_setPage_self, decide_true, and_self]

/-- Only the page that was asked for is filled. -/
theorem fillPage_page_of_ne {index' : Nat} (ne : index' ≠ index) (view : View) :
    (fillPage env proc file index w).2.page view index' = w.page view index' := by
  rw [fillPage, World.page_setPage_of_ne _ _ _ _ ne, World.page, teadfsReadLower_inode]
  rfl

end FillPage

/-- The page of a write, as `treadfs_write_begin` reads it in. -/
def pageForWrite (env : Env) (proc : Nat) (file : FileInfo) (index : Nat) (w : World) :
    Int × World :=
  if (w.page file.view index).uptodate then (0, w.tick) else fillPage env proc file index w.tick

/-- `treadfs_write_begin`, behind the page it reads in. -/
theorem treadfsWriteBegin_eq (env : Env) (proc : Nat) (dentry : Dentry) (file : FileInfo)
    (pos : Nat) (w : World) :
    treadfsWriteBegin env proc dentry file pos w =
      let filled := pageForWrite env proc file (pos / pageCacheSize) w
      if env.grabPage w.chan.clock = false then (enomem, w.tick)
      else if filled.1 ≠ 0 then filled
      else
        let grown :=
          if pos / pageCacheSize ≠ 0 ∧
              filled.2.inode.iSize < pos / pageCacheSize * pageCacheSize then
            teadfsTruncate env proc dentry (pos / pageCacheSize * pageCacheSize) filled.2
          else (0, filled.2)
        if grown.1 ≠ 0 then grown
        else if grown.2.inode.iSize = pos / pageCacheSize * pageCacheSize ∧ pos ≠ 0 then
          (0, grown.2.setPage file.view (pos / pageCacheSize)
            ⟨(grown.2.page file.view (pos / pageCacheSize)).uptodate, fun _ => 0⟩)
        else (0, grown.2) :=
  rfl

/-- `treadfs_write_begin` of a page that does not start beyond `i_size`: the page is read in,
and zeroed if it starts at `i_size`. -/
theorem treadfsWriteBegin_inside {env : Env} {proc : Nat} (dentry : Dentry) {file : FileInfo}
    {pos : Nat} {w : World} (grabbed : env.grabPage w.chan.clock = true)
    (ready : (pageForWrite env proc file (pos / pageCacheSize) w).1 = 0)
    (inside : pos / pageCacheSize * pageCacheSize ≤
      (pageForWrite env proc file (pos / pageCacheSize) w).2.inode.iSize) :
    treadfsWriteBegin env proc dentry file pos w =
      let w' := (pageForWrite env proc file (pos / pageCacheSize) w).2
      (0, if w'.inode.iSize = pos / pageCacheSize * pageCacheSize ∧ pos ≠ 0 then
        w'.setPage file.view (pos / pageCacheSize)
          ⟨(w'.page file.view (pos / pageCacheSize)).uptodate, fun _ => 0⟩
      else w') := by
  rw [treadfsWriteBegin_eq]
  simp only [grabbed, ready, Nat.not_lt.mpr inside, and_false, Bool.true_eq_false, ne_eq, not_true,
    if_false]
  split <;> rfl

/-- `treadfs_write_begin` of a page that starts beyond `i_size`: the page is read in, the file
is extended up to it, and the page is zeroed. -/
theorem treadfsWriteBegin_beyond {env : Env} {proc : Nat} {dentry : Dentry} {file : FileInfo}
    {pos : Nat} {w : World} (grabbed : env.grabPage w.chan.clock = true)
    (ready : (pageForWrite env proc file (pos / pageCacheSize) w).1 = 0)
    (beyond : (pageForWrite env proc file (pos / pageCacheSize) w).2.inode.iSize <
      pos / pageCacheSize * pageCacheSize) :
    treadfsWriteBegin env proc dentry file pos w =
      let grown := teadfsTruncate env proc dentry (pos / pageCacheSize * pageCacheSize)
        (pageForWrite env proc file (pos / pageCacheSize) w).2
      if grown.1 ≠ 0 then grown
      else (0, grown.2.setPage file.view (pos / pageCacheSize)
        ⟨(grown.2.page file.view (pos / pageCacheSize)).uptodate, fun _ => 0⟩) := by
  have behind : pos / pageCacheSize ≠ 0 := by
    intro first
    rw [first, Nat.zero_mul] at beyond
    exact Nat.not_lt_zero _ beyond
  have later : pos ≠ 0 := by
    rintro rfl
    exact behind (Nat.zero_div _)
  rw [treadfsWriteBegin_eq]
  simp only [grabbed, ready, behind, beyond, later, Bool.true_eq_false, ne_eq, not_true,
    not_false_iff, and_true, if_true, if_false]
  by_cases went : (teadfsTruncate env proc dentry (pos / pageCacheSize * pageCacheSize)
      (pageForWrite env proc file (pos / pageCacheSize) w).2).1 = 0
  · rw [if_neg (not_not.mpr went), if_neg (not_not.mpr went),
      if_pos (teadfsTruncate_iSize beyond went)]
  · rw [if_pos went, if_pos went]

/-- What `treadfs_write_begin` can do: stop without a page, at a failed fill or at a
failed truncate; or succeed, with the hole below the page filled if there was one, and
perhaps the page zeroed. -/
theorem treadfsWriteBegin_cases (env : Env) (proc : Nat) (dentry : Dentry) (file : FileInfo)
    (pos : Nat) (w : World) :
    treadfsWriteBegin env proc dentry file pos w = (enomem, w.tick) ∨
      ((pageForWrite env proc file (pos / pageCacheSize) w).1 ≠ 0 ∧
        treadfsWriteBegin env proc dentry file pos w =
          pageForWrite env proc file (pos / pageCacheSize) w) ∨
      ((pageForWrite env proc file (pos / pageCacheSize) w).1 = 0 ∧
        ∃ grown : Int × World,
          ((pageForWrite env proc file (pos / pageCacheSize) w).2.inode.iSize <
                pos / pageCacheSize * pageCacheSize ∧
              grown = teadfsTruncate env proc dentry (pos / pageCacheSize * pageCacheSize)
                (pageForWrite env proc file (pos / pageCacheSize) w).2 ∨
            pos / pageCacheSize * pageCacheSize ≤
                (pageForWrite env proc file (pos / pageCacheSize) w).2.inode.iSize ∧
              grown = (0, (pageForWrite env proc file (pos / pageCacheSize) w).2)) ∧
          (grown.1 ≠ 0 ∧ treadfsWriteBegin env proc dentry file pos w = grown ∨
            grown.1 = 0 ∧ ∃ frame : FrameBytes,
              treadfsWriteBegin env proc dentry file pos w =
                (0, grown.2.setPage file.view (pos / pageCacheSize)
                  ⟨(grown.2.page file.view (pos / pageCacheSize)).uptodate, frame⟩))) := by
  have unfolded := treadfsWriteBegin_eq env proc dentry file pos w
  generalize pageForWrite env proc file (pos / pageCacheSize) w = filled at unfolded ⊢
  rw [unfolded]
  dsimp only
  by_cases noPage : env.grabPage w.chan.clock = false
  · exact .inl (if_pos noPage)
  rw [if_neg noPage]
  by_cases notFilled : filled.1 ≠ 0
  · exact .inr (.inl ⟨notFilled, if_pos notFilled⟩)
  refine .inr (.inr ⟨not_not.mp notFilled, ?_⟩)
  rw [if_neg notFilled]
  obtain ⟨grown, grow⟩ : ∃ grown : Int × World, grown =
      if pos / pageCacheSize ≠ 0 ∧ filled.2.inode.iSize < pos / pageCacheSize * pageCacheSize then
        teadfsTruncate env proc dentry (pos / pageCacheSize * pageCacheSize) filled.2
      else (0, filled.2) := ⟨_, rfl⟩
  simp only [← grow]
  refine ⟨grown, ?_, ?_⟩
  · by_cases hole : pos / pageCacheSize ≠ 0 ∧
        filled.2.inode.iSize < pos / pageCacheSize * pageCacheSize
    · exact .inl ⟨hole.2, by rw [grow, if_pos hole]⟩
    · refine .inr ⟨?_, by rw [grow, if_neg hole]⟩
      by_cases first : pos / pageCacheSize = 0
      · rw [first, Nat.zero_mul]
        exact Nat.zero_le _
      · exact Nat.not_lt.mp fun less => hole ⟨first, less⟩
  · by_cases failed : grown.1 ≠ 0
    · exact .inl ⟨failed, if_pos failed⟩
    · refine .inr ⟨not_not.mp failed, ?_⟩
      rw [if_neg failed]
      split
      · exact ⟨_, rfl⟩
      · refine ⟨(grown.2.page file.view (pos / pageCacheSize)).data, ?_⟩
        rw [World.setPage_self]

theorem treadfsWriteBegin_nonpos (env : Env) (proc : Nat) (dentry : Dentry) (file : FileInfo)
    (pos : Nat) (w : World) : (treadfsWriteBegin env proc dentry file pos w).1 ≤ 0 := by
  have filled : (pageForWrite env proc file (pos / pageCacheSize) w).1 ≤ 0 := by
    unfold pageForWrite
    split
    · exact Int.le_refl 0
    · exact fillPage_nonpos ..
  rcases treadfsWriteBegin_cases env proc dentry file pos w with
    noPage | ⟨-, stopped⟩ | ⟨-, grown, grow, ⟨-, stopped⟩ | ⟨-, frame, done⟩⟩
  · rw [noPage]; exact (by decide : enomem ≤ 0)
  · rw [stopped]; exact filled
  · rw [stopped]
    rcases grow with ⟨-, rfl⟩ | ⟨-, rfl⟩
    · exact teadfsTruncate_nonpos ..
    · exact Int.le_refl 0
  · rw [done]

/-- Positions in another page are outside a range that stays in its own. -/
theorem outside_of_page_ne {index pos len : Nat} (other : index ≠ pos / pageCacheSize)
    (bounded : pos % pageCacheSize + len ≤ pageCacheSize) (i : Fin pageCacheSize) :
    index * pageCacheSize + i < pos ∨ pos + len ≤ index * pageCacheSize + i := by
  have split := Nat.div_add_mod' pos pageCacheSize
  rcases Nat.lt_or_gt_of_ne other with less | more
  · have := Nat.mul_le_mul_right pageCacheSize (Nat.succ_le_of_lt less)
    rw [Nat.succ_mul] at this
    omega
  · have := Nat.mul_le_mul_right pageCacheSize (Nat.succ_le_of_lt more)
    rw [Nat.succ_mul] at this
    omega

/-- The first piece of a write that has bytes left has some of them, in one page. -/
theorem chunkLen_bounds {pos : Nat} {data : List UInt8} (block : data ≠ []) :
    0 < chunkLen pos data ∧ chunkLen pos data ≤ data.length ∧
      pos % pageCacheSize + chunkLen pos data ≤ pageCacheSize ∧
      (data.take (chunkLen pos data)).length = chunkLen pos data := by
  have some_left := List.length_pos_iff.mpr block
  have inPage := Nat.mod_lt pos (show 0 < pageCacheSize by decide)
  rw [List.length_take, chunkLen]
  omega

/-- The block copied into a page is what `teadfs_write_end` finds there. -/
theorem window_copyToPage (file : FileInfo) {pos : Nat} {data : List UInt8}
    (bounded : pos % pageCacheSize + data.length ≤ pageCacheSize) (w : World) :
    window ((copyToPage file pos data w).page file.view (pos / pageCacheSize)).data
      (pos % pageCacheSize) data.length = data := by
  rw [copyToPage, World.page_setPage_self, window_overlay bounded (Nat.le_refl _), List.take_length]

theorem teadfsWriteEnd_steady (env : Env) (proc : Nat) (file : FileInfo)
    (pos len copied : Nat) (w : World) :
    Steady w (teadfsWriteEnd env proc file pos len copied w).2 := by
  have same := teadfsWriteLower_steady env proc file
  unfold teadfsWriteEnd
  dsimp only
  split_ifs <;> exact same _ _ _

end Teadfs
