/-
# Teadfs.Appends — handles opened with O_APPEND, and the bytes in front of a write

`teadfs_open` hands the flags of a handle on to its lower file. A handle opened with
`O_APPEND` therefore appends twice: the kernel starts its writes at the upper `i_size`
(`writePos`), and each `kernel_write` then goes to the end of the lower file, wherever
`teadfs_write_lower` meant it to go (`writtenAt`).

What holds of both kinds of write, whatever the environment answers, is that nothing is
changed in front of the place they are made at (`first_bytes_kept`): not by short writes, by
upcalls that fail, by verdicts that differ from one call to the next, or by the zeros of
`treadfs_write_begin`. With whole lower writes and a client that answers, appending writes
are stored one behind the other, each as far as it has said (`appends_in_order`).
-/
import Teadfs.Coherence

namespace Teadfs

set_option autoImplicit false

open Protocol FileContent Frame

/-! ## One lower write -/

/-- What `teadfs_write_lower` can do: stop with an error before its lower write, the inode as
it was, or end with the lower write of what the data became. -/
theorem teadfsWriteLower_goes (env : Env) (proc : Nat) (file : FileInfo)
    (data : List UInt8) (offset : Nat) (w : World) :
    (∃ rc w', rc < 0 ∧ w'.inode = w.inode ∧ Steady w w' ∧
        teadfsWriteLower env proc file data offset w = (rc, w')) ∨
      ∃ w', w'.inode = w.inode ∧ Steady w w' ∧
        (file.access = .decrypt →
          0 ≤ (teadfsRequestWrite env proc offset data data.length w.tick).1) ∧
        teadfsWriteLower env proc file data offset w =
          kernelWrite env file.append (lowerBlock env proc file data offset w)
            (lowerOffset file offset) w' := by
  have failed : eio < 0 := by decide
  have asked : Steady w (teadfsRequestWrite env proc offset data data.length w.tick).2.2 :=
    requestBlock_steady env proc .write _ data data.length w.tick
  have kept : (teadfsRequestWrite env proc offset data data.length w.tick).2.2.inode = w.inode :=
    requestBlock_inode env proc .write _ data data.length w.tick
  cases opened : file.lowerFile with
  | none =>
      refine .inl ⟨eio, w, failed, rfl, .refl w, ?_⟩
      simp only [teadfsWriteLower, opened]
  | some ref =>
      simp only [teadfsWriteLower, opened, zalloc, lowerBlock, lowerOffset]
      by_cases noMemory : env.zalloc w.chan.clock = false
      · simp only [noMemory, if_true]
        exact .inl ⟨eio, w.tick, failed, rfl, ⟨rfl, rfl, rfl⟩, rfl⟩
      simp only [noMemory, Bool.true_eq_false, if_false]
      by_cases encrypt : file.access = .encrypt
      · simp only [encrypt, if_true]
        exact .inl ⟨eio, w.tick, failed, rfl, ⟨rfl, rfl, rfl⟩, rfl⟩
      simp only [encrypt, if_false]
      by_cases decrypt : file.access = .decrypt
      · simp only [decrypt, if_true]
        by_cases refused : (teadfsRequestWrite env proc offset data data.length w.tick).1 < 0
        · simp only [refused, if_true]
          exact .inl ⟨eio, _, failed, kept, asked, rfl⟩
        · simp only [refused, if_false]
          exact .inr ⟨_, kept, asked, fun _ => Int.not_lt.mp refused, rfl⟩
      · simp only [decrypt, if_false]
        exact .inr ⟨w.tick, rfl, ⟨rfl, rfl, rfl⟩, fun other => other.elim, rfl⟩

/-! ## The bytes in front -/

/-- The lower file starts with `front`, and the upper size is not below its end. -/
def Starts (front : List UInt8) (w : World) : Prop :=
  front <+: w.inode.lower ∧ front.length ≤ w.inode.iSize

section Front

variable {front : List UInt8} {w w' : World}

theorem Starts.congr (starts : Starts front w) (lower : w'.inode.lower = w.inode.lower)
    (size : w'.inode.iSize = w.inode.iSize) : Starts front w' := by
  rw [Starts, lower, size]
  exact starts

theorem Starts.of_inode (starts : Starts front w) (same : w'.inode = w.inode) : Starts front w' :=
  starts.congr (congrArg _ same) (congrArg _ same)

/-- The size may be set to that of the lower file. -/
theorem Starts.setLowerSize (starts : Starts front w) :
    Starts front (w.setSize w.inode.lower.length) :=
  ⟨starts.1, starts.1.length_le⟩

variable (env : Env) (proc : Nat) (dentry : Dentry) (file : FileInfo)

/-- A lower write at the end of the lower file or behind the first bytes leaves them. -/
theorem Starts.kernelWrite (starts : Starts front w) {append : Bool} {offset : Nat}
    (behind : append = true ∨ front.length ≤ offset) (data : List UInt8) :
    Starts front (kernelWrite env append data offset w).2 := by
  rcases kernelWrite_cases env append data offset w with ⟨errno, failed⟩ | ⟨sent, -, stored⟩
  · rw [failed]
    exact starts
  · rw [stored]
    refine ⟨prefix_write 0 sent starts.1 ?_, starts.2⟩
    unfold writtenAt
    split
    · exact starts.1.length_le
    · rename_i plain
      exact behind.resolve_left plain

theorem Starts.writeLower (starts : Starts front w) {offset : Nat}
    (behind : file.append = true ∨ front.length ≤ offset) (data : List UInt8) :
    Starts front (teadfsWriteLower env proc file data offset w).2 := by
  rcases teadfsWriteLower_goes env proc file data offset w with
    ⟨rc, w', -, same, -, stopped⟩ | ⟨w', same, -, -, written⟩
  · rw [stopped]
    exact starts.of_inode same
  · rw [written]
    have later : offset ≤ lowerOffset file offset := by
      unfold lowerOffset
      split <;> omega
    exact (starts.of_inode same).kernelWrite env
      (behind.imp_right fun far => far.trans later) _

/-! The zeros of an extension go behind `i_size`. -/

theorem Starts.write (starts : Starts front w) {offset : Nat} (behind : front.length ≤ offset)
    (data : List UInt8) : Starts front (teadfsWrite env proc dentry data offset w).2 := by
  rcases teadfsWrite_cases env proc dentry data offset w with
    ⟨errno, -, refused⟩ | ⟨ref, w', -, inode, -, -, written⟩
  · rw [refused]
    exact starts.of_inode (teadfsRequestOpenPath_inode env proc dentry w)
  · have opened : Starts front w' := starts.congr (by rw [inode]) (by rw [inode])
    have stored := opened.writeLower env proc
      ⟨some ref, .ofCode (teadfsRequestOpenPath env proc dentry w).1, [], false⟩
      (.inr (Nat.le_min.mpr ⟨starts.2, behind⟩)) data
    rw [written]
    dsimp only
    split
    · exact stored
    · exact ⟨stored.1, starts.2.trans (Nat.le_max_left ..)⟩

theorem Starts.truncateLoop (starts : Starts front w) {iaSize : Nat}
    (behind : front.length ≤ iaSize) (total fuel truncatePos : Nat) :
    Starts front (truncateLoop env proc dentry iaSize total fuel truncatePos w).2 := by
  induction fuel generalizing truncatePos w with
  | zero => exact starts
  | succ fuel ih =>
      have page := starts.write env proc dentry
        (behind.trans (Nat.le_add_right iaSize truncatePos))
        (List.replicate (min (total - truncatePos) pageCacheSize) 0)
      simp only [Teadfs.truncateLoop]
      split_ifs
      · exact page
      · exact ih page _
      · exact starts

theorem Starts.notifyChange (starts : Starts front w) {ia : Iattr}
    (behind : ia.attrSize = true → front.length ≤ ia.iaSize) :
    Starts front (notifyChange env ia w).2 := by
  rcases notifyChange_cases env ia w with ⟨errno, refused⟩ | done
  · rw [refused]
    exact starts
  · rw [done]
    refine ⟨?_, starts.2⟩
    show front <+: if ia.attrSize = true then resize 0 ia.iaSize w.inode.lower else w.inode.lower
    split
    · rename_i sized
      exact prefix_resize 0 starts.1 (behind sized)
    · exact starts.1

/-- `truncate_upper` leaves the first bytes, and what it hands on does too. -/
theorem Starts.truncateUpper (starts : Starts front w) (ia lowerIa : Iattr)
    (behind : front.length ≤ ia.iaSize) :
    Starts front (truncateUpper env proc dentry ia lowerIa w).2.2 ∧
      ((truncateUpper env proc dentry ia lowerIa w).2.1.attrSize = true →
        front.length ≤ (truncateUpper env proc dentry ia lowerIa w).2.1.iaSize) := by
  rcases truncateUpper_cases env proc dentry ia lowerIa w with
    ⟨-, t⟩ | ⟨-, -, t⟩ | ⟨-, t⟩ | ⟨-, t⟩ <;> rw [t]
  · exact ⟨starts, fun sized => (by cases sized)⟩
  · exact ⟨starts, fun sized => (by cases sized)⟩
  · exact ⟨starts.truncateLoop (w := w.tick) env proc dentry behind _ _ 0,
      fun sized => (by cases sized)⟩
  · exact ⟨⟨starts.1, behind⟩, fun _ => behind⟩

theorem Starts.truncate (starts : Starts front w) {newLength : Nat}
    (behind : front.length ≤ newLength) :
    Starts front (teadfsTruncate env proc dentry newLength w).2 := by
  obtain ⟨upper, handed⟩ := starts.truncateUpper env proc dentry
    ⟨true, newLength, false, false, false, false⟩ ⟨false, 0, false, false, false, false⟩ behind
  simp only [teadfsTruncate]
  split
  · exact upper.notifyChange env handed
  · exact upper

theorem Starts.setattr (starts : Starts front w) {n : Nat} (behind : front.length ≤ n)
    (byHandle : Bool) :
    Starts front (teadfsSetattr env proc dentry (sizeChange n byHandle) w).2 := by
  rcases teadfsSetattr_cases env proc dentry n byHandle w with ⟨errno, refused⟩ | ran
  · rw [refused]
    exact starts
  · obtain ⟨upper, handed⟩ := Starts.truncateUpper (w := w.tick) env proc dentry starts
      (sizeChange n byHandle) (sizeChange n byHandle) behind
    rw [ran]
    dsimp only
    split
    · exact upper
    · exact upper.notifyChange env handed

/-! A write that begins fills a page, and an extension if there is one; neither is in front. -/

theorem Starts.writeBegin (starts : Starts front w) (pos : Nat) :
    Starts front (treadfsWriteBegin env proc dentry file pos w).2 := by
  have filled : Starts front (pageForWrite env proc file (pos / pageCacheSize) w).2 :=
    starts.congr (pageForWrite_untouched env proc file _ w).2 (pageForWrite_iSize ..)
  rcases treadfsWriteBegin_cases env proc dentry file pos w with
    noPage | ⟨-, stopped⟩ | ⟨-, grown, grow, ending⟩
  · rw [noPage]
    exact starts
  · rw [stopped]
    exact filled
  · have grows : Starts front grown.2 := by
      rcases grow with ⟨beyond, rfl⟩ | ⟨-, rfl⟩
      · exact filled.truncate env proc dentry (filled.2.trans beyond.le)
      · exact filled
    rcases ending with ⟨-, stopped⟩ | ⟨-, frame, done⟩
    · rw [stopped]
      exact grows
    · rw [done]
      exact grows

theorem Starts.writeEnd (starts : Starts front w) {pos : Nat}
    (behind : file.append = true ∨ front.length ≤ pos) (len copied : Nat) :
    Starts front (teadfsWriteEnd env proc file pos len copied w).2 := by
  have stored := fun block => starts.writeLower env proc file behind block
  simp only [teadfsWriteEnd]
  split_ifs
  · exact stored _
  · exact (stored _).setLowerSize
  · exact stored _
  · exact (stored _).setLowerSize

theorem Starts.writeChunk (starts : Starts front w) {pos : Nat}
    (behind : file.append = true ∨ front.length ≤ pos) (data : List UInt8) (copied : Nat) :
    Starts front (writeChunk env proc dentry file pos data copied w).2 := by
  have begun := starts.writeBegin env proc dentry file pos
  simp only [Teadfs.writeChunk]
  split
  · exact begun
  · exact Starts.writeEnd (w := copyToPage file pos (data.take copied) _) env proc file begun
      behind _ _

theorem Starts.performWrite (starts : Starts front w) {pos : Nat}
    (behind : file.append = true ∨ front.length ≤ pos) (fuel : Nat) (data : List UInt8) :
    Starts front (genericPerformWrite env proc dentry file fuel pos data w).2 := by
  induction fuel generalizing pos data w with
  | zero => exact starts
  | succ fuel ih =>
      have chunk := starts.writeChunk env proc dentry file behind
        (data.take (chunkLen pos data)) (chunkLen pos data)
      have next := behind.imp_right fun far => far.trans (Nat.le_add_right pos (chunkLen pos data))
      simp only [genericPerformWrite]
      split_ifs
      · exact starts
      · exact chunk
      · exact ih chunk next _
      · exact ih chunk next _

theorem Starts.aioWrite (starts : Starts front w) {pos : Nat}
    (behind : file.append = true ∨ front.length ≤ pos) (data : List UInt8) :
    Starts front (teadfsAioWrite env proc dentry file pos data w).2 := by
  have written : Starts front (genericPerformWrite env proc dentry file data.length
      (writePos file pos w) data w).2 := by
    refine starts.performWrite env proc dentry file ?_ _ data
    unfold writePos
    split
    · exact .inr starts.2
    · exact behind
  simp only [teadfsAioWrite]
  split
  · exact written
  · exact written

theorem Starts.read (starts : Starts front w) (fuel pos count : Nat) :
    Starts front (genericReadLoop env proc file fuel pos count w).2.2 := by
  induction fuel generalizing pos count w with
  | zero => exact starts
  | succ fuel ih =>
      have filled : Starts front (teadfsReadpage env proc file (pos / pageCacheSize) w).2 :=
        starts.congr (fillPage_lower ..) (fillPage_iSize ..)
      simp only [genericReadLoop]
      split_ifs
      · exact starts
      · exact starts
      · exact ih starts _ _
      · exact ih starts _ _
      · exact filled
      · exact ih filled _ _
      · exact ih filled _ _

end Front

/-! ## Runs -/

/-- The operation is made behind the first `n` bytes: a write at the end of the file or from
`n` on, a size change to `n` or more. -/
def CacheOp.Behind (n : Nat) : CacheOp → Prop
  | .write _ file pos _ => file.append = true ∨ n ≤ pos
  | .setSize _ _ size => n ≤ size
  | _ => True

instance (n : Nat) (op : CacheOp) : Decidable (op.Behind n) :=
  match op with
  | .open _ _ _ => inferInstanceAs (Decidable True)
  | .release _ _ _ => inferInstanceAs (Decidable True)
  | .read _ _ _ _ => inferInstanceAs (Decidable True)
  | .write _ _ _ _ => inferInstanceAs (Decidable (_ ∨ _))
  | .setSize _ _ _ => inferInstanceAs (Decidable (_ ≤ _))

theorem Starts.run {front : List UInt8} {w : World} (starts : Starts front w) {op : CacheOp}
    (behind : op.Behind front.length) (env : Env) (dentry : Dentry) :
    Starts front (op.run env dentry w) := by
  cases op with
  | «open» proc flags fileId =>
      have same := teadfsOpen_sameFile env proc dentry flags fileId w
      exact starts.congr same.lower same.size
  | release proc file fileId =>
      have same := teadfsRelease_sameFile env proc dentry file fileId w
      exact starts.congr same.lower same.size
  | read proc file pos count => exact starts.read env proc file count pos count
  | write proc file pos data => exact starts.aioWrite env proc dentry file behind data
  | setSize proc file n => exact starts.setattr env proc dentry behind true

/-- **What lies in front stays.** Whatever the environment answers: in a run of operations on a
file of which each is made behind the first bytes, appending writes among them, the lower file
goes on to start with these bytes. -/
theorem first_bytes_kept (env : Env) (dentry : Dentry) {front : List UInt8} {w : World}
    (starts : Starts front w) {ops : List CacheOp}
    (behind : ∀ op ∈ ops, op.Behind front.length) :
    Starts front (ops.foldl (fun w op => op.run env dentry w) w) := by
  induction ops generalizing w with
  | nil => exact starts
  | cons op ops ih =>
      have first := starts.run (behind op (List.mem_cons_self ..)) env dentry
      exact ih first fun op later => behind op (List.mem_cons_of_mem _ later)

/-- The client decrypts for everyone, and a lower write stores one byte. -/
def oneByteEnv : Env := { clientEnv (xorCb .decrypt) with kernelWrite := fun _ => .short 1 }

/-- Behind the label: a decrypting append, a raw write over the end, and a growth. -/
def behindLabel : List CacheOp :=
  [.write 7 (appendFile .decrypt) 0 [9, 9], .write 8 (exampleFile .init) 256 [4, 5],
    .setSize 7 (exampleFile .decrypt) 5000]

theorem first_bytes_kept_behindLabel :
    Starts shippedLabel
      (behindLabel.foldl (fun w op => op.run oneByteEnv exampleDentry w) cachedFile) := by
  have starts : shippedLabel <+: cachedFile.inode.lower := List.prefix_append ..
  exact first_bytes_kept oneByteEnv exampleDentry ⟨starts, starts.length_le⟩ (by decide +kernel)

/-! ## Appending, one after the other -/

/-- A write through a handle opened with `O_APPEND`. -/
structure AppendCall where
  proc : Nat
  file : FileInfo
  append : file.append = true
  data : List UInt8

namespace AppendCall

def run (env : Env) (dentry : Dentry) (call : AppendCall) (w : World) : Int × World :=
  teadfsAioWrite env call.proc dentry call.file 0 call.data w

/-- What a write that returned `rc` has told of, as its view is stored. -/
def told (enc : Equiv.Perm UInt8) (call : AppendCall) (rc : Int) : List UInt8 :=
  (call.data.take rc.toNat).map (call.file.view.cipher enc)

end AppendCall

/-- Appending writes one after the other: what they have told of, and the file then. -/
def appends (env : Env) (dentry : Dentry) (enc : Equiv.Perm UInt8) :
    List AppendCall → World → List UInt8 × World
  | [], w => ([], w)
  | call :: calls, w =>
      let r := call.run env dentry w
      let rest := appends env dentry enc calls r.2
      (call.told enc r.1 ++ rest.1, rest.2)

/-- The block has been put at the end of the lower file, and the size is the lower one. -/
def Appended (block : List UInt8) (w w' : World) : Prop :=
  w'.inode.lower = w.inode.lower ++ block ∧ w'.inode.iSize = w'.inode.lower.length

theorem Appended.nothing {w w' : World} (agree : w.inode.iSize = w.inode.lower.length)
    (lower : w'.inode.lower = w.inode.lower) (size : w'.inode.iSize = w.inode.iSize) :
    Appended [] w w' :=
  ⟨by rw [lower, List.append_nil], by rw [lower, size, agree]⟩

theorem Appended.trans {first second : List UInt8} {w w' w'' : World}
    (one : Appended first w w') (two : Appended second w' w'') :
    Appended (first ++ second) w w'' :=
  ⟨by rw [two.1, one.1, List.append_assoc], two.2⟩

/-- At the end of the file a write begins without an extension. -/
theorem treadfsWriteBegin_atEnd (env : Env) (proc : Nat) (dentry : Dentry) (file : FileInfo)
    (w : World) :
    (treadfsWriteBegin env proc dentry file w.inode.iSize w).2.inode.lower = w.inode.lower ∧
      (treadfsWriteBegin env proc dentry file w.inode.iSize w).2.inode.iSize = w.inode.iSize := by
  have lower := (pageForWrite_untouched env proc file (w.inode.iSize / pageCacheSize) w).2
  have size := pageForWrite_iSize env proc file (w.inode.iSize / pageCacheSize) w
  rcases treadfsWriteBegin_cases env proc dentry file w.inode.iSize w with
    noPage | ⟨-, stopped⟩ | ⟨-, grown, grow, ending⟩
  · rw [noPage]
    exact ⟨rfl, rfl⟩
  · rw [stopped]
    exact ⟨lower, size⟩
  · have inside :
        grown = (0, (pageForWrite env proc file (w.inode.iSize / pageCacheSize) w).2) := by
      rcases grow with ⟨beyond, -⟩ | ⟨-, inside⟩
      · have start := Nat.div_mul_le_self w.inode.iSize pageCacheSize
        omega
      · exact inside
    rcases ending with ⟨-, stopped⟩ | ⟨-, frame, done⟩
    · rw [stopped, inside]
      exact ⟨lower, size⟩
    · rw [done, inside]
      exact ⟨lower, size⟩

/-- An upcall of a caller that is the client, or has none, brings nothing. -/
theorem teadfsRequestWrite_silent {proc : Nat} {w : World} (silent : ¬ Connected proc w)
    (env : Env) (offset : Nat) (src : List UInt8) (dstSize : Nat) :
    (teadfsRequestWrite env proc offset src dstSize w).1 < 0 := by
  have none : (exchange env proc .write (.write 0 offset ⟨src.length, sizeofPacketInfo⟩) src
      w).reply = none := by
    unfold exchange
    split_ifs with off self
    · rfl
    · rfl
    · exact absurd ⟨by simpa using off, self⟩ silent
    · exact absurd ⟨by simpa using off, self⟩ silent
  simp only [teadfsRequestWrite, requestBlock, none, Option.bind_none]
  decide

section Appending

variable {env : Env} {enc : Equiv.Perm UInt8} {onOpen onRelease : Nat → Nat → List UInt8 → Int}
  (whole : WholeWrites env) (answers : Answers env (cipherCb enc onOpen onRelease))

include whole in
/-- A lower write of a handle that appends fails, or its block is at the end of the file. -/
theorem kernelWrite_appended (block : List UInt8) (offset : Nat) (w : World) :
    ((kernelWrite env true block offset w).1 < 0 ∧
        (kernelWrite env true block offset w).2.inode = w.inode) ∨
      ((kernelWrite env true block offset w).1 = block.length ∧
        (kernelWrite env true block offset w).2.inode =
          { w.inode with lower := w.inode.lower ++ block }) := by
  cases answer : env.kernelWrite w.chan.clock with
  | fails errno =>
      refine .inl ?_
      simp only [kernelWrite, answer]
      exact ⟨errno.property, rfl⟩
  | short n => exact absurd answer (whole _ n)
  | full =>
      refine .inr ?_
      rw [kernelWrite_full answer]
      refine ⟨rfl, ?_⟩
      simp [writtenAt, write_end]

include whole answers

/-- `teadfs_write_lower` likewise: what is stored is the block as the view stores it. -/
theorem teadfsWriteLower_appended (proc : Nat) {file : FileInfo} (append : file.append = true)
    {data : List UInt8} (word : data.length < 2 ^ 32) (offset : Nat) (w : World) :
    ((teadfsWriteLower env proc file data offset w).1 < 0 ∧
        (teadfsWriteLower env proc file data offset w).2.inode = w.inode) ∨
      (0 ≤ (teadfsWriteLower env proc file data offset w).1 ∧
        (teadfsWriteLower env proc file data offset w).2.inode =
          { w.inode with lower := w.inode.lower ++ data.map (file.view.cipher enc) }) := by
  rcases teadfsWriteLower_goes env proc file data offset w with
    ⟨rc, w', failed, same, -, stopped⟩ | ⟨w', same, -, asked, written⟩
  · rw [stopped]
    exact .inl ⟨failed, same⟩
  · have block : lowerBlock env proc file data offset w = data.map (file.view.cipher enc) := by
      by_cases decrypt : file.access = .decrypt
      · have connected : Connected proc w.tick := by
          by_contra silent
          exact absurd (teadfsRequestWrite_silent silent env offset data data.length)
            (Int.not_lt.mpr (asked decrypt))
        have fits : ((cipherCb enc onOpen onRelease).onWrite offset data).length ≤ data.length := by
          simp [cipherCb]
        obtain ⟨-, answer⟩ := teadfsRequestWrite_answered answers connected offset data fits word
        rw [lowerBlock, if_pos decrypt, answer, view_of_decrypt decrypt]
        rfl
      · rw [lowerBlock, if_neg decrypt, view_of_raw decrypt]
        simp [View.cipher]
    rw [written, block, append]
    rcases kernelWrite_appended whole (data.map (file.view.cipher enc)) (lowerOffset file offset)
      w' with ⟨failed, kept⟩ | ⟨count, stored⟩
    · exact .inl ⟨failed, by rw [kept, same]⟩
    · refine .inr ⟨by rw [count]; omega, ?_⟩
      rw [stored, same]

/-- One pass at the end of the file fails and leaves it, or appends its data. -/
theorem writeChunk_appended (proc : Nat) (dentry : Dentry) {file : FileInfo}
    (append : file.append = true) (data : List UInt8) {w : World}
    (agree : w.inode.iSize = w.inode.lower.length)
    (bounded : w.inode.iSize % pageCacheSize + data.length ≤ pageCacheSize) :
    let r := writeChunk env proc dentry file w.inode.iSize data data.length w
    r.1 < 0 ∧ Appended [] w r.2 ∨
      r.1 = data.length ∧ Appended (data.map (file.view.cipher enc)) w r.2 := by
  dsimp only
  have nonpos := treadfsWriteBegin_nonpos env proc dentry file w.inode.iSize w
  obtain ⟨lower, size⟩ := treadfsWriteBegin_atEnd env proc dentry file w
  simp only [writeChunk, List.take_length]
  generalize treadfsWriteBegin env proc dentry file w.inode.iSize w = begun at nonpos lower size
  by_cases stopped : begun.1 = 0
  · simp only [stopped, ne_eq, not_true, if_false]
    have block := window_copyToPage file bounded begun.2
    obtain ⟨copied, copy⟩ : ∃ copied, copied = copyToPage file w.inode.iSize data begun.2 :=
      ⟨_, rfl⟩
    rw [← copy] at block ⊢
    have word : data.length < 2 ^ 32 := by
      have : pageCacheSize < 2 ^ 32 := by decide
      omega
    have same : copied.inode.lower = w.inode.lower ∧ copied.inode.iSize = w.inode.iSize := by
      rw [copy]
      exact ⟨lower, size⟩
    simp only [teadfsWriteEnd, Nat.lt_irrefl, false_and, if_false, block]
    rcases teadfsWriteLower_appended whole answers proc append word w.inode.iSize copied with
      ⟨failed, kept⟩ | ⟨done, stored⟩
    · rw [if_pos failed]
      exact .inl ⟨failed, .nothing agree (by rw [kept, same.1]) (by rw [kept, same.2])⟩
    · rw [if_neg (Int.not_lt.mpr done)]
      refine .inr ⟨rfl, ?_, rfl⟩
      show _ = _
      rw [World.setSize_inode, stored, same.1]
  · simp only [ne_eq, stopped, not_false_iff, if_true]
    exact .inl ⟨by omega, .nothing agree lower size⟩

/-- The passes of a write at the end of the file append what they tell of. -/
theorem genericPerformWrite_appended (proc : Nat) (dentry : Dentry) {file : FileInfo}
    (append : file.append = true) (fuel : Nat) (data : List UInt8) {w : World}
    (agree : w.inode.iSize = w.inode.lower.length) :
    let r := genericPerformWrite env proc dentry file fuel w.inode.iSize data w
    Appended ((data.take r.1.toNat).map (file.view.cipher enc)) w r.2 := by
  dsimp only
  induction fuel generalizing data w with
  | zero => simpa [genericPerformWrite] using Appended.nothing agree rfl rfl
  | succ fuel ih =>
      simp only [genericPerformWrite]
      by_cases empty : data = []
      · simpa [empty] using Appended.nothing agree rfl rfl
      have some : data.isEmpty = false := by simpa using empty
      obtain ⟨positive, -, inPage, taken⟩ := @chunkLen_bounds w.inode.iSize data empty
      generalize chunkLen w.inode.iSize data = len at positive inPage taken ⊢
      have chunk := writeChunk_appended whole answers proc dentry append (data.take len) agree
        (by rw [taken]; exact inPage)
      dsimp only at chunk
      rw [taken] at chunk
      simp only [some, Bool.false_eq_true, if_false]
      generalize writeChunk env proc dentry file w.inode.iSize (data.take len) len w = r at chunk ⊢
      rcases chunk with ⟨failed, nothing⟩ | ⟨count, first⟩
      · rw [if_pos failed, Int.toNat_of_nonpos failed.le]
        exact nothing
      · have going : ¬ r.1 < 0 := by omega
        have place : r.2.inode.iSize = w.inode.iSize + len := by
          rw [first.2, first.1, agree, List.length_append, List.length_map, taken]
        have rest := ih (data.drop len) first.2
        rw [place] at rest
        simp only [going, if_false]
        generalize genericPerformWrite env proc dentry file fuel
          (w.inode.iSize + len) (data.drop len) r.2 = next at rest ⊢
        have both := first.trans rest
        rw [← List.map_append] at both
        split
        · rename_i failed
          rw [Int.toNat_of_nonpos failed.le, List.take_zero, List.append_nil] at both
          rwa [count, Int.toNat_natCast]
        · have sum : (r.1 + next.1).toNat = len + next.1.toNat := by omega
          rwa [sum, List.take_add]

/-- **Appending writes are kept in order.** With a client that answers and a lower file system
whose writes are whole or fail, whoever appends through whatever handles: the lower file ends
as it was, and behind it, one after the other, what each write has told of, as the view of its
handle is stored. Anything else may fail. -/
theorem appends_in_order (dentry : Dentry) (calls : List AppendCall) {w : World}
    (agree : w.inode.iSize = w.inode.lower.length) :
    (appends env dentry enc calls w).2.inode.lower =
        w.inode.lower ++ (appends env dentry enc calls w).1 ∧
      (appends env dentry enc calls w).2.inode.iSize =
        (appends env dentry enc calls w).2.inode.lower.length := by
  show Appended (appends env dentry enc calls w).1 w (appends env dentry enc calls w).2
  induction calls generalizing w with
  | nil => exact .nothing agree rfl rfl
  | cons call calls ih =>
      have first : Appended (call.told enc (call.run env dentry w).1) w
          (call.run env dentry w).2 := by
        have passes := genericPerformWrite_appended whole answers call.proc dentry call.append
          call.data.length call.data agree
        simp only [AppendCall.told, AppendCall.run, teadfsAioWrite, writePos, call.append, if_true]
        split <;> exact passes
      exact first.trans (ih first.2)

end Appending

/-- A decrypting append and a raw one, of a file with three bytes behind the label. -/
theorem appends_in_order_cachedFile :
    (appends (clientEnv (xorCb .decrypt)) exampleDentry xorCipher
      [⟨7, appendFile .decrypt, rfl, [9, 8]⟩, ⟨8, appendFile .init, rfl, [5]⟩]
        cachedFile).2.inode.lower =
      shippedLabel ++ [1, 2, 3, 9, 8].map xorCipher ++ [5] := by
  have kept := appends_in_order (clientEnv_wholeWrites (xorCb .decrypt)) (clientEnv_answers _)
    exampleDentry [⟨7, appendFile .decrypt, rfl, [9, 8]⟩, ⟨8, appendFile .init, rfl, [5]⟩]
    (show cachedFile.inode.iSize = cachedFile.inode.lower.length from rfl)
  have told : (appends (clientEnv (xorCb .decrypt)) exampleDentry xorCipher
      [⟨7, appendFile .decrypt, rfl, [9, 8]⟩, ⟨8, appendFile .init, rfl, [5]⟩] cachedFile).1 =
        [9, 8].map xorCipher ++ [5] := by
    decide +kernel
  rw [kept.1, told]
  simp [cachedFile, freshWorld]

end Teadfs
