/-
# Teadfs.UpcallOffsets — the position a client is told for a byte

A client whose cipher depends on the position of a byte needs the same position in
both directions. `teadfs_read_lower` adds the label to its offset before it makes
the upcall, `teadfs_write_lower` after it. So byte `p` of the file is byte `p + 256`
to the read callback and byte `p` to the write callback, at every `p`, and what comes
back after a write and a read is `dec (o + 256) (enc o data)` (`readBack_eq`).
-/
import Teadfs.Client

namespace Teadfs

set_option autoImplicit false

open Protocol FileContent Frame

/-- The offsets in the upcalls of one kind, in a log. -/
def told (type : MsgType) (log : List Event) : List Nat :=
  log.filterMap fun
    | .upcall type' packet _ _ => if type' = type then packet.bind Packet.offset? else none
    | .lowerWrite _ _ => none

/-- What was logged from `w` to `w'`. -/
def newEvents (w w' : World) : List Event := w'.chan.log.drop w.chan.log.length

/-- The offsets `teadfs_read_lower` tells the client. -/
def toldByRead (env : Env) (proc : Nat) (file : FileInfo) {size : Nat} (data : Fin size → UInt8)
    (offset : Nat) (w : World) : List Nat :=
  told .read (newEvents w (teadfsReadLower env proc file data offset w).2.2)

/-- The offsets `teadfs_write_lower` tells the client. -/
def toldByWrite (env : Env) (proc : Nat) (file : FileInfo) (data : List UInt8) (offset : Nat)
    (w : World) : List Nat :=
  told .write (newEvents w (teadfsWriteLower env proc file data offset w).2)

/-- The client is told one position for byte `p` of the file, whatever range it is
read in and whatever block it is written in. -/
def PositionsAgree (env : Env) (proc : Nat) (file : FileInfo) (w w' : World) (p : Nat) : Prop :=
  ∀ (size : Nat) (data : Fin size → UInt8) (o i : Nat), o + i = p → i < size →
    ∀ (block : List UInt8) (o' j : Nat), o' + j = p → j < block.length →
      ∀ t ∈ toldByRead env proc file data o w, ∀ u ∈ toldByWrite env proc file block o' w',
        t + i = u + j

/-- A client's transforms: each offset's `dec` inverts that offset's `enc`. -/
structure Transforms where
  enc : Nat → List UInt8 → List UInt8
  dec : Nat → List UInt8 → List UInt8
  dec_enc : ∀ o d, dec o (enc o d) = d
  length_enc : ∀ o d, (enc o d).length = d.length
  length_dec : ∀ o d, (dec o d).length = d.length

def Transforms.cb (transforms : Transforms) (onOpen onRelease : Nat → Nat → List UInt8 → Int) :
    DealCb where
  onOpen := onOpen
  onRelease := onRelease
  onRead := transforms.dec
  onWrite := transforms.enc

/-- `data` written at `o` and the same range read back. -/
def readBack (env : Env) (proc : Nat) (file : FileInfo) (data : List UInt8)
    (frame : Fin data.length → UInt8) (o : Nat) (w : World) : List UInt8 :=
  List.ofFn
    (teadfsReadLower env proc file frame o (teadfsWriteLower env proc file data o w).2).2.1

/-! ## What the client is told -/

theorem newEvents_append {w w' : World} (events : List Event)
    (log : w'.chan.log = w.chan.log ++ events) : newEvents w w' = events := by
  rw [newEvents, log, List.drop_left]

/-- A block upcall tells the client the offset in its data, if a packet is built. -/
theorem told_requestBlock (data : PacketData) (offset : Nat)
    (carries : ∀ header payload, Packet.offset? ⟨header, data, payload⟩ = some offset) (env : Env)
    (proc : Nat) (type : MsgType) (src : List UInt8) (dstSize : Nat) (w : World) :
    told type (newEvents w (requestBlock env proc type data src dstSize w).2.2) =
      (exchange env proc type data src w).packet.toList.map fun _ => offset := by
  rw [newEvents_append _ (requestBlock_log ..)]
  cases built : (exchange env proc type data src w).packet with
  | none => simp [told]
  | some packet =>
      obtain ⟨same, -⟩ := exchange_packet env proc type data src w built
      have offset := carries packet.header packet.payload
      rw [← same] at offset
      simp [told, offset]

theorem told_requestRead (env : Env) (proc offset : Nat) (src : List UInt8) (dstSize : Nat)
    (w : World) :
    told .read (newEvents w (teadfsRequestRead env proc offset src dstSize w).2.2) =
      (exchange env proc .read (.read 0 offset ⟨src.length, sizeofPacketInfo⟩) src
        w).packet.toList.map fun _ => offset :=
  told_requestBlock _ offset (fun _ _ => rfl) env proc .read src dstSize w

theorem told_requestWrite (env : Env) (proc offset : Nat) (src : List UInt8) (dstSize : Nat)
    (w : World) :
    told .write (newEvents w (teadfsRequestWrite env proc offset src dstSize w).2.2) =
      (exchange env proc .write (.write 0 offset ⟨src.length, sizeofPacketInfo⟩) src
        w).packet.toList.map fun _ => offset :=
  told_requestBlock _ offset (fun _ _ => rfl) env proc .write src dstSize w

/-- The block that reaches the lower file tells the client nothing. -/
theorem told_kernelWrite (env : Env) (type : MsgType) (append : Bool) (data : List UInt8)
    (offset : Nat) {w w' : World} {events : List Event}
    (log : w'.chan.log = w.chan.log ++ events) :
    told type (newEvents w (kernelWrite env append data offset w').2) =
      told type (newEvents w w') := by
  rw [newEvents_append events log]
  rcases kernelWrite_cases env append data offset w' with ⟨errno, failed⟩ | ⟨sent, -, stored⟩
  · rw [failed, newEvents_append events]
    exact log
  · rw [stored, newEvents_append (events ++ [.lowerWrite (writtenAt append offset w') sent])]
    · simp [told]
    · simp [log]

theorem told_requestWrite_stored (env : Env) (proc offset : Nat) (src : List UInt8)
    (dstSize : Nat) (append : Bool) (w : World) :
    told .write (newEvents w (kernelWrite env append
        (teadfsRequestWrite env proc offset src dstSize w).2.1 (offset + encryptFileHeaderSize)
        (teadfsRequestWrite env proc offset src dstSize w).2.2).2) =
      (exchange env proc .write (.write 0 offset ⟨src.length, sizeofPacketInfo⟩) src
        w).packet.toList.map fun _ => offset :=
  (told_kernelWrite env .write append _ _ (requestBlock_log ..)).trans
    (told_requestWrite env proc offset src dstSize w)

section Told

variable {env : Env} {proc : Nat} {file : FileInfo} {w : World}

/-- The read callback is told the offset in the lower file. -/
theorem mem_toldByRead (decrypt : file.access = .decrypt) {size : Nat} {data : Fin size → UInt8}
    {offset t : Nat} (tells : t ∈ toldByRead env proc file data offset w) :
    t = offset + encryptFileHeaderSize := by
  unfold toldByRead at tells
  rcases teadfsReadLower_cases decrypt env proc data offset w with
    ⟨rc, w', -, rfl | rfl, stopped⟩ | ⟨bytes, -, -, asked⟩
  · simp [stopped, newEvents, told] at tells
  · simp [stopped, newEvents, told] at tells
  · have same : (teadfsReadLower env proc file data offset w).2.2 =
        (teadfsRequestRead env proc (offset + encryptFileHeaderSize) bytes size w.tick).2.2 := by
      rw [asked]
      dsimp only
      split <;> rfl
    have logged := told_requestRead env proc (offset + encryptFileHeaderSize) bytes size w.tick
    rw [same] at tells
    obtain ⟨-, -, rfl⟩ := List.mem_map.mp (logged ▸ tells)
    rfl

/-- The write callback is told the logical offset. -/
theorem mem_toldByWrite (decrypt : file.access = .decrypt) {data : List UInt8} {offset u : Nat}
    (tells : u ∈ toldByWrite env proc file data offset w) : u = offset := by
  unfold toldByWrite at tells
  rcases teadfsWriteLower_cases decrypt env proc data offset w with
    ⟨w', ⟨-, rfl⟩ | ⟨-, rfl⟩, stopped⟩ | ⟨-, refused⟩ | ⟨-, stored⟩
  · simp [stopped, newEvents, told] at tells
  · simp [stopped, newEvents, told] at tells
  · have logged := told_requestWrite env proc offset data data.length w.tick
    rw [refused] at tells
    obtain ⟨-, -, rfl⟩ := List.mem_map.mp (logged ▸ tells)
    rfl
  · have logged :=
      told_requestWrite_stored env proc offset data data.length file.append w.tick
    rw [stored] at tells
    obtain ⟨-, -, rfl⟩ := List.mem_map.mp (logged ▸ tells)
    rfl

variable {cb : DealCb}

theorem toldByRead_answered (obliging : Obliging env) (answers : Answers env cb)
    (connected : Connected proc w) (isOpen : file.lowerFile.isSome)
    (decrypt : file.access = .decrypt) {size : Nat} (data : Fin size → UInt8) (offset : Nat) :
    toldByRead env proc file data offset w = [offset + encryptFileHeaderSize] := by
  obtain ⟨ref, opened⟩ := Option.isSome_iff_exists.mp isOpen
  have ticked : Connected proc w.tick := connected
  obtain ⟨packet, beyond, built, -⟩ := exchange_answered answers ticked .read
    (.read 0 (offset + encryptFileHeaderSize)
      ⟨(slice (offset + encryptFileHeaderSize) size w.inode.lower).length, sizeofPacketInfo⟩)
    (slice (offset + encryptFileHeaderSize) size w.inode.lower)
  have logged := told_requestRead env proc (offset + encryptFileHeaderSize)
    (slice (offset + encryptFileHeaderSize) size w.inode.lower) size w.tick
  rw [built] at logged
  simp only [toldByRead, teadfsReadLower, opened, decrypt, if_true,
    kernelRead_full (obliging.kernelRead _)]
  split <;> exact logged

theorem toldByWrite_answered (obliging : Obliging env) (answers : Answers env cb)
    (connected : Connected proc w) (isOpen : file.lowerFile.isSome)
    (decrypt : file.access = .decrypt) (data : List UInt8) (offset : Nat) :
    toldByWrite env proc file data offset w = [offset] := by
  obtain ⟨ref, opened⟩ := Option.isSome_iff_exists.mp isOpen
  have ticked : Connected proc w.tick := connected
  obtain ⟨packet, beyond, built, -⟩ := exchange_answered answers ticked .write
    (.write 0 offset ⟨data.length, sizeofPacketInfo⟩) data
  have refused := told_requestWrite env proc offset data data.length w.tick
  have stored := told_requestWrite_stored env proc offset data data.length file.append w.tick
  rw [built] at refused stored
  simp only [toldByWrite, teadfsWriteLower, zalloc, opened, obliging.zalloc, decrypt, if_true,
    reduceCtorEq, if_false]
  split
  · exact refused
  · exact stored

/-- Whatever is written and read, at no byte do the two positions agree. -/
theorem not_positionsAgree (obliging : Obliging env) (answers : Answers env cb)
    (isOpen : file.lowerFile.isSome) (decrypt : file.access = .decrypt) {w' : World}
    (connected : Connected proc w) (connected' : Connected proc w') (p : Nat) :
    ¬ PositionsAgree env proc file w w' p := by
  intro agree
  have same := agree 1 (fun _ => 0) p 0 rfl (by decide) [0] p 0 rfl (by decide)
    (p + encryptFileHeaderSize)
    (by rw [toldByRead_answered obliging answers connected isOpen decrypt]; simp)
    p (by rw [toldByWrite_answered obliging answers connected' isOpen decrypt]; simp)
  have header : 0 < encryptFileHeaderSize := by decide
  omega

end Told

/-! ## What comes back -/

/-- A write and a read of the same range make `dec` at the shifted offset of `enc`. -/
theorem readBack_eq {env : Env} {cb : DealCb} (obliging : Obliging env) (answers : Answers env cb)
    {proc : Nat} {w : World} (connected : Connected proc w) {file : FileInfo}
    (isOpen : file.lowerFile.isSome) (decrypt : file.access = .decrypt)
    (preservesRead : ∀ o d, (cb.onRead o d).length = d.length)
    (preservesWrite : ∀ o d, (cb.onWrite o d).length = d.length) {data : List UInt8}
    (word : data.length < 2 ^ 32) (frame : Fin data.length → UInt8) {o : Nat}
    (inPlace : InPlace file o w) :
    readBack env proc file data frame o w =
      cb.onRead (o + encryptFileHeaderSize) (cb.onWrite o data) := by
  obtain ⟨-, stored⟩ := teadfsWriteLower_decrypted obliging answers connected isOpen decrypt data o
    word preservesWrite
  have still := (teadfsWriteLower_steady env proc file data o w).connected connected
  obtain ⟨-, read⟩ := teadfsReadLower_decrypted obliging answers still isOpen decrypt frame o word
    preservesRead
  have lower := slice_write_self 0 (o + encryptFileHeaderSize) (cb.onWrite o data) w.inode.lower
  rw [preservesWrite] at lower
  rw [lowerPosition_of_inPlace inPlace, lowerOffset, if_pos decrypt] at stored
  rw [readBack, read, stored, lower, ofFn_overlay (by rw [preservesRead, preservesWrite])]

/-- A keystream that changes every 256 bytes. -/
def keystream : Transforms where
  enc o d := d.mapIdx fun i b => b + UInt8.ofNat ((o + i) / 256)
  dec o d := d.mapIdx fun i b => b - UInt8.ofNat ((o + i) / 256)
  dec_enc o d := by
    rw [List.mapIdx_mapIdx]
    apply List.ext_getElem
    · simp
    · intro i _ _
      simp
  length_enc o d := by simp
  length_dec o d := by simp

/-- Behind a label's length the keystream has moved on by one. -/
theorem keystream_shifted {d : List UInt8} (block : d ≠ []) (o : Nat) :
    keystream.dec (o + encryptFileHeaderSize) (keystream.enc o d) ≠ d := by
  cases d with
  | nil => exact absurd rfl block
  | cons b d =>
      intro same
      have head := congrArg List.head? same
      have moved : (o + encryptFileHeaderSize) / 256 = o / 256 + 1 :=
        Nat.add_div_right o (by decide)
      simp only [keystream, List.mapIdx_cons, List.head?_cons, Nat.add_zero, moved,
        Option.some.injEq, UInt8.ofNat_add] at head
      have unit : (1 : UInt8) = 0 := by grind
      exact absurd unit (by decide)

/-- **The two callbacks are never told the same position.** For every open
`OFR_DECRYPT` handle: whatever answers, the read callback's position for a byte is the
write callback's plus the label; so at no byte do they agree. What is read back after a
write that goes to its place is the data exactly when `dec` at the shifted offset inverts
`enc`, and at every offset and for every block there are transforms, inverse at each offset,
for which it is not the data. -/
theorem upcall_positions_never_agree {file : FileInfo} (isOpen : file.lowerFile.isSome)
    (decrypt : file.access = .decrypt) (proc : Nat) :
    (∀ (env : Env) (w w' : World) (size : Nat) (data : Fin size → UInt8) (o i : Nat)
        (block : List UInt8) (o' j : Nat), o + i = o' + j →
      ∀ t ∈ toldByRead env proc file data o w, ∀ u ∈ toldByWrite env proc file block o' w',
        t + i = u + j + encryptFileHeaderSize) ∧
    (∀ (env : Env) (cb : DealCb) (w w' : World) (p : Nat), Obliging env → Answers env cb →
      Connected proc w → Connected proc w' → ¬ PositionsAgree env proc file w w' p) ∧
    (∀ (transforms : Transforms) (onOpen onRelease : Nat → Nat → List UInt8 → Int) (env : Env)
        (w : World) (o : Nat) (data : List UInt8) (frame : Fin data.length → UInt8),
      Obliging env → Answers env (transforms.cb onOpen onRelease) → Connected proc w →
      data.length < 2 ^ 32 → InPlace file o w →
      (readBack env proc file data frame o w = data ↔
        transforms.dec (o + encryptFileHeaderSize) (transforms.enc o data) = data)) ∧
    (∀ (o : Nat) (data : List UInt8), data ≠ [] → data.length < 2 ^ 32 →
      ∃ transforms : Transforms, ∀ (onOpen onRelease : Nat → Nat → List UInt8 → Int) (env : Env)
        (w : World) (frame : Fin data.length → UInt8), Obliging env →
        Answers env (transforms.cb onOpen onRelease) → Connected proc w → InPlace file o w →
        readBack env proc file data frame o w ≠ data) := by
  refine ⟨?_, ?_, ?_, ?_⟩
  · intro env w w' size data o i block o' j same t tells u writes
    have shifted := mem_toldByRead decrypt tells
    have plain := mem_toldByWrite decrypt writes
    omega
  · intro env cb w w' p obliging answers connected connected'
    exact not_positionsAgree obliging answers isOpen decrypt connected connected' p
  · intro transforms onOpen onRelease env w o data frame obliging answers connected word inPlace
    rw [readBack_eq obliging answers connected isOpen decrypt transforms.length_dec
      transforms.length_enc word frame inPlace]
    rfl
  · intro o data block word
    refine ⟨keystream, ?_⟩
    intro onOpen onRelease env w frame obliging answers connected inPlace
    rw [readBack_eq obliging answers connected isOpen decrypt keystream.length_dec
      keystream.length_enc word frame inPlace]
    exact keystream_shifted block o

/-- The callbacks of a client with the keystream, which decrypts for everyone. -/
def keystreamCb : DealCb := keystream.cb (fun _ _ _ => OpenFileResult.decrypt.code) fun _ _ _ => 1

/-- One byte written at the start of an empty labelled file comes back as another. -/
theorem keystream_byte_lost :
    readBack (clientEnv keystreamCb) 7 (exampleFile .decrypt) [1] (fun _ => 0) 0
      (freshWorld shippedLabel) ≠ [1] := by
  obtain ⟨-, -, exact_iff, -⟩ :=
    upcall_positions_never_agree (rfl : (exampleFile .decrypt).lowerFile.isSome) rfl 7
  have read := exact_iff keystream _ _ (clientEnv keystreamCb) (freshWorld shippedLabel) 0 [1]
    (fun _ => 0) (clientEnv_obliging _) (clientEnv_answers _) ⟨rfl, by decide⟩ (by decide)
    (.of_plain rfl 0 _)
  rw [ne_eq, read]
  exact keystream_shifted (by decide) 0

/-- With that client the positions of byte 0 differ, and the byte does not come back. -/
theorem keystream_positions_differ :
    ¬ PositionsAgree (clientEnv keystreamCb) 7 (exampleFile .decrypt) (freshWorld shippedLabel)
        (freshWorld shippedLabel) 0 ∧
      readBack (clientEnv keystreamCb) 7 (exampleFile .decrypt) [1] (fun _ => 0) 0
        (freshWorld shippedLabel) ≠ [1] := by
  have connected : Connected 7 (freshWorld shippedLabel) := ⟨rfl, by decide⟩
  constructor
  · exact not_positionsAgree (clientEnv_obliging _) (clientEnv_answers _)
      (rfl : (exampleFile .decrypt).lowerFile.isSome) rfl connected connected 0
  · rw [readBack_eq (clientEnv_obliging _) (clientEnv_answers _) connected
      (rfl : (exampleFile .decrypt).lowerFile.isSome) rfl keystream.length_dec keystream.length_enc
      (by decide) (fun _ => 0) (.of_plain rfl 0 _)]
    exact keystream_shifted (by decide) 0

end Teadfs
