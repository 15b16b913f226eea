/-
# Teadfs.UserCom — upcalls

`user_com.c`: a request packet is built, handed to `teadfs_request_send`, and the
stored reply is decoded. The four request functions share one course (`exchange`):
the client must be connected and must not be the caller, a packet is allocated and
numbered, and a response that is absent or shorter than a packet counts as no
reply. They differ in how they decode: `requestOpen` returns the code of the
reply, `requestBlock` copies out a block after three checks.

`requestBlock_cases` is what a block upcall can do; the `_answered` lemmas are what
the request functions return when the client library answers.
-/
import Teadfs.Kernel

namespace Teadfs

set_option autoImplicit false

open Protocol

/-- `teadfs_get_next_msg_id`: a 64-bit counter that skips zero. -/
def nextMsgId (uniqueId : Nat) : Nat :=
  let next := (uniqueId + 1) % 2 ^ 64
  if next = 0 then 1 else next

/-- `teadfs_packet_header`, for the caller `proc`. -/
def teadfsPacketHeader (msgId size : Nat) (type : MsgType) (proc : Nat) : PacketHeader where
  size := size
  msgId := msgId
  msgType := type
  initiator := 0
  pid := proc
  uid := 0
  gid := 0

/-- What an exchange with the client leaves: the packet if one was built, the
reply if one of at least a packet's size was stored, and the state. -/
structure Exchange where
  packet : Option Packet
  reply : Option Reply
  world : World

/-- The course every request function takes up to decoding its reply. -/
def exchange (env : Env) (proc : Nat) (type : MsgType) (data : PacketData)
    (payload : List UInt8) (w : World) : Exchange :=
  if w.chan.glob.connect = false then ⟨none, none, w.tick⟩
  -- the client's own accesses are not sent back to it
  else if proc = w.chan.glob.pid then ⟨none, none, w.tick⟩
  else if env.packetAlloc w.chan.clock = false then ⟨none, none, w.tick⟩
  else
    let msgId := nextMsgId w.chan.glob.uniqueId
    let packet : Packet :=
      ⟨teadfsPacketHeader msgId (sizeofPacketInfo + payload.length) type proc, data, payload⟩
    let sent := { w.tick with chan.glob.uniqueId := msgId }
    match env.send w.chan.clock packet with
    | .noCtx => ⟨some packet, none, sent⟩
    | .noReply => ⟨some packet, none, sent⟩
    | .reply reply =>
        if reply.bytes.length < sizeofPacketInfo then ⟨some packet, none, sent⟩
        else ⟨some packet, some reply, sent⟩

/-- The packet an exchange sends. -/
def requestPacket (proc : Nat) (type : MsgType) (data : PacketData) (payload : List UInt8)
    (w : World) : Packet :=
  ⟨teadfsPacketHeader (nextMsgId w.chan.glob.uniqueId) (sizeofPacketInfo + payload.length) type
    proc, data, payload⟩

/-- The client is there and is not the caller. -/
def Connected (proc : Nat) (w : World) : Prop :=
  w.chan.glob.connect = true ∧ proc ≠ w.chan.glob.pid

instance (proc : Nat) (w : World) : Decidable (Connected proc w) :=
  inferInstanceAs (Decidable (_ ∧ _))

/-- What file operations never change: the client, and the kind of the file. -/
def Steady (w w' : World) : Prop :=
  w'.chan.glob.connect = w.chan.glob.connect ∧ w'.chan.glob.pid = w.chan.glob.pid ∧
    w'.inode.isReg = w.inode.isReg

theorem Steady.refl (w : World) : Steady w w := ⟨rfl, rfl, rfl⟩

theorem Steady.trans {w w' w'' : World} (first : Steady w w') (second : Steady w' w'') :
    Steady w w'' :=
  ⟨second.1.trans first.1, second.2.1.trans first.2.1, second.2.2.trans first.2.2⟩

theorem Steady.symm {w w' : World} (same : Steady w w') : Steady w' w :=
  ⟨same.1.symm, same.2.1.symm, same.2.2.symm⟩

theorem Steady.connected {proc : Nat} {w w' : World} (same : Steady w w')
    (connected : Connected proc w) : Connected proc w' :=
  ⟨same.1.trans connected.1, fun self => connected.2 (self.trans same.2.1)⟩

section Course

variable (env : Env) (proc : Nat) (type : MsgType) (data : PacketData) (payload : List UInt8)
  (w : World)

@[simp] theorem exchange_inode : (exchange env proc type data payload w).world.inode = w.inode := by
  unfold exchange
  split_ifs <;> try rfl
  dsimp only
  split
  · rfl
  · rfl
  · split <;> rfl

@[simp] theorem exchange_log :
    (exchange env proc type data payload w).world.chan.log = w.chan.log := by
  unfold exchange
  split_ifs <;> try rfl
  dsimp only
  split
  · rfl
  · rfl
  · split <;> rfl

@[simp] theorem exchange_clock :
    (exchange env proc type data payload w).world.chan.clock = w.chan.clock + 1 := by
  unfold exchange
  split_ifs <;> try rfl
  dsimp only
  split
  · rfl
  · rfl
  · split <;> rfl

theorem exchange_steady : Steady w (exchange env proc type data payload w).world := by
  unfold exchange
  split_ifs <;> try exact ⟨rfl, rfl, rfl⟩
  dsimp only
  split
  · exact ⟨rfl, rfl, rfl⟩
  · exact ⟨rfl, rfl, rfl⟩
  · split <;> exact ⟨rfl, rfl, rfl⟩

/-- A packet is built where the client is there and is not the caller, and there is memory. -/
theorem exchange_packet_eq :
    (exchange env proc type data payload w).packet =
      if w.chan.glob.connect = true ∧ proc ≠ w.chan.glob.pid ∧
          env.packetAlloc w.chan.clock = true then
        some (requestPacket proc type data payload w)
      else none := by
  unfold exchange
  by_cases gone : w.chan.glob.connect = false
  · simp [gone]
  by_cases self : proc = w.chan.glob.pid
  · simp [gone, self]
  by_cases failed : env.packetAlloc w.chan.clock = false
  · simp [gone, self, failed]
  rw [if_neg gone, if_neg self, if_neg failed,
    if_pos ⟨by simpa using gone, self, by simpa using failed⟩]
  dsimp only
  split
  · rfl
  · rfl
  · split <;> rfl

/-- A packet that was built carries the data and the block it was built from. -/
theorem exchange_packet {packet : Packet}
    (built : (exchange env proc type data payload w).packet = some packet) :
    packet.data = data ∧ packet.payload = payload ∧ packet.header.msgType = type ∧
      packet.header.pid = proc := by
  unfold exchange at built
  dsimp only at built
  split_ifs at built
  split at built
  · cases built; exact ⟨rfl, rfl, rfl, rfl⟩
  · cases built; exact ⟨rfl, rfl, rfl, rfl⟩
  · split at built <;> cases built <;> exact ⟨rfl, rfl, rfl, rfl⟩

end Course

/-! ## The request functions -/

/-- `teadfs_request_open`: the code the client returned, or `-ENOMEM`. -/
def teadfsRequestOpen (env : Env) (proc : Nat) (path : List UInt8) (fileId : Nat) (w : World) :
    Int × World :=
  let e := exchange env proc .open (.open fileId ⟨path.length, sizeofPacketInfo⟩) path w
  let rc := match e.reply with
    | none => enomem
    | some reply => reply.errorCode
  (rc, e.world.record (.upcall .open e.packet rc []))

/-- `teadfs_request_open_file`: the verdict for an open; any failure is `OFR_INIT`. -/
def teadfsRequestOpenFile (env : Env) (proc : Nat) (dentry : Dentry) (fileId : Nat) (w : World) :
    OpenFileResult × World :=
  let r :=
    if env.pathAlloc w.chan.clock = false then
      (enomem, w.tick.record (.upcall .open none enomem []))
    else teadfsRequestOpen env proc dentry.path fileId w.tick
  (if r.1 < 0 then .init else .ofCode r.1, r.2)

/-- `teadfs_request_open_path`: the verdict for a lower path, or an error code. -/
def teadfsRequestOpenPath (env : Env) (proc : Nat) (dentry : Dentry) (w : World) : Int × World :=
  if env.pathAlloc w.chan.clock = false then
    (enomem, w.tick.record (.upcall .open none enomem []))
  else teadfsRequestOpen env proc dentry.lowerPath 0 w.tick

/-- `teadfs_request_release`. The handle always has its dentry and mount here. -/
def teadfsRequestRelease (env : Env) (proc : Nat) (path : List UInt8) (fileId : Nat) (w : World) :
    Int × World :=
  let e := exchange env proc .release (.release fileId ⟨path.length, sizeofPacketInfo⟩) path w
  let rc := match e.reply with
    | none => enomem
    | some reply => reply.errorCode
  (rc, e.world.record (.upcall .release e.packet rc []))

/-- The block of a data reply, if its code is zero and its size is that of the
reply and of the destination at most. The block's offset is not checked. -/
def decodeBlock (reply : Reply) (dstSize : Nat) : Option (List UInt8) :=
  if reply.errorCode ≠ 0 then none
  else if reply.bytes.length ≠ sizeofPacketInfo + reply.blockSize then none
  else if dstSize < reply.blockSize then none
  else some (reply.peek reply.blockOffset reply.blockSize)

/-- A read or write upcall: what it returns and the block it copies out. -/
def requestBlock (env : Env) (proc : Nat) (type : MsgType) (data : PacketData)
    (src : List UInt8) (dstSize : Nat) (w : World) : Int × List UInt8 × World :=
  let e := exchange env proc type data src w
  match e.reply.bind (decodeBlock · dstSize) with
  | none => (enomem, [], e.world.record (.upcall type e.packet enomem []))
  | some block => (block.length, block, e.world.record (.upcall type e.packet block.length block))

/-- `teadfs_request_read`. It tests the size through `data.write`, which is the
same field. -/
def teadfsRequestRead (env : Env) (proc offset : Nat) (src : List UInt8) (dstSize : Nat)
    (w : World) : Int × List UInt8 × World :=
  requestBlock env proc .read (.read 0 offset ⟨src.length, sizeofPacketInfo⟩) src dstSize w

/-- `teadfs_request_write`. The size it returns is read from the reply it has just
freed; the value is the one that was there. -/
def teadfsRequestWrite (env : Env) (proc offset : Nat) (src : List UInt8) (dstSize : Nat)
    (w : World) : Int × List UInt8 × World :=
  requestBlock env proc .write (.write 0 offset ⟨src.length, sizeofPacketInfo⟩) src dstSize w

theorem length_decodeBlock {reply : Reply} {dstSize : Nat} {block : List UInt8}
    (decoded : decodeBlock reply dstSize = some block) : block.length ≤ dstSize := by
  unfold decodeBlock at decoded
  split_ifs at decoded with _ _ fits
  cases decoded
  simpa using fits

section Frames

variable (env : Env) (proc : Nat) (type : MsgType) (data : PacketData) (src : List UInt8)
  (dstSize : Nat) (w : World)

@[simp] theorem requestBlock_inode :
    (requestBlock env proc type data src dstSize w).2.2.inode = w.inode := by
  unfold requestBlock
  dsimp only
  split <;> simp

@[simp] theorem requestBlock_clock :
    (requestBlock env proc type data src dstSize w).2.2.chan.clock = w.chan.clock + 1 := by
  unfold requestBlock
  dsimp only
  split <;> simp

theorem requestBlock_steady :
    Steady w (requestBlock env proc type data src dstSize w).2.2 := by
  have same := exchange_steady env proc type data src w
  unfold requestBlock
  dsimp only
  split <;> exact same

/-- A block upcall leaves exactly one entry in the log: its own. -/
theorem requestBlock_log :
    (requestBlock env proc type data src dstSize w).2.2.chan.log = w.chan.log ++
      [.upcall type (exchange env proc type data src w).packet
        (requestBlock env proc type data src dstSize w).1
        (requestBlock env proc type data src dstSize w).2.1] := by
  unfold requestBlock
  dsimp only
  split <;> simp

/-- A block upcall fails with `-ENOMEM` and stores nothing, or returns the length
of the block it stored. -/
theorem requestBlock_cases :
    ((requestBlock env proc type data src dstSize w).1 = enomem ∧
        (requestBlock env proc type data src dstSize w).2.1 = []) ∨
      ((requestBlock env proc type data src dstSize w).1 =
          (requestBlock env proc type data src dstSize w).2.1.length ∧
        (requestBlock env proc type data src dstSize w).2.1.length ≤ dstSize) := by
  unfold requestBlock
  dsimp only
  split
  · exact .inl ⟨rfl, rfl⟩
  · rename_i block decoded
    obtain ⟨reply, -, copied⟩ := Option.bind_eq_some_iff.mp decoded
    exact .inr ⟨rfl, length_decodeBlock copied⟩

/-- Where nothing positive is returned, nothing was stored. -/
theorem requestBlock_nonpos (nothing : (requestBlock env proc type data src dstSize w).1 ≤ 0) :
    (requestBlock env proc type data src dstSize w).2.1 = [] := by
  rcases requestBlock_cases env proc type data src dstSize w with ⟨-, empty⟩ | ⟨length, -⟩
  · exact empty
  · rw [length] at nothing
    exact List.eq_nil_of_length_eq_zero (by omega)

theorem teadfsRequestRead_log (offset : Nat) : ∃ packet,
    (teadfsRequestRead env proc offset src dstSize w).2.2.chan.log = w.chan.log ++
      [Event.upcall .read packet (teadfsRequestRead env proc offset src dstSize w).1
        (teadfsRequestRead env proc offset src dstSize w).2.1] :=
  ⟨_, requestBlock_log ..⟩

theorem teadfsRequestWrite_log (offset : Nat) : ∃ packet,
    (teadfsRequestWrite env proc offset src dstSize w).2.2.chan.log = w.chan.log ++
      [Event.upcall .write packet (teadfsRequestWrite env proc offset src dstSize w).1
        (teadfsRequestWrite env proc offset src dstSize w).2.1] :=
  ⟨_, requestBlock_log ..⟩

end Frames

section OpenFrames

variable (env : Env) (proc : Nat) (dentry : Dentry) (path : List UInt8) (fileId : Nat) (w : World)

@[simp] theorem teadfsRequestOpen_inode :
    (teadfsRequestOpen env proc path fileId w).2.inode = w.inode := by
  simp [teadfsRequestOpen]

theorem teadfsRequestOpen_steady :
    Steady w (teadfsRequestOpen env proc path fileId w).2 :=
  exchange_steady ..

theorem teadfsRequestOpen_log :
    ∃ packet, (teadfsRequestOpen env proc path fileId w).2.chan.log = w.chan.log ++
      [.upcall .open packet (teadfsRequestOpen env proc path fileId w).1 []] :=
  ⟨_, by rw [teadfsRequestOpen, World.record_log, exchange_log]⟩

theorem teadfsRequestRelease_log :
    ∃ packet, (teadfsRequestRelease env proc path fileId w).2.chan.log = w.chan.log ++
      [.upcall .release packet (teadfsRequestRelease env proc path fileId w).1 []] :=
  ⟨_, by rw [teadfsRequestRelease, World.record_log, exchange_log]⟩

@[simp] theorem teadfsRequestOpenPath_inode :
    (teadfsRequestOpenPath env proc dentry w).2.inode = w.inode := by
  unfold teadfsRequestOpenPath
  split <;> simp

theorem teadfsRequestOpenPath_steady :
    Steady w (teadfsRequestOpenPath env proc dentry w).2 := by
  unfold teadfsRequestOpenPath
  split
  · exact ⟨rfl, rfl, rfl⟩
  · exact teadfsRequestOpen_steady env proc dentry.lowerPath 0 w.tick

theorem teadfsRequestOpenPath_log :
    ∃ packet, (teadfsRequestOpenPath env proc dentry w).2.chan.log = w.chan.log ++
      [.upcall .open packet (teadfsRequestOpenPath env proc dentry w).1 []] := by
  unfold teadfsRequestOpenPath
  split
  · exact ⟨_, rfl⟩
  · exact teadfsRequestOpen_log env proc dentry.lowerPath 0 w.tick

end OpenFrames

/-! ## A client that answers -/

/-- Every request is answered as the client library answers it, with the callbacks
`cb`; allocations of the upcall layer succeed. -/
structure Answers (env : Env) (cb : DealCb) : Prop where
  packetAlloc : ∀ t, env.packetAlloc t = true
  pathAlloc : ∀ t, env.pathAlloc t = true
  send : ∀ t packet, ∃ beyond, env.send t packet = .reply ⟨dealTeadfsMsg cb packet, beyond⟩

theorem sizeofPacketInfo_le_dealTeadfsMsg (cb : DealCb) (packet : Packet) :
    sizeofPacketInfo ≤ (dealTeadfsMsg cb packet).length := by
  unfold dealTeadfsMsg
  split <;> simp

/-- A caller whose open upcall is not sent is told `-ENOMEM`. -/
theorem teadfsRequestOpen_silent {proc : Nat} {w : World} (silent : ¬ Connected proc w)
    (env : Env) (path : List UInt8) (fileId : Nat) :
    (teadfsRequestOpen env proc path fileId w).1 = enomem := by
  have none : (exchange env proc .open (.open fileId ⟨path.length, sizeofPacketInfo⟩) path
      w).reply = none := by
    unfold exchange
    split_ifs with off self
    · rfl
    · rfl
    · exact absurd ⟨by simpa using off, self⟩ silent
    · exact absurd ⟨by simpa using off, self⟩ silent
  simp only [teadfsRequestOpen, none]

section Answered

variable {env : Env} {cb : DealCb} {proc : Nat} {w : World}

theorem exchange_answered (answers : Answers env cb) (connected : Connected proc w)
    (type : MsgType) (data : PacketData) (payload : List UInt8) :
    ∃ packet beyond, (exchange env proc type data payload w).packet = some packet ∧
      packet.data = data ∧ packet.payload = payload ∧ packet.header.pid = proc ∧
      (exchange env proc type data payload w).reply =
        some ⟨dealTeadfsMsg cb packet, beyond⟩ := by
  let packet : Packet :=
    ⟨teadfsPacketHeader (nextMsgId w.chan.glob.uniqueId) (sizeofPacketInfo + payload.length) type
      proc, data, payload⟩
  obtain ⟨beyond, sent⟩ := answers.send w.chan.clock packet
  have long := Nat.not_lt.mpr (sizeofPacketInfo_le_dealTeadfsMsg cb packet)
  refine ⟨packet, beyond, ?_, rfl, rfl, rfl, ?_⟩ <;>
    simp [exchange, connected.1, connected.2, answers.packetAlloc, packet, sent, long]

/-- The code an answered open upcall returns. -/
theorem teadfsRequestOpen_answered (answers : Answers env cb) (connected : Connected proc w)
    {path : List UInt8} {fileId : Nat} {code : Int} (given : cb.onOpen fileId proc path = code)
    (lower : -(2 ^ 31) ≤ code) (upper : code < 2 ^ 31) :
    (teadfsRequestOpen env proc path fileId w).1 = code := by
  obtain ⟨packet, beyond, -, data, payload, pid, reply⟩ := exchange_answered answers connected
    .open (.open fileId ⟨path.length, sizeofPacketInfo⟩) path
  have message : dealTeadfsMsg cb packet = codeReply packet.header code := by
    simp [dealTeadfsMsg, data, payload, pid, given]
  simp only [teadfsRequestOpen, reply, message]
  exact errorCode_codeReply packet.header beyond lower upper

theorem teadfsRequestOpenPath_answered (answers : Answers env cb) (connected : Connected proc w)
    {dentry : Dentry} {code : Int} (given : cb.onOpen 0 proc dentry.lowerPath = code)
    (lower : -(2 ^ 31) ≤ code) (upper : code < 2 ^ 31) :
    (teadfsRequestOpenPath env proc dentry w).1 = code := by
  have ticked : Connected proc w.tick := connected
  rw [teadfsRequestOpenPath, answers.pathAlloc]
  exact teadfsRequestOpen_answered answers ticked given lower upper

/-- A client that answers `OFR_DECRYPT` is understood. -/
theorem teadfsRequestOpenPath_decrypt (answers : Answers env cb) (connected : Connected proc w)
    {dentry : Dentry} (given : cb.onOpen 0 proc dentry.lowerPath = OpenFileResult.decrypt.code) :
    OpenFileResult.ofCode (teadfsRequestOpenPath env proc dentry w).1 = .decrypt := by
  rw [teadfsRequestOpenPath_answered answers connected given (by decide) (by decide)]
  rfl

/-- A verdict other than an error is that of a client. -/
theorem connected_of_decrypt {dentry : Dentry}
    (verdict : OpenFileResult.ofCode (teadfsRequestOpenPath env proc dentry w).1 = .decrypt) :
    Connected proc w := by
  have noVerdict : OpenFileResult.ofCode enomem ≠ .decrypt := by decide
  by_contra silent
  have ticked : ¬ Connected proc w.tick := silent
  unfold teadfsRequestOpenPath at verdict
  split_ifs at verdict
  · exact noVerdict verdict
  · rw [teadfsRequestOpen_silent ticked] at verdict
    exact noVerdict verdict

/-- One client gives one verdict for one path. -/
theorem teadfsRequestOpenPath_same (answers : Answers env cb) {dentry : Dentry} {w' : World}
    (same : Steady w w') :
    (teadfsRequestOpenPath env proc dentry w').1 = (teadfsRequestOpenPath env proc dentry w).1 := by
  simp only [teadfsRequestOpenPath, answers.pathAlloc, Bool.true_eq_false, if_false]
  by_cases connected : Connected proc w
  · have here : Connected proc w.tick := connected
    have there : Connected proc w'.tick := same.connected connected
    obtain ⟨packet, beyond, -, data, payload, pid, reply⟩ := exchange_answered answers here
      .open (.open 0 ⟨dentry.lowerPath.length, sizeofPacketInfo⟩) dentry.lowerPath
    obtain ⟨packet', beyond', -, data', payload', pid', reply'⟩ := exchange_answered answers there
      .open (.open 0 ⟨dentry.lowerPath.length, sizeofPacketInfo⟩) dentry.lowerPath
    simp only [teadfsRequestOpen, reply, reply', dealTeadfsMsg, data, data', payload, payload', pid,
      pid']
    exact errorCode_codeReply_congr ..
  · have here : ¬ Connected proc w.tick := connected
    have there : ¬ Connected proc w'.tick := fun back => connected (same.symm.connected back)
    rw [teadfsRequestOpen_silent here, teadfsRequestOpen_silent there]

/-- The block of a `blockReply` that fits the destination is decoded to itself. -/
theorem decodeBlock_blockReply (header : PacketHeader) {block : List UInt8} {dstSize : Nat}
    (beyond : Nat → UInt8) (fits : block.length ≤ dstSize) (word : dstSize < 2 ^ 32) :
    decodeBlock ⟨blockReply header block, beyond⟩ dstSize = some block := by
  have size := blockSize_blockReply header block beyond (by omega)
  simp only [decodeBlock, errorCode_blockReply, size, blockOffset_blockReply, peek_blockReply,
    length_blockReply, ne_eq, not_true, if_false, Nat.not_lt.mpr fits]

theorem teadfsRequestRead_answered (answers : Answers env cb) (connected : Connected proc w)
    (offset : Nat) (src : List UInt8) {dstSize : Nat}
    (fits : (cb.onRead offset src).length ≤ dstSize) (word : dstSize < 2 ^ 32) :
    (teadfsRequestRead env proc offset src dstSize w).1 = (cb.onRead offset src).length ∧
      (teadfsRequestRead env proc offset src dstSize w).2.1 = cb.onRead offset src := by
  obtain ⟨packet, beyond, -, data, payload, -, reply⟩ := exchange_answered answers connected
    .read (.read 0 offset ⟨src.length, sizeofPacketInfo⟩) src
  have message : dealTeadfsMsg cb packet = blockReply packet.header (cb.onRead offset src) := by
    simp [dealTeadfsMsg, data, payload]
  have decoded := decodeBlock_blockReply packet.header beyond fits word
  simp [teadfsRequestRead, requestBlock, reply, message, decoded]

theorem teadfsRequestWrite_answered (answers : Answers env cb) (connected : Connected proc w)
    (offset : Nat) (src : List UInt8) {dstSize : Nat}
    (fits : (cb.onWrite offset src).length ≤ dstSize) (word : dstSize < 2 ^ 32) :
    (teadfsRequestWrite env proc offset src dstSize w).1 = (cb.onWrite offset src).length ∧
      (teadfsRequestWrite env proc offset src dstSize w).2.1 = cb.onWrite offset src := by
  obtain ⟨packet, beyond, -, data, payload, -, reply⟩ := exchange_answered answers connected
    .write (.write 0 offset ⟨src.length, sizeofPacketInfo⟩) src
  have message : dealTeadfsMsg cb packet = blockReply packet.header (cb.onWrite offset src) := by
    simp [dealTeadfsMsg, data, payload]
  have decoded := decodeBlock_blockReply packet.header beyond fits word
  simp [teadfsRequestWrite, requestBlock, reply, message, decoded]

end Answered

end Teadfs
