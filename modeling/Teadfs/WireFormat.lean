/-
# Teadfs.WireFormat — requests and replies as bytes

Elsewhere a request is the structure the kernel fills in and `dealTeadfsMsg` is what the
client library answers to it. Here both are bytes: a request is laid out by `protocol.h`
and framed by `teadfs_send_to_user`, received by `CNetlinkInfo::ThreadRcv`, and read field
by field by `deal_teadfs_msg`; the reply is framed by `SendMsg` and unframed by
`teadfs_netlink_receive`.

`ThreadRcv` copies as many bytes as it has read, from behind the netlink header, so the
message it hands on ends in bytes that were not in the datagram. The fields and the block
lie before them (`threadRcv_sendToUser`), so the callback gets what was sent, and the
bytes of the reply are those of `dealTeadfsMsg` (`delivered_eq`).
-/
import Teadfs.Client

namespace Teadfs

set_option autoImplicit false

open Protocol LittleEndian FileContent

/-! ## Packets -/

namespace Protocol

/-- The union of a packet, zeroed memory where the member has nothing. -/
def PacketData.toBytes : PacketData → List UInt8
  | .open fileId filePath => le 8 fileId ++ (le 4 filePath.size ++ (le 4 filePath.offset ++ le 8 0))
  | .release fileId filePath =>
      le 8 fileId ++ (le 4 filePath.size ++ (le 4 filePath.offset ++ le 8 0))
  | .read code offset readData =>
      sle 4 code ++ (le 4 0 ++ (le 8 offset ++ (le 4 readData.size ++ le 4 readData.offset)))
  | .write code offset writeData =>
      sle 4 code ++ (le 4 0 ++ (le 8 offset ++ (le 4 writeData.size ++ le 4 writeData.offset)))

theorem PacketData.length_toBytes (data : PacketData) : data.toBytes.length = 24 := by
  cases data <;> simp [PacketData.toBytes]

/-- The buffer a request function builds. -/
def Packet.toBytes (packet : Packet) : List UInt8 :=
  packet.header.toBytes ++ (packet.data.toBytes ++ packet.payload)

theorem Packet.length_toBytes (packet : Packet) :
    packet.toBytes.length = sizeofPacketInfo + packet.payload.length := by
  rw [Packet.toBytes, List.length_append, List.length_append, PacketHeader.length_toBytes,
    PacketData.length_toBytes, sizeofPacketInfo]
  omega

end Protocol

/-! ## Netlink -/

/-- `NLMSG_HDRLEN`. -/
def nlmsgHdrlen : Nat := 16

/-- `NLMSG_LENGTH`. -/
def nlmsgLength (n : Nat) : Nat := n + nlmsgHdrlen

/-- `NLMSG_SPACE`: the length, rounded up to four. -/
def nlmsgSpace (n : Nat) : Nat := (nlmsgLength n + 3) / 4 * 4

/-- `struct nlmsghdr`. -/
def nlmsghdr (len type flags seq pid : Nat) : List UInt8 :=
  le 4 len ++ (le 2 type ++ (le 2 flags ++ (le 4 seq ++ le 4 pid)))

theorem length_nlmsghdr (len type flags seq pid : Nat) :
    (nlmsghdr len type flags seq pid).length = nlmsgHdrlen := by
  simp [nlmsghdr, nlmsgHdrlen]

/-- The datagram `teadfs_send_to_user` sends; `nlmsg_put` pads it with zeros. -/
def teadfsSendToUser (clientPid : Nat) (data : List UInt8) : List UInt8 :=
  nlmsghdr (nlmsgLength data.length) 0 0 0 clientPid ++
    (data ++ List.replicate (nlmsgSpace data.length - nlmsgLength data.length) 0)

/-- `MAX_MSG_SIZE`. -/
def maxMsgSize : Nat := 8 * 1024

/-- The string `CNetlinkInfo::ThreadRcv` hands on. `memory` is what the buffer held. -/
def threadRcv (memory : Nat → UInt8) (datagram : List UInt8) : List UInt8 :=
  let nRead := min datagram.length (nlmsgSpace maxMsgSize)
  Reply.peek ⟨datagram.take nRead, memory⟩ nlmsgHdrlen nRead

/-- The datagram `CNetlinkInfo::SendMsg` sends. It does not set the type and the sequence
number. -/
def sendMsg (type seq : Nat) (data : List UInt8) : List UInt8 :=
  nlmsghdr (nlmsgLength data.length) type 0 seq 0 ++ data

/-- What `teadfs_netlink_receive` makes of a datagram that is not a request of the client:
the id it looks for, and the bytes it stores for the request that has it. -/
def teadfsNetlinkReceive (datagram : List UInt8) : Option (Nat × List UInt8) :=
  let packet := datagram.drop nlmsgHdrlen
  if field 17 1 packet = 1 then none
  else some (field 8 8 packet, packet.take (field 0 4 datagram - nlmsgHdrlen))

/-! ## The client library -/

/-- `DATA_EXTENSION_SIZE`: what a data callback has room for beyond its source. -/
def dataExtensionSize : Nat := 32

/-- An `int`. -/
abbrev CInt := { code : Int // -(2 ^ 31) ≤ code ∧ code < 2 ^ 31 }

/-- The callbacks of `struct TEAFS_DEAL_CB`, all set. A data callback fills the buffer it
is given, or a part of it. -/
structure WireCb where
  onOpen : Nat → Nat → List UInt8 → CInt
  onRelease : Nat → Nat → List UInt8 → CInt
  onRead : (offset : Nat) → (src : List UInt8) →
    { block : List UInt8 // block.length ≤ src.length + dataExtensionSize }
  onWrite : (offset : Nat) → (src : List UInt8) →
    { block : List UInt8 // block.length ≤ src.length + dataExtensionSize }

/-- The callbacks, without what their types say. -/
def WireCb.dealCb (cb : WireCb) : DealCb where
  onOpen fileId pid path := cb.onOpen fileId pid path
  onRelease fileId pid path := cb.onRelease fileId pid path
  onRead offset src := cb.onRead offset src
  onWrite offset src := cb.onWrite offset src

/-- A call of a callback, with its arguments. -/
inductive CbCall where
  | «open» (fileId pid : Nat) (path : List UInt8)
  | release (fileId pid : Nat) (path : List UInt8)
  | read (offset size : Nat) (src : List UInt8)
  | write (offset size : Nat) (src : List UInt8)
  | cleanup (fileId : Nat)

/-- The call `deal_teadfs_msg` makes for a message. The path of a release is read through
`data.open`, the size of a read's buffer through `data.write`. -/
def dealCall (memory : Nat → UInt8) (msg : List UInt8) : Option CbCall :=
  let path := Reply.peek ⟨msg, memory⟩ (field 44 4 msg) (field 40 4 msg)
  let block := Reply.peek ⟨msg, memory⟩ (field 52 4 msg) (field 48 4 msg)
  if field 16 1 msg = MsgType.code .open then some (.open (field 32 8 msg) (field 20 4 msg) path)
  else if field 16 1 msg = MsgType.code .release then
    some (.release (field 32 8 msg) (field 20 4 msg) path)
  else if field 16 1 msg = MsgType.code .read then
    some (.read (field 40 8 msg) (field 48 4 msg) block)
  else if field 16 1 msg = MsgType.code .write then
    some (.write (field 40 8 msg) (field 48 4 msg) block)
  -- `PR_MSG_CLEANUP`
  else if field 16 1 msg = 8 then some (.cleanup (field 32 8 msg))
  else none

/-- The response with a result code: the header of the message, and the code. -/
def codeResponse (msg : List UInt8) (code : Int) : List UInt8 :=
  msg.take 32 ++ (sle 4 code ++ le 20 0)

/-- The response with a block. -/
def blockResponse (msg block : List UInt8) : List UInt8 :=
  msg.take 32 ++ (sle 4 0 ++ (le 12 0 ++ (le 4 block.length ++ (le 4 sizeofPacketInfo ++ block))))

/-- The response `deal_teadfs_msg` sends, after the call it has made. -/
def dealResponse (cb : WireCb) (msg : List UInt8) : Option CbCall → List UInt8
  | some (.open fileId pid path) => codeResponse msg (cb.onOpen fileId pid path)
  | some (.release fileId pid path) => codeResponse msg (cb.onRelease fileId pid path)
  | some (.read offset _ src) => blockResponse msg (cb.onRead offset src)
  | some (.write offset _ src) => blockResponse msg (cb.onWrite offset src)
  | some (.cleanup _) => []
  | none => []

/-- `thread_pool_cb_func`: the call made for a message of the kernel. A response to a
request of the client makes none. -/
def threadPoolCbFunc (memory : Nat → UInt8) (msg : List UInt8) : Option CbCall :=
  if field 17 1 msg = 1 then none else dealCall memory msg

/-! ## Reading a packet -/

section Fields

variable (header : PacketHeader) (rest : List UInt8)

theorem field_msgId (fits : header.msgId < 2 ^ 64) :
    field 8 8 (header.toBytes ++ rest) = header.msgId := by
  simp only [PacketHeader.toBytes, List.append_assoc]
  rw [field_append_right (k := 4) 8 _ (by simp), field_append_right (k := 0) 8 _ (by simp)]
  exact field_le_of_lt (by omega) _

theorem field_msgType : field 16 1 (header.toBytes ++ rest) = header.msgType.code := by
  simp only [PacketHeader.toBytes, List.append_assoc]
  rw [field_append_right (k := 12) 1 _ (by simp), field_append_right (k := 8) 1 _ (by simp),
    field_append_right (k := 0) 1 _ (by simp)]
  exact field_le_of_lt (by cases header.msgType <;> decide) _

theorem field_initiator (fits : header.initiator < 256) :
    field 17 1 (header.toBytes ++ rest) = header.initiator := by
  simp only [PacketHeader.toBytes, List.append_assoc]
  rw [field_append_right (k := 13) 1 _ (by simp), field_append_right (k := 9) 1 _ (by simp),
    field_append_right (k := 1) 1 _ (by simp), field_append_right (k := 0) 1 _ (by simp)]
  exact field_le_of_lt (by omega) _

theorem field_pid (fits : header.pid < 2 ^ 32) :
    field 20 4 (header.toBytes ++ rest) = header.pid := by
  simp only [PacketHeader.toBytes, List.append_assoc]
  rw [field_append_right (k := 16) 4 _ (by simp), field_append_right (k := 12) 4 _ (by simp),
    field_append_right (k := 4) 4 _ (by simp), field_append_right (k := 3) 4 _ (by simp),
    field_append_right (k := 2) 4 _ (by simp), field_append_right (k := 0) 4 _ (by simp)]
  exact field_le_of_lt (by omega) _

end Fields

section Data

variable (header : PacketHeader) (rest : List UInt8)

/-- A field of the union is read from its member. -/
theorem field_union {off k : Nat} (w : Nat) (data : List UInt8) (inside : off = 32 + k) :
    field off w (header.toBytes ++ (data ++ rest)) = field k w (data ++ rest) :=
  field_append_right w _ (by rw [PacketHeader.length_toBytes]; exact inside)

/-- `file_id`, and the size and offset of the path, as `data.open` and `data.release`. -/
theorem field_file {fileId size offset : Nat} (id : fileId < 2 ^ 64) (sized : size < 2 ^ 32)
    (placed : offset < 2 ^ 32) :
    let msg := header.toBytes ++ ((PacketData.open fileId ⟨size, offset⟩).toBytes ++ rest)
    field 32 8 msg = fileId ∧ field 40 4 msg = size ∧ field 44 4 msg = offset := by
  dsimp only
  rw [field_union header rest (k := 0) 8 _ rfl, field_union header rest (k := 8) 4 _ rfl,
    field_union header rest (k := 12) 4 _ rfl]
  simp only [PacketData.toBytes, List.append_assoc]
  refine ⟨field_le_of_lt (by omega) _, ?_, ?_⟩
  · rw [field_append_right (k := 0) 4 _ (by simp)]
    exact field_le_of_lt (by omega) _
  · rw [field_append_right (k := 4) 4 _ (by simp), field_append_right (k := 0) 4 _ (by simp)]
    exact field_le_of_lt (by omega) _

/-- `offset`, and the size and offset of the block, as `data.read` and `data.write`. -/
theorem field_block {code : Int} {position size offset : Nat} (position_lt : position < 2 ^ 64)
    (sized : size < 2 ^ 32) (placed : offset < 2 ^ 32) :
    let msg := header.toBytes ++ ((PacketData.read code position ⟨size, offset⟩).toBytes ++ rest)
    field 40 8 msg = position ∧ field 48 4 msg = size ∧ field 52 4 msg = offset := by
  dsimp only
  rw [field_union header rest (k := 8) 8 _ rfl, field_union header rest (k := 16) 4 _ rfl,
    field_union header rest (k := 20) 4 _ rfl]
  simp only [PacketData.toBytes, List.append_assoc]
  refine ⟨?_, ?_, ?_⟩
  · rw [field_append_right (k := 4) 8 _ (by simp), field_append_right (k := 0) 8 _ (by simp)]
    exact field_le_of_lt (by omega) _
  · rw [field_append_right (k := 12) 4 _ (by simp), field_append_right (k := 8) 4 _ (by simp),
      field_append_right (k := 0) 4 _ (by simp)]
    exact field_le_of_lt (by omega) _
  · rw [field_append_right (k := 16) 4 _ (by simp), field_append_right (k := 12) 4 _ (by simp),
      field_append_right (k := 4) 4 _ (by simp), field_append_right (k := 0) 4 _ (by simp)]
    exact field_le_of_lt (by omega) _

end Data

/-- The block of a packet lies behind its structure. -/
theorem peek_payload (packet : Packet) (rest : List UInt8) (memory : Nat → UInt8) :
    Reply.peek ⟨packet.toBytes ++ rest, memory⟩ sizeofPacketInfo packet.payload.length =
      packet.payload := by
  have length := packet.length_toBytes
  rw [Reply.peek_eq_slice (by rw [List.length_append]; omega), slice, Packet.toBytes]
  simp only [← List.append_assoc]
  rw [List.append_assoc, List.drop_left'
    (by rw [List.length_append, PacketHeader.length_toBytes, PacketData.length_toBytes]; rfl),
    List.take_left]

/-! ## There and back -/

theorem take_peek (reply : Reply) (off : Nat) {k n : Nat} (within : k ≤ n) :
    (reply.peek off n).take k = reply.peek off k := by
  rw [Reply.peek, Reply.peek, ← List.map_take, List.take_range, Nat.min_eq_left within]

/-- What fits the buffer arrives, and something behind it. -/
theorem threadRcv_sendToUser (memory : Nat → UInt8) (clientPid : Nat) {data : List UInt8}
    (fits : data.length ≤ maxMsgSize) :
    ∃ rest, threadRcv memory (teadfsSendToUser clientPid data) = data ++ rest := by
  have header := length_nlmsghdr (nlmsgLength data.length) 0 0 0 clientPid
  have length : (teadfsSendToUser clientPid data).length = nlmsgSpace data.length := by
    rw [teadfsSendToUser, List.length_append, List.length_append, header, List.length_replicate,
      nlmsgSpace, nlmsgLength]
    omega
  have whole : nlmsgSpace data.length ≤ nlmsgSpace maxMsgSize :=
    Nat.mul_le_mul_right 4 (Nat.div_le_div_right (by simp only [nlmsgLength]; omega))
  have room : nlmsgHdrlen + data.length ≤ nlmsgSpace data.length := by
    simp only [nlmsgSpace, nlmsgLength]
    omega
  have front : (threadRcv memory (teadfsSendToUser clientPid data)).take data.length = data := by
    rw [threadRcv, length, Nat.min_eq_left whole, take_peek _ _ (by omega),
      ← length, List.take_length, Reply.peek_eq_slice (by rw [length]; exact room), slice,
      teadfsSendToUser, List.drop_left' header, List.take_left]
  have split := List.take_append_drop data.length (threadRcv memory (teadfsSendToUser clientPid data))
  rw [front] at split
  exact ⟨_, split.symm⟩

/-- The kernel stores the bytes of a reply, under the id the reply carries. -/
theorem netlinkReceive_sendMsg (type seq : Nat) {data : List UInt8} (fits : data.length < 2 ^ 31)
    (reply : field 17 1 data ≠ 1) :
    teadfsNetlinkReceive (sendMsg type seq data) = some (field 8 8 data, data) := by
  have header := length_nlmsghdr (nlmsgLength data.length) type 0 seq 0
  have size : field 0 4 (sendMsg type seq data) = nlmsgLength data.length := by
    simp only [sendMsg, nlmsghdr, List.append_assoc]
    exact field_le_of_lt (by simp only [nlmsgLength, nlmsgHdrlen]; omega) _
  have packet : (sendMsg type seq data).drop nlmsgHdrlen = data := List.drop_left' header
  simp only [teadfsNetlinkReceive, packet, size, nlmsgLength, Nat.add_sub_cancel, List.take_length,
    if_neg reply]

/-! ## Requests -/

/-- What a request function is asked to send. -/
inductive Ask where
  | «open» (fileId : Nat) (path : List UInt8)
  | release (fileId : Nat) (path : List UInt8)
  | read (offset : Nat) (src : List UInt8)
  | write (offset : Nat) (src : List UInt8)

namespace Ask

def type : Ask → MsgType
  | .open _ _ => .open
  | .release _ _ => .release
  | .read _ _ => .read
  | .write _ _ => .write

def payload : Ask → List UInt8
  | .open _ path => path
  | .release _ path => path
  | .read _ src => src
  | .write _ src => src

/-- The union, as the request functions fill it in. -/
def data : Ask → PacketData
  | .open fileId path => .open fileId ⟨path.length, sizeofPacketInfo⟩
  | .release fileId path => .release fileId ⟨path.length, sizeofPacketInfo⟩
  | .read offset src => .read 0 offset ⟨src.length, sizeofPacketInfo⟩
  | .write offset src => .write 0 offset ⟨src.length, sizeofPacketInfo⟩

/-- The callback the request is for, and its arguments. -/
def call (pid : Nat) : Ask → CbCall
  | .open fileId path => .open fileId pid path
  | .release fileId path => .release fileId pid path
  | .read offset src => .read offset src.length src
  | .write offset src => .write offset src.length src

/-- A path is shorter than `PATH_MAX`, a block is a page at most, numbers fit 64 bits. -/
def Fits : Ask → Prop
  | .open fileId path => fileId < 2 ^ 64 ∧ path.length < pathMax
  | .release fileId path => fileId < 2 ^ 64 ∧ path.length < pathMax
  | .read offset src => offset < 2 ^ 64 ∧ src.length ≤ pageCacheSize
  | .write offset src => offset < 2 ^ 64 ∧ src.length ≤ pageCacheSize

theorem Fits.payload {ask : Ask} (fits : ask.Fits) : ask.payload.length ≤ 4096 := by
  cases ask with
  | «open» fileId path => exact Nat.le_of_lt fits.2
  | release fileId path => exact Nat.le_of_lt fits.2
  | read offset src => exact fits.2
  | write offset src => exact fits.2

end Ask

/-- A message whose fields are those of a request makes the call it is for. -/
theorem dealCall_eq {memory : Nat → UInt8} {msg : List UInt8} {ask : Ask} {pid : Nat}
    (type : field 16 1 msg = ask.type.code) (sender : field 20 4 msg = pid)
    (block : Reply.peek ⟨msg, memory⟩ sizeofPacketInfo ask.payload.length = ask.payload)
    (fields : match ask with
      | .open fileId path | .release fileId path =>
          field 32 8 msg = fileId ∧ field 40 4 msg = path.length ∧ field 44 4 msg = sizeofPacketInfo
      | .read offset src | .write offset src =>
          field 40 8 msg = offset ∧ field 48 4 msg = src.length ∧
            field 52 4 msg = sizeofPacketInfo) :
    dealCall memory msg = some (ask.call pid) := by
  simp only [dealCall, type, sender]
  cases ask with
  | «open» fileId path =>
      obtain ⟨id, size, offset⟩ := fields
      simp only [Ask.payload] at block
      simp only [Ask.type, Ask.call, if_true, id, size, offset, block]
  | release fileId path =>
      obtain ⟨id, size, offset⟩ := fields
      simp only [Ask.payload] at block
      simp [Ask.type, Ask.call, MsgType.code, id, size, offset, block]
  | read position src =>
      obtain ⟨at', size, offset⟩ := fields
      simp only [Ask.payload] at block
      simp [Ask.type, Ask.call, MsgType.code, at', size, offset, block]
  | write position src =>
      obtain ⟨at', size, offset⟩ := fields
      simp only [Ask.payload] at block
      simp [Ask.type, Ask.call, MsgType.code, at', size, offset, block]

/-- The library makes the call the request is for. -/
theorem threadPoolCbFunc_packet {header : PacketHeader} {ask : Ask} (fits : ask.Fits)
    (type : header.msgType = ask.type) (initiator : header.initiator = 0)
    (pid : header.pid < 2 ^ 32) (rest : List UInt8) (memory : Nat → UInt8) :
    threadPoolCbFunc memory ((⟨header, ask.data, ask.payload⟩ : Packet).toBytes ++ rest) =
      some (ask.call header.pid) := by
  have structSize : sizeofPacketInfo < 2 ^ 32 := by decide
  have sized : ask.payload.length < 2 ^ 32 := by
    have := fits.payload
    omega
  have block := peek_payload ⟨header, ask.data, ask.payload⟩ rest memory
  have bytes : (⟨header, ask.data, ask.payload⟩ : Packet).toBytes ++ rest =
      header.toBytes ++ (ask.data.toBytes ++ (ask.payload ++ rest)) := by
    simp only [Packet.toBytes, List.append_assoc]
  rw [bytes] at block ⊢
  rw [threadPoolCbFunc, field_initiator header _ (by rw [initiator]; decide), initiator,
    if_neg (by decide)]
  refine dealCall_eq (by rw [field_msgType, type]) (field_pid header _ pid) block ?_
  cases ask with
  | «open» fileId path => exact field_file header (path ++ rest) fits.1 sized structSize
  | release fileId path => exact field_file header (path ++ rest) fits.1 sized structSize
  | read position src => exact field_block header (src ++ rest) fits.1 sized structSize
  | write position src => exact field_block header (src ++ rest) fits.1 sized structSize

/-- The response to the call is, byte for byte, the reply to the request. -/
theorem dealResponse_call (cb : WireCb) (packet : Packet) (rest : List UInt8) {ask : Ask}
    (data : packet.data = ask.data) (payload : packet.payload = ask.payload) :
    dealResponse cb (packet.toBytes ++ rest) (some (ask.call packet.header.pid)) =
      dealTeadfsMsg cb.dealCb packet := by
  have front : (packet.toBytes ++ rest).take 32 = packet.header.toBytes := by
    rw [Packet.toBytes, List.append_assoc]
    exact List.take_left' packet.header.length_toBytes
  rw [dealTeadfsMsg, data, payload]
  cases ask with
  | «open» fileId path =>
      simp only [Ask.call, dealResponse, codeResponse, front]
      rfl
  | release fileId path =>
      simp only [Ask.call, dealResponse, codeResponse, front]
      rfl
  | read offset src =>
      simp only [Ask.call, dealResponse, blockResponse, front]
      rfl
  | write offset src =>
      simp only [Ask.call, dealResponse, blockResponse, front]
      rfl

/-- A reply starts with the header of its request. -/
theorem dealTeadfsMsg_header (cb : DealCb) (packet : Packet) :
    ∃ rest, dealTeadfsMsg cb packet = packet.header.toBytes ++ rest := by
  unfold dealTeadfsMsg
  split <;> exact ⟨_, rfl⟩

/-- A reply is not much longer than its request. -/
theorem length_dealTeadfsMsg (cb : WireCb) (packet : Packet) :
    (dealTeadfsMsg cb.dealCb packet).length ≤
      sizeofPacketInfo + packet.payload.length + dataExtensionSize := by
  unfold dealTeadfsMsg
  split
  · rw [length_codeReply]
    omega
  · rw [length_codeReply]
    omega
  · rename_i offset _ _
    have room : (cb.dealCb.onRead offset packet.payload).length ≤
      packet.payload.length + dataExtensionSize := (cb.onRead offset packet.payload).2
    rw [length_blockReply]
    omega
  · rename_i offset _ _
    have room : (cb.dealCb.onWrite offset packet.payload).length ≤
      packet.payload.length + dataExtensionSize := (cb.onWrite offset packet.payload).2
    rw [length_blockReply]
    omega

/-! ## Requests over the wire -/

/-- What the request functions put into the message the client's thread is handed. -/
def wireMsg (clientPid : Nat) (memory : Nat → UInt8) (packet : Packet) : List UInt8 :=
  threadRcv memory (teadfsSendToUser clientPid packet.toBytes)

/-- What `teadfs_request_send` comes back with, where both datagrams are delivered as they
are: the stored reply, if it carries the id of the request. -/
def overWire (cb : WireCb) (clientPid type seq : Nat) (memory beyondMsg beyond : Nat → UInt8)
    (packet : Packet) : SendResult :=
  let msg := wireMsg clientPid memory packet
  match teadfsNetlinkReceive
    (sendMsg type seq (dealResponse cb msg (threadPoolCbFunc beyondMsg msg))) with
  | none => .noReply
  | some (msgId, bytes) => if msgId = packet.header.msgId then .reply ⟨bytes, beyond⟩ else .noReply

/-- Every request goes over the wire to a client with the callbacks `cb`, and there is
memory for its packet. -/
structure Wired (env : Env) (cb : WireCb) : Prop where
  packetAlloc : ∀ t, env.packetAlloc t = true
  send : ∀ t packet, ∃ clientPid type seq memory beyondMsg beyond,
    env.send t packet = overWire cb clientPid type seq memory beyondMsg beyond packet

theorem nextMsgId_lt (uniqueId : Nat) : nextMsgId uniqueId < 2 ^ 64 := by
  unfold nextMsgId
  dsimp only
  split
  · decide
  · exact Nat.mod_lt _ (by decide)

section Wire

variable {env : Env} {cb : WireCb} {proc : Nat} {w : World} {ask : Ask}

/-- The packet a request function builds. -/
def Ask.packet (ask : Ask) (proc : Nat) (w : World) : Packet :=
  requestPacket proc ask.type ask.data ask.payload w

/-- The message the client's thread is handed starts with the packet. -/
theorem wireMsg_eq (fits : ask.Fits) (proc clientPid : Nat) (memory : Nat → UInt8) (w : World) :
    ∃ rest, wireMsg clientPid memory (ask.packet proc w) = (ask.packet proc w).toBytes ++ rest := by
  refine threadRcv_sendToUser memory clientPid ?_
  have short : (ask.packet proc w).payload.length ≤ 4096 := fits.payload
  rw [Packet.length_toBytes]
  exact Nat.le_trans (Nat.add_le_add_left short _) (by decide)

/-- The callback is called with what the request function was given. -/
theorem wire_call (fits : ask.Fits) (pid : proc < 2 ^ 31) (clientPid : Nat)
    (memory beyondMsg : Nat → UInt8) :
    threadPoolCbFunc beyondMsg (wireMsg clientPid memory (ask.packet proc w)) =
      some (ask.call proc) := by
  obtain ⟨rest, msg⟩ := wireMsg_eq fits proc clientPid memory w
  have small : (ask.packet proc w).header.pid < 2 ^ 32 := by
    have : (ask.packet proc w).header.pid = proc := rfl
    omega
  rw [msg]
  exact threadPoolCbFunc_packet fits rfl rfl small rest beyondMsg

/-- The kernel stores, under the id of the request, the reply `dealTeadfsMsg` describes. -/
theorem wire_reply (fits : ask.Fits) (clientPid type seq : Nat) (memory : Nat → UInt8) :
    teadfsNetlinkReceive (sendMsg type seq
        (dealResponse cb (wireMsg clientPid memory (ask.packet proc w)) (some (ask.call proc)))) =
      some ((ask.packet proc w).header.msgId, dealTeadfsMsg cb.dealCb (ask.packet proc w)) := by
  obtain ⟨rest, msg⟩ := wireMsg_eq fits proc clientPid memory w
  have short : (ask.packet proc w).payload.length ≤ 4096 := fits.payload
  have length := length_dealTeadfsMsg cb (ask.packet proc w)
  have bound : sizeofPacketInfo + 4096 + dataExtensionSize < 2 ^ 31 := by decide
  have response := dealResponse_call cb (ask.packet proc w) rest rfl rfl
  obtain ⟨behind, header⟩ := dealTeadfsMsg_header cb.dealCb (ask.packet proc w)
  have initiator : field 17 1 (dealTeadfsMsg cb.dealCb (ask.packet proc w)) = 0 := by
    rw [header, field_initiator _ _ (show 0 < 256 by decide)]
    rfl
  have msgId : field 8 8 (dealTeadfsMsg cb.dealCb (ask.packet proc w)) =
      (ask.packet proc w).header.msgId := by
    rw [header]
    exact field_msgId _ _ (nextMsgId_lt _)
  rw [msg]
  exact (congrArg (fun r => teadfsNetlinkReceive (sendMsg type seq r)) response).trans
    ((netlinkReceive_sendMsg type seq (by omega) (by rw [initiator]; decide)).trans (by rw [msgId]))

/-- An exchange over the wire ends with the reply `dealTeadfsMsg` describes. -/
theorem exchange_wired (wired : Wired env cb) (connected : Connected proc w) (pid : proc < 2 ^ 31)
    (fits : ask.Fits) :
    ∃ beyond, (exchange env proc ask.type ask.data ask.payload w).reply =
      some ⟨dealTeadfsMsg cb.dealCb (ask.packet proc w), beyond⟩ := by
  obtain ⟨clientPid, type, seq, memory, beyondMsg, beyond, sent⟩ :=
    wired.send w.chan.clock (ask.packet proc w)
  have reply : env.send w.chan.clock (ask.packet proc w) =
      .reply ⟨dealTeadfsMsg cb.dealCb (ask.packet proc w), beyond⟩ := by
    rw [sent]
    unfold overWire
    simp only [wire_call fits pid, wire_reply fits, if_true]
  have long := Nat.not_lt.mpr (sizeofPacketInfo_le_dealTeadfsMsg cb.dealCb (ask.packet proc w))
  refine ⟨beyond, ?_⟩
  simp only [Ask.packet, requestPacket] at reply long ⊢
  simp [exchange, connected.1, connected.2, wired.packetAlloc, reply, long]

end Wire

/-- The shipped data callbacks, and a client that lets every process decrypt. -/
def xorWireCb : WireCb where
  onOpen _ _ _ := ⟨4, by decide⟩
  onRelease _ _ _ := ⟨1, by decide⟩
  onRead _ src := ⟨src.map xorCipher, by rw [List.length_map]; exact Nat.le_add_right ..⟩
  onWrite _ src := ⟨src.map xorCipher, by rw [List.length_map]; exact Nat.le_add_right ..⟩

/-- Its answers come over the wire. -/
def wireEnv (cb : WireCb) : Env :=
  { clientEnv cb.dealCb with
    send := fun _ => overWire cb 1 0 0 (fun _ => 0) (fun _ => 0) fun _ => 0 }

theorem wireEnv_wired (cb : WireCb) : Wired (wireEnv cb) cb := by
  refine ⟨fun _ => rfl, fun _ _ => ⟨1, 0, 0, fun _ => 0, fun _ => 0, fun _ => 0, ?_⟩⟩
  rw [wireEnv]

end Teadfs
