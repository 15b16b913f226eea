/-
# Teadfs.Protocol — the messages between the kernel module and its client

`protocol.h` as both sides use it: the verdict codes, the request packets the
kernel builds, and the layout of a reply. A request is kept as the structure the
kernel fills in. A reply is kept as the bytes the kernel receives, because every
field of it is chosen by user space: `errorCode`, `blockSize` and `blockOffset`
read the fields at their x86-64 offsets, and `peek` is the `memcpy` out of the
reply, which nothing keeps inside it.

`dealTeadfsMsg` is the client library's answer (`TEADFS-utils/main.cpp`) for the
four requests the kernel sends; its fields are read back by the `_codeReply` and
`_blockReply` lemmas.
-/
import Teadfs.Lib.LittleEndian

namespace Teadfs.Protocol

set_option autoImplicit false

open LittleEndian

/-- `ENCRYPT_FILE_HEADER_SIZE`: the bytes of label in front of an encrypted file. -/
def encryptFileHeaderSize : Nat := 256

/-- `sizeof(struct teadfs_packet_info)`: a 32-byte header and a 24-byte union. -/
def sizeofPacketInfo : Nat := 56

/-- `enum OPEN_FILE_RESULT` as a C variable of that type holds it: the kernel also
stores negative error codes and whatever number the client returned there. -/
inductive OpenFileResult where
  | init
  | prohibit
  | encrypt
  | decrypt
  | other (code : Int)
  deriving DecidableEq, Repr

namespace OpenFileResult

def ofCode (code : Int) : OpenFileResult :=
  if code = 1 then .init
  else if code = 2 then .prohibit
  else if code = 3 then .encrypt
  else if code = 4 then .decrypt
  else .other code

def code : OpenFileResult → Int
  | .init => 1
  | .prohibit => 2
  | .encrypt => 3
  | .decrypt => 4
  | .other code => code

theorem ofCode_eq_encrypt {code : Int} : ofCode code = .encrypt ↔ code = 3 := by
  unfold ofCode
  split_ifs <;> simp_all

theorem ofCode_eq_decrypt {code : Int} : ofCode code = .decrypt ↔ code = 4 := by
  unfold ofCode
  split_ifs <;> simp_all

end OpenFileResult

/-- The `msg_type` values of the messages the kernel sends. -/
inductive MsgType where
  | «open»
  | release
  | read
  | write
  deriving DecidableEq, Repr

/-- `PR_MSG_USER` is 3; the requests count on from it. -/
def MsgType.code : MsgType → Nat
  | .open => 4
  | .release => 5
  | .read => 6
  | .write => 7

structure PacketHeader where
  size : Nat
  msgId : Nat
  msgType : MsgType
  initiator : Nat
  pid : Nat
  uid : Nat
  gid : Nat
  deriving DecidableEq, Repr

/-- `struct teadfs_protocol_binary`: where a block lies in its packet. -/
structure ProtocolBinary where
  size : Nat
  offset : Nat
  deriving DecidableEq, Repr

/-- The union of `struct teadfs_packet_info`, for the requests the kernel builds. -/
inductive PacketData where
  | «open» (fileId : Nat) (filePath : ProtocolBinary)
  | release (fileId : Nat) (filePath : ProtocolBinary)
  | read (code : Int) (offset : Nat) (readData : ProtocolBinary)
  | write (code : Int) (offset : Nat) (writeData : ProtocolBinary)
  deriving DecidableEq, Repr

/-- A request packet: `struct teadfs_packet_info` and the block that follows it. -/
structure Packet where
  header : PacketHeader
  data : PacketData
  payload : List UInt8
  deriving DecidableEq, Repr

/-- The `offset` field of a read or write request: the position the client's
callback is told for the first byte of the block. -/
def Packet.offset? (packet : Packet) : Option Nat :=
  match packet.data with
  | .read _ offset _ => some offset
  | .write _ offset _ => some offset
  | _ => none

/-! ## Replies -/

/-- A stored reply: the bytes the netlink handler copied, and what the kernel heap
holds at and after their end. -/
structure Reply where
  bytes : List UInt8
  beyond : Nat → UInt8

namespace Reply

/-- `data.code.error_code`, `data.read.code` and `data.write.code` are one field. -/
def errorCode (reply : Reply) : Int := sfield 32 4 reply.bytes

/-- `data.read.read_data.size` and `data.write.write_data.size` are one field. -/
def blockSize (reply : Reply) : Nat := field 48 4 reply.bytes

def blockOffset (reply : Reply) : Nat := field 52 4 reply.bytes

/-- `n` bytes of memory from `off` bytes after the start of the reply. -/
def peek (reply : Reply) (off n : Nat) : List UInt8 :=
  (List.range n).map fun i => (reply.bytes[off + i]?).getD (reply.beyond (off + i))

@[simp] theorem length_peek (reply : Reply) (off n : Nat) : (reply.peek off n).length = n := by
  simp [peek]

/-- A range inside the reply is read from the reply. -/
theorem peek_eq_slice {reply : Reply} {off n : Nat} (inside : off + n ≤ reply.bytes.length) :
    reply.peek off n = FileContent.slice off n reply.bytes := by
  apply List.ext_getElem?
  intro i
  rw [FileContent.getElem?_slice]
  simp only [peek, List.getElem?_map]
  grind

end Reply

/-! ## The client library's replies -/

/-- `struct TEAFS_DEAL_CB`. A data callback fills a block and sets its size. -/
structure DealCb where
  onOpen : Nat → Nat → List UInt8 → Int
  onRelease : Nat → Nat → List UInt8 → Int
  onRead : Nat → List UInt8 → List UInt8
  onWrite : Nat → List UInt8 → List UInt8

def PacketHeader.toBytes (header : PacketHeader) : List UInt8 :=
  le 4 header.size ++ le 4 0 ++ le 8 header.msgId ++ le 1 header.msgType.code ++
    le 1 header.initiator ++ le 2 0 ++ le 4 header.pid ++ le 4 header.uid ++ le 4 header.gid

@[simp] theorem PacketHeader.length_toBytes (header : PacketHeader) :
    header.toBytes.length = 32 := by
  simp [PacketHeader.toBytes]

/-- A reply that carries a result code. -/
def codeReply (header : PacketHeader) (code : Int) : List UInt8 :=
  header.toBytes ++ (sle 4 code ++ le 20 0)

/-- A reply that carries a block. -/
def blockReply (header : PacketHeader) (block : List UInt8) : List UInt8 :=
  header.toBytes ++ (sle 4 0 ++ (le 12 0 ++ (le 4 block.length ++ (le 4 sizeofPacketInfo ++ block))))

/-- `deal_teadfs_msg`: the reply the client library sends to a request. -/
def dealTeadfsMsg (cb : DealCb) (packet : Packet) : List UInt8 :=
  match packet.data with
  | .open fileId _ => codeReply packet.header (cb.onOpen fileId packet.header.pid packet.payload)
  | .release fileId _ =>
      codeReply packet.header (cb.onRelease fileId packet.header.pid packet.payload)
  | .read _ offset _ => blockReply packet.header (cb.onRead offset packet.payload)
  | .write _ offset _ => blockReply packet.header (cb.onWrite offset packet.payload)

@[simp] theorem length_codeReply (header : PacketHeader) (code : Int) :
    (codeReply header code).length = sizeofPacketInfo := by
  simp [codeReply, sizeofPacketInfo]

@[simp] theorem length_blockReply (header : PacketHeader) (block : List UInt8) :
    (blockReply header block).length = sizeofPacketInfo + block.length := by
  simp [blockReply, sizeofPacketInfo]
  omega

theorem errorCode_codeReply (header : PacketHeader) {code : Int} (beyond : Nat → UInt8)
    (lower : -(2 ^ 31) ≤ code) (upper : code < 2 ^ 31) :
    Reply.errorCode ⟨codeReply header code, beyond⟩ = code := by
  rw [Reply.errorCode, codeReply, sfield_append_right (k := 0) 4 _ (by simp)]
  exact sfield_sle (by omega) (by omega) _

/-- The code of a reply is its own, whatever the header says. -/
theorem errorCode_codeReply_congr (header header' : PacketHeader) (code : Int)
    (beyond beyond' : Nat → UInt8) :
    Reply.errorCode ⟨codeReply header code, beyond⟩ =
      Reply.errorCode ⟨codeReply header' code, beyond'⟩ := by
  have behind : ∀ (header : PacketHeader) (beyond : Nat → UInt8),
      Reply.errorCode ⟨codeReply header code, beyond⟩ = sfield 0 4 (sle 4 code ++ le 20 0) :=
    fun header _ => sfield_append_right 4 _ (by simp)
  rw [behind, behind]

section Block

variable (header : PacketHeader) (block : List UInt8) (beyond : Nat → UInt8)

theorem errorCode_blockReply : Reply.errorCode ⟨blockReply header block, beyond⟩ = 0 := by
  rw [Reply.errorCode, blockReply, sfield_append_right (k := 0) 4 _ (by simp)]
  exact sfield_sle (by omega) (by omega) _

theorem blockSize_blockReply (fits : block.length < 2 ^ 32) :
    Reply.blockSize ⟨blockReply header block, beyond⟩ = block.length := by
  rw [Reply.blockSize, blockReply, field_append_right (k := 16) 4 _ (by simp),
    field_append_right (k := 12) 4 _ (by simp), field_append_right (k := 0) 4 _ (by simp)]
  exact field_le_of_lt (by omega) _

theorem blockOffset_blockReply :
    Reply.blockOffset ⟨blockReply header block, beyond⟩ = sizeofPacketInfo := by
  rw [Reply.blockOffset, blockReply, field_append_right (k := 20) 4 _ (by simp),
    field_append_right (k := 16) 4 _ (by simp), field_append_right (k := 4) 4 _ (by simp),
    field_append_right (k := 0) 4 _ (by simp)]
  exact field_le_of_lt (by decide) _

theorem peek_blockReply :
    Reply.peek ⟨blockReply header block, beyond⟩ sizeofPacketInfo block.length = block := by
  rw [Reply.peek_eq_slice (by simp), blockReply, FileContent.slice]
  simp only [← List.append_assoc]
  rw [List.drop_left' (by simp [sizeofPacketInfo]), List.take_length]

end Block

end Teadfs.Protocol
