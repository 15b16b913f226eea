/-
# Teadfs.Bounds — what the kernel reads of what user space sends

Two places take lengths and offsets from user space. `teadfs_request_read` and
`teadfs_request_write` copy a block out of a stored reply: its size is checked against the
reply and against the destination, its offset against nothing (`blocks_inside_iff`). The
write also returns the size field of a reply that it has freed.

`teadfs_netlink_receive` looks at a datagram before it knows that it is long enough for a
header, and copies as many bytes as the netlink header says, as an `int` that becomes a
`size_t` (`receive_inside_iff`). Here it is run on the memory the datagram lies in, and
leaves a trace of what it reads.
-/
import Teadfs.FailedUpcalls
import Teadfs.WireFormat

namespace Teadfs

set_option autoImplicit false

open Protocol LittleEndian FileContent

/-! ## Replies -/

/-- `teadfs_request_write`, which returns the size field of the reply after freeing it:
`freed` is what that memory holds then. -/
def teadfsRequestWriteFreed (env : Env) (freed : List UInt8) (proc offset : Nat)
    (src : List UInt8) (dstSize : Nat) (w : World) : Int × List UInt8 × World :=
  let r := teadfsRequestWrite env proc offset src dstSize w
  (if r.1 < 0 then r.1 else sfield 48 4 freed, r.2)

/-- The reply passes the checks. -/
def Accepted (reply : Reply) (dstSize : Nat) : Prop :=
  sizeofPacketInfo ≤ reply.bytes.length ∧ reply.errorCode = 0 ∧
    reply.bytes.length = sizeofPacketInfo + reply.blockSize ∧ reply.blockSize ≤ dstSize

instance (reply : Reply) (dstSize : Nat) : Decidable (Accepted reply dstSize) :=
  inferInstanceAs (Decidable (_ ∧ _ ∧ _ ∧ _))

/-- A request function has failed and stored nothing, or has stored and returned the length
of a slice of the reply, at the offset the reply gives. -/
def Inside (reply : Reply) (dstSize : Nat) (rc : Int) (stored : List UInt8) : Prop :=
  rc < 0 ∧ stored = [] ∨
    0 ≤ rc ∧ rc ≤ dstSize ∧ reply.blockOffset + rc ≤ reply.bytes.length ∧
      stored = slice reply.blockOffset rc.toNat reply.bytes

/-- A request that is sent and answered. -/
structure Replied (env : Env) (proc : Nat) (type : MsgType) (data : PacketData) (src : List UInt8)
    (w : World) (reply : Reply) : Prop where
  connected : Connected proc w
  packet : env.packetAlloc w.chan.clock = true
  sent : env.send w.chan.clock (requestPacket proc type data src w) = .reply reply

section Replies

variable {env : Env} {proc : Nat} {type : MsgType} {data : PacketData} {src : List UInt8}
  {w : World} {reply : Reply}

/-- A reply that is too short for a packet counts as none. -/
theorem exchange_replied (replied : Replied env proc type data src w reply) :
    (exchange env proc type data src w).reply =
      if reply.bytes.length < sizeofPacketInfo then none else some reply := by
  obtain ⟨connected, packet, sent⟩ := replied
  unfold exchange
  rw [if_neg (by rw [connected.1]; decide), if_neg connected.2, if_neg (by rw [packet]; decide)]
  unfold requestPacket at sent
  dsimp only
  rw [sent]
  dsimp only
  split <;> rfl

/-- The block of an accepted reply is decoded to what memory holds at its offset. -/
theorem decodeBlock_eq (dstSize : Nat) (long : sizeofPacketInfo ≤ reply.bytes.length) :
    decodeBlock reply dstSize =
      if Accepted reply dstSize then some (reply.peek reply.blockOffset reply.blockSize)
      else none := by
  split
  · rename_i accepted
    obtain ⟨-, code, size, fits⟩ := accepted
    rw [decodeBlock, if_neg (not_not.mpr code), if_neg (not_not.mpr size),
      if_neg (Nat.not_lt.mpr fits)]
  · rename_i rejected
    rw [decodeBlock_eq_none_iff]
    by_contra passes
    simp only [not_or, not_not, Nat.not_lt] at passes
    exact rejected ⟨long, passes⟩

/-- What a block upcall makes of its reply. -/
theorem requestBlock_replied (dstSize : Nat) (replied : Replied env proc type data src w reply) :
    (requestBlock env proc type data src dstSize w).1 =
        (if Accepted reply dstSize then (reply.blockSize : Int) else enomem) ∧
      (requestBlock env proc type data src dstSize w).2.1 =
        if Accepted reply dstSize then reply.peek reply.blockOffset reply.blockSize else [] := by
  have answer := exchange_replied replied
  unfold requestBlock
  generalize exchange env proc type data src w = e at answer ⊢
  dsimp only
  by_cases short : reply.bytes.length < sizeofPacketInfo
  · have rejected : ¬ Accepted reply dstSize := fun accepted => Nat.not_lt.mpr accepted.1 short
    rw [answer, if_pos short, if_neg rejected, if_neg rejected]
    exact ⟨rfl, rfl⟩
  · rw [answer, if_neg short, Option.bind_some, decodeBlock_eq dstSize (Nat.not_lt.mp short)]
    by_cases accepted : Accepted reply dstSize
    · simp only [if_pos accepted, Reply.length_peek, and_self]
    · simp only [if_neg accepted, and_self]

end Replies

section Blocks

variable {reply : Reply} {dstSize : Nat}

/-- A block of an accepted reply is inside it exactly if it does not start behind the
packet structure. -/
theorem inside_accepted_iff (accepted : Accepted reply dstSize) :
    Inside reply dstSize reply.blockSize (reply.peek reply.blockOffset reply.blockSize) ↔
      reply.blockOffset ≤ sizeofPacketInfo := by
  obtain ⟨-, -, size, fits⟩ := accepted
  constructor
  · rintro (⟨negative, -⟩ | ⟨-, -, within, -⟩)
    · omega
    · omega
  · intro early
    refine .inr ⟨by omega, by omega, by omega, ?_⟩
    rw [Int.toNat_natCast]
    exact Reply.peek_eq_slice (by omega)

/-- A size read from freed memory is right if it is the size, or if there is nothing to copy
and it looks like an error. -/
theorem inside_freed_iff (accepted : Accepted reply dstSize) (freed : List UInt8) :
    Inside reply dstSize (sfield 48 4 freed) (reply.peek reply.blockOffset reply.blockSize) ↔
      reply.blockOffset ≤ sizeofPacketInfo ∧ sfield 48 4 freed = reply.blockSize ∨
        reply.blockSize = 0 ∧ sfield 48 4 freed < 0 := by
  have length := Reply.length_peek reply reply.blockOffset reply.blockSize
  constructor
  · rintro (⟨negative, none⟩ | ⟨nonneg, small, within, copied⟩)
    · rw [none] at length
      exact .inr ⟨length.symm, negative⟩
    · have same : sfield 48 4 freed = reply.blockSize := by
        rw [copied, length_slice] at length
        omega
      rw [same] at within
      have size := accepted.2.2.1
      exact .inl ⟨by omega, same⟩
  · rintro (⟨early, same⟩ | ⟨none, negative⟩)
    · rw [same]
      exact (inside_accepted_iff accepted).mpr early
    · refine .inl ⟨negative, ?_⟩
      rw [none]
      rfl

theorem inside_rejected : Inside reply dstSize enomem [] := .inl ⟨by decide, rfl⟩

end Blocks

/-- **A block is copied from inside its reply exactly if its offset is right.** For every
reply, every destination and every state of the freed reply: a read upcall fails and stores
nothing, or stores and returns the length of a slice of the reply, exactly if the reply
fails one of the checks or its block starts no later than the packet structure ends. For a
write upcall the freed reply must still hold the size, or, where that is zero, a number that
is negative. -/
theorem blocks_inside_iff (env : Env) (proc offset : Nat) (src : List UInt8) (w : World)
    (reply : Reply) (freed : List UInt8) (dstSize : Nat) :
    (Replied env proc .read (.read 0 offset ⟨src.length, sizeofPacketInfo⟩) src w reply →
      (Inside reply dstSize (teadfsRequestRead env proc offset src dstSize w).1
          (teadfsRequestRead env proc offset src dstSize w).2.1 ↔
        (Accepted reply dstSize → reply.blockOffset ≤ sizeofPacketInfo))) ∧
    (Replied env proc .write (.write 0 offset ⟨src.length, sizeofPacketInfo⟩) src w reply →
      (Inside reply dstSize (teadfsRequestWriteFreed env freed proc offset src dstSize w).1
          (teadfsRequestWriteFreed env freed proc offset src dstSize w).2.1 ↔
        (Accepted reply dstSize →
          reply.blockOffset ≤ sizeofPacketInfo ∧ sfield 48 4 freed = reply.blockSize ∨
            reply.blockSize = 0 ∧ sfield 48 4 freed < 0))) := by
  have failed : enomem < 0 := by decide
  constructor
  · intro read
    obtain ⟨rc, block⟩ := requestBlock_replied dstSize read
    rw [teadfsRequestRead, rc, block]
    by_cases accepted : Accepted reply dstSize
    · rw [if_pos accepted, if_pos accepted, inside_accepted_iff accepted]
      exact ⟨fun early _ => early, fun early => early accepted⟩
    · rw [if_neg accepted, if_neg accepted]
      exact ⟨fun _ passes => absurd passes accepted, fun _ => inside_rejected⟩
  · intro write
    obtain ⟨rc, block⟩ := requestBlock_replied dstSize write
    simp only [teadfsRequestWriteFreed, teadfsRequestWrite, rc, block]
    by_cases accepted : Accepted reply dstSize
    · have counted : ¬ (reply.blockSize : Int) < 0 := by omega
      simp only [if_pos accepted, if_neg counted]
      rw [inside_freed_iff accepted]
      exact ⟨fun right _ => right, fun right => right accepted⟩
    · simp only [if_neg accepted, if_pos failed]
      exact ⟨fun _ passes => absurd passes accepted, fun _ => inside_rejected⟩

/-- The client whose reply to everything is `bytes`, with zeros behind it. -/
def fixedReply (bytes : List UInt8) : Env :=
  { clientEnv (xorCb .decrypt) with send := fun _ _ => .reply ⟨bytes, fun _ => 0⟩ }

/-- A reply with a code of zero, a block size and a block offset, and the block. -/
def replyWith (size offset : Nat) (block : List UInt8) : List UInt8 :=
  List.replicate 48 0 ++ (le 4 size ++ (le 4 offset ++ block))

theorem fixedReply_replied (bytes : List UInt8) (type : MsgType) (data : PacketData)
    (src lower : List UInt8) :
    Replied (fixedReply bytes) 7 type data src (freshWorld lower) ⟨bytes, fun _ => 0⟩ :=
  ⟨⟨rfl, show 7 ≠ 1 by decide⟩, rfl, rfl⟩

theorem block_behind_header_inside :
    Inside ⟨replyWith 2 56 [1, 2], fun _ => 0⟩ 4
        (teadfsRequestRead (fixedReply (replyWith 2 56 [1, 2])) 7 0 [8] 4 (freshWorld [])).1
        (teadfsRequestRead (fixedReply (replyWith 2 56 [1, 2])) 7 0 [8] 4 (freshWorld [])).2.1 ∧
      Inside ⟨replyWith 2 56 [1, 2], fun _ => 0⟩ 4
        (teadfsRequestWriteFreed (fixedReply (replyWith 2 56 [1, 2])) (replyWith 2 56 [1, 2]) 7 0
          [8] 4 (freshWorld [])).1
        (teadfsRequestWriteFreed (fixedReply (replyWith 2 56 [1, 2])) (replyWith 2 56 [1, 2]) 7 0
          [8] 4 (freshWorld [])).2.1 := by
  have bounds := blocks_inside_iff (fixedReply (replyWith 2 56 [1, 2])) 7 0 [8] (freshWorld [])
    ⟨replyWith 2 56 [1, 2], fun _ => 0⟩ (replyWith 2 56 [1, 2]) 4
  have read := bounds.1 (fixedReply_replied ..)
  have write := bounds.2 (fixedReply_replied ..)
  exact ⟨read.mpr fun _ => by decide +kernel,
    write.mpr fun _ => .inl ⟨by decide +kernel, by decide +kernel⟩⟩

/-- A block of one byte that starts one byte late is copied from behind the reply. -/
theorem late_block_outside :
    ¬ ∀ (bytes : List UInt8) (dstSize : Nat),
      Inside ⟨bytes, fun _ => 0⟩ dstSize
        (teadfsRequestRead (fixedReply bytes) 7 0 [8] dstSize (freshWorld [])).1
        (teadfsRequestRead (fixedReply bytes) 7 0 [8] dstSize (freshWorld [])).2.1 := by
  intro inside
  rcases inside (replyWith 1 57 [1]) 4096 with ⟨negative, -⟩ | ⟨-, -, within, -⟩
  · exact absurd negative (by decide +kernel)
  · exact absurd within (by decide +kernel)

/-! ## Datagrams -/

/-- A received datagram: its bytes, and what memory holds behind them. -/
abbrev Skb := Reply

/-- The `n`-byte number at `off` of a datagram, or of the memory behind it. -/
def Skb.word (skb : Skb) (off n : Nat) : Nat := field 0 n (skb.peek off n)

/-- What the handler does to memory: it reads `n` bytes at `off` of the datagram, or copies
`n` bytes into a buffer of `allocated`. -/
inductive MemAccess where
  | read (off n : Nat)
  | copy (allocated n : Nat)
  deriving DecidableEq, Repr

/-- The bytes read are bytes of the datagram, and the buffer is long enough. -/
def MemAccess.Inside (length : Nat) : MemAccess → Prop
  | .read off n => ∀ i < n, off + i < length
  | .copy allocated n => n ≤ allocated

/-- What comes of a datagram. -/
inductive Received where
  | ignored
  | hello (pid : Nat)
  | close
  /-- The request is done, with no response: there was no memory. -/
  | noMemory (msgId : Nat)
  | stored (msgId : Nat) (response : List UInt8)

/-- `nlmsg_len()`: an unsigned subtraction, returned as an `int`. -/
def nlmsgLen (len : Nat) : Int := Int.bmod ((len : Int) - nlmsgHdrlen) (2 ^ 32)

/-- An `int` stored in a `size_t`. -/
def sizeT (n : Int) : Nat := (n % 2 ^ 64).toNat

/-- `teadfs_user_request_kernel`. HELLO copies the packet's header and looks at the pid
twice, once for the log. -/
def teadfsUserRequestKernelSkb (skb : Skb) : List MemAccess × Received :=
  -- `header.msg_type`
  let type := skb.word 32 1
  if type = 1 then
    ([.read 32 1, .read 16 32, .read 48 4, .read 48 4], .hello (skb.word 48 4))
  else if type = 2 then ([.read 32 1], .close)
  else ([.read 32 1], .ignored)

/-- The walk of the queue of pending requests, given by their ids. -/
def deliver (alloc : Nat → Bool) (skb : Skb) : List Nat → List MemAccess × Received
  | [] => ([], .ignored)
  | msgId :: queue =>
      -- `header.msg_id`
      if skb.word 24 8 = msgId then
        let len := skb.word 0 4
        if alloc len = false then ([.read 24 8, .read 0 4], .noMemory msgId)
        else
          let size := sizeT (nlmsgLen len)
          ([.read 24 8, .read 0 4, .read 0 4, .read nlmsgHdrlen size, .copy len size],
            .stored msgId (skb.peek nlmsgHdrlen size))
      else
        let r := deliver alloc skb queue
        (.read 24 8 :: r.1, r.2)

/-- `teadfs_netlink_receive`: what it does to memory, and what comes of it. The length is
read for the log first. -/
def teadfsNetlinkReceiveSkb (alloc : Nat → Bool) (queue : List Nat) (skb : Skb) :
    List MemAccess × Received :=
  -- `header.initiator`
  let r := if skb.word 33 1 = 1 then teadfsUserRequestKernelSkb skb else deliver alloc skb queue
  (.read 0 4 :: .read 33 1 :: r.1, r.2)

/-- The datagram is long enough for a header up to the initiator; HELLO is long enough for
a pid; and the netlink length of a reply that is stored is that of a netlink header at
least, that of the datagram at most, and positive as an `int`. -/
def Fits (alloc : Nat → Bool) (queue : List Nat) (skb : Skb) : Prop :=
  34 ≤ skb.bytes.length ∧
    (skb.word 33 1 = 1 → skb.word 32 1 = 1 → 52 ≤ skb.bytes.length) ∧
    (skb.word 33 1 ≠ 1 → skb.word 24 8 ∈ queue → alloc (skb.word 0 4) = true →
      nlmsgHdrlen ≤ skb.word 0 4 ∧ skb.word 0 4 < 2 ^ 31 + nlmsgHdrlen ∧
        skb.word 0 4 ≤ skb.bytes.length)

instance (alloc : Nat → Bool) (queue : List Nat) (skb : Skb) : Decidable (Fits alloc queue skb) :=
  inferInstanceAs (Decidable (_ ∧ _ ∧ _))

theorem inside_read_iff {length off n : Nat} :
    (MemAccess.read off n).Inside length ↔ n = 0 ∨ off + n ≤ length := by
  constructor
  · intro within
    rcases Nat.eq_zero_or_pos n with none | some
    · exact .inl none
    · have last := within (n - 1) (by omega)
      omega
  · rintro (none | within) i inside
    · omega
    · omega

/-- The length, as an `int` that becomes a `size_t`, is no more than was allocated exactly
if the header can be taken off it and the rest is an `int`. -/
theorem sizeT_nlmsgLen_le_iff {len : Nat} (word : len < 2 ^ 32) :
    sizeT (nlmsgLen len) ≤ len ↔ nlmsgHdrlen ≤ len ∧ len < 2 ^ 31 + nlmsgHdrlen := by
  simp only [sizeT, nlmsgLen, nlmsgHdrlen, Int.bmod_def]
  push_cast
  split <;> omega

theorem sizeT_nlmsgLen {len : Nat} (header : nlmsgHdrlen ≤ len)
    (int : len < 2 ^ 31 + nlmsgHdrlen) : sizeT (nlmsgLen len) = len - nlmsgHdrlen := by
  simp only [sizeT, nlmsgLen, nlmsgHdrlen, Int.bmod_def] at *
  push_cast
  split <;> omega

section Datagrams

variable {alloc : Nat → Bool} {skb : Skb}

/-- The copy of a reply is inside the datagram and inside its buffer. -/
theorem copy_inside_iff (long : 34 ≤ skb.bytes.length) :
    (MemAccess.read nlmsgHdrlen (sizeT (nlmsgLen (skb.word 0 4)))).Inside skb.bytes.length ∧
        (MemAccess.copy (skb.word 0 4) (sizeT (nlmsgLen (skb.word 0 4)))).Inside
          skb.bytes.length ↔
      nlmsgHdrlen ≤ skb.word 0 4 ∧ skb.word 0 4 < 2 ^ 31 + nlmsgHdrlen ∧
        skb.word 0 4 ≤ skb.bytes.length := by
  have word : skb.word 0 4 < 2 ^ 32 := field_lt 0 4 _
  rw [inside_read_iff, MemAccess.Inside, sizeT_nlmsgLen_le_iff word]
  constructor
  · rintro ⟨within, header, int⟩
    rw [sizeT_nlmsgLen header int] at within
    have hdr : nlmsgHdrlen = 16 := rfl
    exact ⟨header, int, by omega⟩
  · rintro ⟨header, int, within⟩
    rw [sizeT_nlmsgLen header int]
    exact ⟨.inr (by omega), header, int⟩

/-- The walk stays inside exactly if the copy for the request it finds does. -/
theorem deliver_inside_iff (long : 34 ≤ skb.bytes.length) (queue : List Nat) :
    (∀ access ∈ (deliver alloc skb queue).1, access.Inside skb.bytes.length) ↔
      (skb.word 24 8 ∈ queue → alloc (skb.word 0 4) = true →
        nlmsgHdrlen ≤ skb.word 0 4 ∧ skb.word 0 4 < 2 ^ 31 + nlmsgHdrlen ∧
          skb.word 0 4 ≤ skb.bytes.length) := by
  have id : (MemAccess.read 24 8).Inside skb.bytes.length := inside_read_iff.mpr (.inr (by omega))
  have len : (MemAccess.read 0 4).Inside skb.bytes.length := inside_read_iff.mpr (.inr (by omega))
  induction queue with
  | nil => simp [deliver]
  | cons msgId queue ih =>
      by_cases found : skb.word 24 8 = msgId
      · cases allocated : alloc (skb.word 0 4) with
        | false => simp [deliver, found, allocated, id, len]
        | true =>
            rw [← copy_inside_iff long]
            simp [deliver, found, allocated, id, len]
      · simp only [deliver, found, if_false, List.forall_mem_cons, id, true_and]
        rw [List.mem_cons, or_iff_right found]
        exact ih

theorem teadfsUserRequestKernelSkb_inside_iff (long : 34 ≤ skb.bytes.length) :
    (∀ access ∈ (teadfsUserRequestKernelSkb skb).1, access.Inside skb.bytes.length) ↔
      (skb.word 32 1 = 1 → 52 ≤ skb.bytes.length) := by
  have type : (MemAccess.read 32 1).Inside skb.bytes.length :=
    inside_read_iff.mpr (.inr (by omega))
  unfold teadfsUserRequestKernelSkb
  dsimp only
  by_cases hello : skb.word 32 1 = 1
  · rw [if_pos hello]
    simp only [List.forall_mem_cons, type, true_and, inside_read_iff, hello, forall_const]
    constructor
    · rintro ⟨-, pid, -⟩
      omega
    · intro room
      exact ⟨.inr (by omega), .inr (by omega), .inr (by omega), nofun⟩
  · rw [if_neg hello]
    split <;> simp [type, hello]

/-- **The handler stays inside a datagram exactly if the datagram fits.** For every byte
string, whatever lies behind it in memory, every queue of pending requests and every answer
of the allocator: all bytes that `teadfs_netlink_receive` and `teadfs_user_request_kernel`
read are bytes of the datagram, and no more is copied into a response buffer than was
allocated for it, exactly if `Fits` holds of the datagram. -/
theorem receive_inside_iff (alloc : Nat → Bool) (queue : List Nat) (skb : Skb) :
    (∀ access ∈ (teadfsNetlinkReceiveSkb alloc queue skb).1, access.Inside skb.bytes.length) ↔
      Fits alloc queue skb := by
  simp only [teadfsNetlinkReceiveSkb, List.forall_mem_cons, Fits]
  by_cases long : 34 ≤ skb.bytes.length
  · have len : (MemAccess.read 0 4).Inside skb.bytes.length :=
      inside_read_iff.mpr (.inr (by omega))
    have initiator : (MemAccess.read 33 1).Inside skb.bytes.length :=
      inside_read_iff.mpr (.inr (by omega))
    by_cases request : skb.word 33 1 = 1
    · simp only [len, initiator, request, if_true, true_and, long, forall_const, ne_eq, not_true,
        false_implies, and_true]
      exact teadfsUserRequestKernelSkb_inside_iff long
    · simp only [len, initiator, request, if_false, true_and, long, ne_eq, not_false_iff,
        forall_const, false_implies]
      exact deliver_inside_iff long queue
  · refine ⟨?_, fun fits => absurd fits.1 long⟩
    rintro ⟨-, initiator, -⟩
    rcases inside_read_iff.mp initiator with none | within
    · cases none
    · omega

/-- A number inside the datagram is a field of it. -/
theorem word_eq_field {off n : Nat} (inside : off + n ≤ skb.bytes.length) :
    skb.word off n = field off n skb.bytes := by
  rw [Skb.word, Reply.peek_eq_slice inside]
  simp only [field, slice, List.drop_zero, List.take_take, Nat.min_self]

/-- What is stored is for a request of the queue, under the id of the datagram. -/
theorem deliver_stored {queue : List Nat} {msgId : Nat} {response : List UInt8}
    (stored : (deliver alloc skb queue).2 = .stored msgId response) :
    skb.word 24 8 ∈ queue ∧ alloc (skb.word 0 4) = true ∧ skb.word 24 8 = msgId ∧
      response = skb.peek nlmsgHdrlen (sizeT (nlmsgLen (skb.word 0 4))) := by
  induction queue with
  | nil => cases stored
  | cons first queue ih =>
      by_cases found : skb.word 24 8 = first
      · cases allocated : alloc (skb.word 0 4) with
        | false =>
            simp only [deliver, found, allocated, if_true] at stored
            cases stored
        | true =>
            simp only [deliver, found, allocated, Bool.true_eq_false, if_true, if_false,
              Received.stored.injEq] at stored
            exact ⟨by rw [found]; exact List.mem_cons_self, rfl, found.trans stored.1,
              stored.2.symm⟩
      · simp only [deliver, found, if_false] at stored
        obtain ⟨queued, rest⟩ := ih stored
        exact ⟨List.mem_cons_of_mem _ queued, rest⟩

/-- A response stored from a datagram that fits is the one that is there in its bytes. -/
theorem receive_stored {queue : List Nat} {msgId : Nat} {response : List UInt8}
    (fits : Fits alloc queue skb)
    (stored : (teadfsNetlinkReceiveSkb alloc queue skb).2 = .stored msgId response) :
    teadfsNetlinkReceive skb.bytes = some (msgId, response) := by
  obtain ⟨long, -, room⟩ := fits
  have reply : skb.word 33 1 ≠ 1 := by
    intro request
    simp only [teadfsNetlinkReceiveSkb, request, if_true, teadfsUserRequestKernelSkb] at stored
    split at stored
    · cases stored
    · split at stored <;> cases stored
  simp only [teadfsNetlinkReceiveSkb, if_neg reply] at stored
  obtain ⟨queued, allocated, id, copied⟩ := deliver_stored stored
  obtain ⟨header, int, within⟩ := room reply queued allocated
  rw [sizeT_nlmsgLen header int, Reply.peek_eq_slice (by omega), slice] at copied
  have behind : ∀ off n, nlmsgHdrlen + off + n ≤ skb.bytes.length →
      field off n (skb.bytes.drop nlmsgHdrlen) = skb.word (nlmsgHdrlen + off) n := by
    intro off n inside
    rw [word_eq_field inside, field, field, slice, slice, List.drop_drop]
  have hdr : nlmsgHdrlen = 16 := rfl
  have initiator : field 17 1 (skb.bytes.drop nlmsgHdrlen) = skb.word 33 1 :=
    behind 17 1 (by omega)
  have named : field 8 8 (skb.bytes.drop nlmsgHdrlen) = skb.word 24 8 := behind 8 8 (by omega)
  have len : field 0 4 skb.bytes = skb.word 0 4 := (word_eq_field (by omega)).symm
  simp only [teadfsNetlinkReceive, initiator, if_neg reply, named, id, len, copied]

end Datagrams

/-- The client library's answer to a message type it does not handle has no payload: where
the initiator should be, there is no datagram any more. -/
theorem empty_payload_outside :
    ¬ ∀ (alloc : Nat → Bool) (queue : List Nat) (skb : Skb),
      ∀ access ∈ (teadfsNetlinkReceiveSkb alloc queue skb).1, access.Inside skb.bytes.length := by
  intro inside
  have initiator := inside (fun _ => true) [] ⟨sendMsg 0 0 [], fun _ => 0⟩ (.read 33 1)
    (List.mem_cons_of_mem _ List.mem_cons_self) 0 (by decide)
  exact absurd initiator (by decide)

end Teadfs
