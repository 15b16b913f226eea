/-
# Teadfs.Ledger — the buffers of one upcall

What `teadfs_zalloc` hands out on behalf of one call of a request function: the packet,
the context and a copy of every reply that finds the context. The call runs against the
handlers of `HandOff`, in any order of their moves. `created` and `removed` are the two
columns of the ledger, and `stale` remembers that a buffer was used after its removal.

The context is always freed once (`ctx_removed_once`), and no handler touches it after that:
it works under the queue's mutex, on a context it found on the queue. The other two are not
always freed. `teadfs_request_read` and `teadfs_request_write` never free their packet, and
the latter frees its reply only where the block is copied, and reads the size of the block
from it then. A reply buffer is lost where its pointer is overwritten before the requester
reads it, by a timeout or another reply, and where it is stored after that. `Keeps` is the
condition on a move under which none is lost; `step_accounted` is one move, and
`upcall_buffers_settled_iff` every run.
-/
import Teadfs.HandOff
import Teadfs.UserCom

namespace Teadfs

set_option autoImplicit false

open Protocol

/-- The request functions; those that copy a block out have so much room for it. -/
inductive RequestFn where
  | open
  | release
  | read (dstSize : Nat)
  | write (dstSize : Nat)
  deriving DecidableEq, Repr

/-- The function frees its packet on the way out. -/
def RequestFn.freesPacket : RequestFn → Bool
  | .open => true
  | .release => true
  | .read _ => false
  | .write _ => false

inductive Buffer where
  | packet
  | ctx
  /-- The copy of a reply that handler `h` stored. -/
  | response (h : Nat)
  deriving DecidableEq, Repr

def responses (data : Option Nat) : List Buffer := data.toList.map Buffer.response

namespace Move

def ofHandler : Move → Bool
  | .handlerLock _ => true
  | .handlerMiss _ => true
  | .handlerLockCtx _ => true
  | .storeDone _ => true
  | .storeMsg _ _ => true
  | .storeSize _ => true
  | .copy _ => true
  | .handlerUnlockCtx _ => true
  | .handlerUnlock _ => true
  | _ => false

/-- The buffers a move reads or writes. The packet is sent on the way to the wait. -/
def touched : Move → List Buffer
  | .lockAdd => []
  | .unlockAdd => []
  | .testNoReply => [.packet, .ctx]
  | .lockDel => []
  | .unlockDel => []
  | .handlerLock _ => []
  | .handlerMiss _ => []
  | .copy h => [.ctx, .response h]
  | .handlerUnlock _ => []
  | _ => [.ctx]

/-- The buffers a move allocates. -/
def creates : Move → List Buffer
  | .storeMsg h true => [.response h]
  | _ => []

theorem mem_creates {m : Move} {b : Buffer} (created : b ∈ m.creates) :
    ∃ h, m = .storeMsg h true ∧ b = .response h := by
  unfold creates at created
  split at created
  · exact ⟨_, rfl, List.mem_singleton.mp created⟩
  · cases created

theorem nodup_creates (m : Move) : m.creates.Nodup := by
  unfold creates
  split
  · exact List.nodup_singleton _
  · exact .nil

end Move

/-! ## The reply, from the handler to the requester -/

/-- The context is on the queue. -/
def WaiterPc.linked : WaiterPc → Bool
  | .start => false
  | .adding => false
  | .deleted _ _ => false
  | .returned _ _ => false
  | _ => true

/-- The requester has read the pointer to the reply. -/
def WaiterPc.fetched : WaiterPc → Option (Option Nat)
  | .paired _ data => some data
  | .deleting _ data => some data
  | .deleted _ data => some data
  | .returned _ data => some data
  | _ => none

/-- The handler has found the context and not let go of it. -/
def HandlerPc.onCtx : HandlerPc → Bool
  | .ctxLocked => true
  | .doneStored => true
  | .msgStored => true
  | .sizeStored => true
  | .copied => true
  | _ => false

/-- The handler will not allocate any more. -/
def HandlerPc.stored : HandlerPc → Bool
  | .idle => false
  | .queueLocked => false
  | .ctxLocked => false
  | .doneStored => false
  | _ => true

namespace HandOff

variable {reply : Nat → Datagram} {s : HandOff}

/-- The reply buffer the requester has, or is to find. -/
def owned (s : HandOff) : List Buffer := responses (s.waiter.fetched.getD s.response)

/-- The condition on a move: no reply buffer is overwritten before its pointer is read, and
none is stored after that. -/
def Keeps (s : HandOff) : Move → Prop
  | .putMsg => s.response = none
  | .storeMsg _ allocated =>
      match s.waiter.fetched with
      | none => s.response = none
      | some _ => allocated = false
  | _ => True

/-- A handler that works on the context found it on the queue. -/
structure Linked (s : HandOff) : Prop where
  onCtx : ∀ h, (s.handlers h).onCtx = true → s.queued = true
  linked : s.queued = true → s.waiter.linked = true
  unsent : s.waiter = .start → s.response = none

/-! ### One move of the hand-off -/

section Moves

variable {reply : Nat → Datagram} {s : HandOff} {m : Move}

theorem start_linked : start.Linked where
  onCtx _ working := by cases working
  linked queued := by cases queued
  unsent _ := rfl

/-- A handler that touches a buffer works on a context that is on the queue. -/
theorem Linked.queued_of_touched (linked : s.Linked) (enabled : s.Enabled m)
    (byHandler : m.ofHandler = true) {b : Buffer} (touched : b ∈ m.touched) :
    s.queued = true := by
  cases m with
  | handlerLockCtx h => exact enabled.2.1
  | storeDone h => exact linked.onCtx h (by rw [enabled]; rfl)
  | storeMsg h allocated => exact linked.onCtx h (by rw [enabled]; rfl)
  | storeSize h => exact linked.onCtx h (by rw [enabled]; rfl)
  | copy h => exact linked.onCtx h (by rw [enabled]; rfl)
  | handlerUnlockCtx h => exact linked.onCtx h (by rw [enabled]; rfl)
  | handlerLock h => cases touched
  | handlerMiss h => cases touched
  | handlerUnlock h => cases touched
  | _ => cases byHandler

/-- A handler does not move the context on or off the queue, nor the requester. -/
theorem next_ofHandler (reply : Nat → Datagram) (s : HandOff) (byHandler : m.ofHandler = true) :
    (s.next reply m).queued = s.queued ∧ (s.next reply m).waiter = s.waiter := by
  cases m with
  | storeMsg h allocated => cases allocated <;> exact ⟨rfl, rfl⟩
  | handlerLock h => exact ⟨rfl, rfl⟩
  | handlerMiss h => exact ⟨rfl, rfl⟩
  | handlerLockCtx h => exact ⟨rfl, rfl⟩
  | storeDone h => exact ⟨rfl, rfl⟩
  | storeSize h => exact ⟨rfl, rfl⟩
  | copy h => exact ⟨rfl, rfl⟩
  | handlerUnlockCtx h => exact ⟨rfl, rfl⟩
  | handlerUnlock h => exact ⟨rfl, rfl⟩
  | _ => cases byHandler

/-- A move of the requester with the context on the queue. -/
theorem Linked.waiterMove (linked : s.Linked) {t : HandOff} (handlers : t.handlers = s.handlers)
    (queued : t.queued = s.queued) (listed : t.waiter.linked = true) : t.Linked := by
  refine ⟨?_, fun _ => listed, ?_⟩
  · rw [handlers, queued]
    exact linked.onCtx
  · intro pc
    rw [pc] at listed
    cases listed

/-- A move of a handler that works on the context only if that is on the queue. -/
theorem Linked.handlerMove (linked : s.Linked) {t : HandOff} {h : Nat} {pc : HandlerPc}
    (there : pc.onCtx = true → s.queued = true)
    (handlers : t.handlers = (s.setHandler h pc).handlers) (queued : t.queued = s.queued)
    (waiter : t.waiter = s.waiter) (unsent : s.waiter = .start → t.response = none) :
    t.Linked := by
  refine ⟨fun h' working => ?_, ?_, ?_⟩
  · rw [queued]
    rw [handlers] at working
    by_cases here : h' = h
    · rw [here, setHandler_self] at working
      exact there working
    · rw [setHandler_of_ne s here] at working
      exact linked.onCtx h' working
  · rw [queued, waiter]
    exact linked.linked
  · rw [waiter]
    exact unsent

theorem Linked.next (linked : s.Linked) (exclusive : s.Exclusive) (enabled : s.Enabled m) :
    (s.next reply m).Linked := by
  cases m with
  | lockAdd =>
      refine ⟨linked.onCtx, fun queued => ?_, fun pc => by cases pc⟩
      have old := linked.linked queued
      rw [enabled.1] at old
      cases old
  | listAdd => exact ⟨fun _ _ => rfl, fun _ => rfl, fun pc => by cases pc⟩
  | unlockAdd => exact linked.waiterMove rfl rfl rfl
  | testNoReply => exact linked.waiterMove rfl rfl rfl
  | seeDone => exact linked.waiterMove rfl rfl rfl
  | timeOut => exact linked.waiterMove rfl rfl rfl
  | lockCtx => exact linked.waiterMove rfl rfl rfl
  | putState => exact linked.waiterMove rfl rfl rfl
  | putSize => exact linked.waiterMove rfl rfl rfl
  | putMsg => exact linked.waiterMove rfl rfl rfl
  | unlockCtx => exact linked.waiterMove rfl rfl rfl
  | readSize => exact linked.waiterMove rfl rfl rfl
  | readData =>
      obtain ⟨size, pc⟩ := enabled
      simp only [HandOff.next, pc]
      exact linked.waiterMove rfl rfl rfl
  | lockDel =>
      obtain ⟨⟨size, data, pc⟩, -⟩ := enabled
      simp only [HandOff.next, pc]
      exact linked.waiterMove rfl rfl rfl
  | listDel =>
      obtain ⟨size, data, pc⟩ := enabled
      simp only [HandOff.next, pc]
      refine ⟨fun h working => ?_, fun queued => ?_, fun pc => ?_⟩
      · -- the requester holds the queue, so no handler is at work
        have owner := exclusive.holding (by rw [pc]; rfl)
        have other := exclusive.inside h (by
          revert working
          cases s.handlers h <;> decide)
        rw [owner] at other
        cases other
      · cases queued
      · cases pc
  | unlockDel =>
      obtain ⟨size, data, pc⟩ := enabled
      simp only [HandOff.next, pc]
      refine ⟨linked.onCtx, fun queued => ?_, fun pc => by cases pc⟩
      have old := linked.linked queued
      rw [pc] at old
      cases old
  | handlerLock h =>
      exact linked.handlerMove (fun working => by cases working) rfl rfl rfl linked.unsent
  | handlerMiss h =>
      exact linked.handlerMove (fun working => by cases working) rfl rfl rfl linked.unsent
  | handlerLockCtx h =>
      exact linked.handlerMove (fun _ => enabled.2.1) rfl rfl rfl linked.unsent
  | storeDone h =>
      have queued := linked.queued_of_touched enabled rfl (.head _)
      exact linked.handlerMove (fun _ => queued) rfl rfl rfl linked.unsent
  | storeMsg h allocated =>
      have queued := linked.queued_of_touched enabled rfl (.head _)
      have sent : s.waiter ≠ .start := by
        intro pc
        have old := linked.linked queued
        rw [pc] at old
        cases old
      cases allocated <;>
        exact linked.handlerMove (fun _ => queued) rfl rfl rfl fun pc => absurd pc sent
  | storeSize h =>
      have queued := linked.queued_of_touched enabled rfl (.head _)
      exact linked.handlerMove (fun _ => queued) rfl rfl rfl linked.unsent
  | copy h =>
      have queued := linked.queued_of_touched enabled rfl (.head _)
      exact linked.handlerMove (fun _ => queued) rfl rfl rfl linked.unsent
  | handlerUnlockCtx h =>
      exact linked.handlerMove (fun working => by cases working) rfl rfl rfl linked.unsent
  | handlerUnlock h =>
      exact linked.handlerMove (fun working => by cases working) rfl rfl rfl linked.unsent

/-- While the context is off the queue, a handler creates and loses nothing. -/
theorem Linked.off (linked : s.Linked) (enabled : s.Enabled m) (byHandler : m.ofHandler = true)
    (off : ¬ s.queued = true) : m.creates = [] ∧ s.Keeps m := by
  cases m with
  | storeMsg h allocated => exact absurd (linked.queued_of_touched enabled rfl (.head _)) off
  | handlerLock h => exact ⟨rfl, trivial⟩
  | handlerMiss h => exact ⟨rfl, trivial⟩
  | handlerLockCtx h => exact ⟨rfl, trivial⟩
  | storeDone h => exact ⟨rfl, trivial⟩
  | storeSize h => exact ⟨rfl, trivial⟩
  | copy h => exact ⟨rfl, trivial⟩
  | handlerUnlockCtx h => exact ⟨rfl, trivial⟩
  | handlerUnlock h => exact ⟨rfl, trivial⟩
  | _ => cases byHandler

theorem stored_setHandler {h h' : Nat} {pc : HandlerPc}
    (past : (s.handlers h).stored = true → pc.stored = true)
    (stored : (s.handlers h').stored = true) :
    ((s.setHandler h pc).handlers h').stored = true := by
  by_cases here : h' = h
  · rw [here, setHandler_self]
    exact past (here ▸ stored)
  · rw [setHandler_of_ne s here]
    exact stored

/-- A handler allocates once. -/
theorem stored_next (enabled : s.Enabled m) {h : Nat} (stored : (s.handlers h).stored = true) :
    ((s.next reply m).handlers h).stored = true := by
  cases m with
  | readData =>
      obtain ⟨size, pc⟩ := enabled
      simpa only [HandOff.next, pc] using stored
  | lockDel =>
      obtain ⟨⟨size, data, pc⟩, -⟩ := enabled
      simpa only [HandOff.next, pc] using stored
  | listDel =>
      obtain ⟨size, data, pc⟩ := enabled
      simpa only [HandOff.next, pc] using stored
  | unlockDel =>
      obtain ⟨size, data, pc⟩ := enabled
      simpa only [HandOff.next, pc] using stored
  | handlerLock h => exact stored_setHandler (by rw [enabled.1]; rintro ⟨⟩) stored
  | handlerMiss h => exact stored_setHandler (fun _ => rfl) stored
  | handlerLockCtx h => exact stored_setHandler (by rw [enabled.1]; rintro ⟨⟩) stored
  | storeDone h => exact stored_setHandler (by rw [enabled]; rintro ⟨⟩) stored
  | storeMsg h allocated => cases allocated <;> exact stored_setHandler (fun _ => rfl) stored
  | storeSize h => exact stored_setHandler (fun _ => rfl) stored
  | copy h => exact stored_setHandler (fun _ => rfl) stored
  | handlerUnlockCtx h => exact stored_setHandler (fun _ => rfl) stored
  | handlerUnlock h => exact stored_setHandler (fun _ => rfl) stored
  | _ => exact stored

theorem responses_eq_nil_iff {data : Option Nat} : responses data = [] ↔ data = none := by
  cases data <;> simp [responses]

theorem ctx_notMem_responses (data : Option Nat) : .ctx ∉ responses data := by
  simp [responses]

/-- A move that creates nothing and leaves the requester what it had. -/
theorem owned_same (nothing : m.creates = []) (same : (s.next reply m).owned = s.owned)
    (keeps : s.Keeps m) :
    ∃ lost, (m.creates ++ s.owned).Perm ((s.next reply m).owned ++ lost) ∧ .ctx ∉ lost ∧
      (lost = [] ↔ s.Keeps m) := by
  refine ⟨[], ?_, List.not_mem_nil, iff_of_true rfl keeps⟩
  rw [nothing, same, List.nil_append, List.append_nil]

/-- The requester does not read the pointer to the reply. -/
theorem owned_waiter {t : HandOff} (response : t.response = s.response)
    (before : s.waiter.fetched = none) (after : t.waiter.fetched = none) : t.owned = s.owned := by
  rw [owned, owned, before, after, response]

/-- What a move creates and what the requester had is what the requester has, and what is
lost; nothing is, just where the move keeps it. -/
theorem owned_next (reply : Nat → Datagram) (enabled : s.Enabled m) :
    ∃ lost, (m.creates ++ s.owned).Perm ((s.next reply m).owned ++ lost) ∧ .ctx ∉ lost ∧
      (lost = [] ↔ s.Keeps m) := by
  cases m with
  | lockAdd => exact owned_same rfl (owned_waiter rfl (by rw [enabled.1]; rfl) rfl) trivial
  | listAdd => exact owned_same rfl (owned_waiter rfl (by rw [enabled]; rfl) rfl) trivial
  | unlockAdd => exact owned_same rfl (owned_waiter rfl (by rw [enabled]; rfl) rfl) trivial
  | testNoReply => exact owned_same rfl (owned_waiter rfl (by rw [enabled]; rfl) rfl) trivial
  | seeDone => exact owned_same rfl (owned_waiter rfl (by rw [enabled.1]; rfl) rfl) trivial
  | timeOut => exact owned_same rfl (owned_waiter rfl (by rw [enabled]; rfl) rfl) trivial
  | lockCtx => exact owned_same rfl (owned_waiter rfl (by rw [enabled.1]; rfl) rfl) trivial
  | putState => exact owned_same rfl (owned_waiter rfl (by rw [enabled]; rfl) rfl) trivial
  | putSize => exact owned_same rfl (owned_waiter rfl (by rw [enabled]; rfl) rfl) trivial
  | putMsg =>
      have pc : s.waiter = .sizeZero := enabled
      refine ⟨responses s.response, ?_, ctx_notMem_responses _, responses_eq_nil_iff⟩
      simp [Move.creates, owned, HandOff.next, pc, WaiterPc.fetched, responses]
  | unlockCtx => exact owned_same rfl (owned_waiter rfl (by rw [enabled]; rfl) rfl) trivial
  | readSize => exact owned_same rfl (owned_waiter rfl (by rw [enabled]; rfl) rfl) trivial
  | readData =>
      obtain ⟨size, pc⟩ := enabled
      exact owned_same rfl (by simp [owned, HandOff.next, pc, WaiterPc.fetched]) trivial
  | lockDel =>
      obtain ⟨⟨size, data, pc⟩, -⟩ := enabled
      exact owned_same rfl (by simp [owned, HandOff.next, pc, WaiterPc.fetched]) trivial
  | listDel =>
      obtain ⟨size, data, pc⟩ := enabled
      exact owned_same rfl (by simp [owned, HandOff.next, pc, WaiterPc.fetched]) trivial
  | unlockDel =>
      obtain ⟨size, data, pc⟩ := enabled
      exact owned_same rfl (by simp [owned, HandOff.next, pc, WaiterPc.fetched]) trivial
  | storeMsg h allocated =>
      cases fetched : s.waiter.fetched with
      | none =>
          -- the pointer is overwritten
          refine ⟨responses s.response, ?_, ctx_notMem_responses _, ?_⟩
          · cases allocated <;>
              simp [Move.creates, owned, HandOff.next, setHandler, fetched, responses]
          · rw [responses_eq_nil_iff, Keeps, fetched]
      | some data =>
          -- nobody will look any more
          refine ⟨(Move.storeMsg h allocated).creates, ?_, ?_, ?_⟩
          · have same : (s.next reply (.storeMsg h allocated)).owned = s.owned := by
              cases allocated <;> simp [owned, HandOff.next, setHandler, fetched]
            rw [same]
            exact List.perm_append_comm
          · cases allocated <;> simp [Move.creates]
          · rw [Keeps, fetched]
            cases allocated <;> simp [Move.creates]
  | handlerLock h => exact owned_same rfl rfl trivial
  | handlerMiss h => exact owned_same rfl rfl trivial
  | handlerLockCtx h => exact owned_same rfl rfl trivial
  | storeDone h => exact owned_same rfl rfl trivial
  | storeSize h => exact owned_same rfl rfl trivial
  | copy h => exact owned_same rfl rfl trivial
  | handlerUnlockCtx h => exact owned_same rfl rfl trivial
  | handlerUnlock h => exact owned_same rfl rfl trivial

end Moves

end HandOff

/-! ## The call -/

/-- Where a request function is. -/
inductive CallPc where
  | start
  /-- The packet is built. -/
  | built
  /-- In `teadfs_request_send`, with a context. -/
  | sending
  /-- Back from `teadfs_request_send`. -/
  | back (size : Nat) (data : Option Nat)
  | returned
  deriving DecidableEq, Repr

/-- There is a packet. -/
def CallPc.busy : CallPc → Bool
  | .start => false
  | .returned => false
  | _ => true

structure Call where
  pc : CallPc
  hand : HandOff
  created : List Buffer
  removed : List Buffer
  /-- History: a buffer was used after its removal. -/
  stale : Bool

inductive CallMove where
  /-- The client is not connected, or is the caller; a release may lack its file. -/
  | turnBack
  | allocPacket (ok : Bool)
  | allocCtx (ok : Bool)
  | hand (m : Move)
  /-- The handler of a reply to another request, or a neighbour on the queue, comes by. -/
  | passBy
  | freeCtx
  /-- The reply is decoded, and the function returns. -/
  | finish

namespace Call

def start : Call where
  pc := .start
  hand := .start
  created := []
  removed := []
  stale := false

def touch (s : Call) (buffers : List Buffer) : Call :=
  { s with stale := s.stale || buffers.any (s.removed.contains ·) }

/-- `teadfs_free`. -/
def free (s : Call) (b : Buffer) : Call := { s with removed := s.removed ++ [b] }

/-- `if (response_data) teadfs_free(response_data)`. -/
def freeData (s : Call) (data : Option Nat) : Call :=
  { s with removed := s.removed ++ responses data }

/-- The fields of a reply are read unless it is absent or shorter than a packet. -/
def readReply (s : Call) (size : Nat) (data : Option Nat) : Call :=
  if size < sizeofPacketInfo then s else s.touch (responses data)

section Model

variable (fn : RequestFn) (reply : Nat → Datagram) (beyond : Nat → Nat → UInt8)

/-- The block of the reply is copied out. The decoder sees `size` bytes from the start of
the buffer; `beyond h` is what the heap holds behind that of handler `h`. -/
def copied (s : Call) (dstSize size : Nat) : Option Nat → Bool
  | none => false
  | some h =>
      if size < sizeofPacketInfo then false
      else (decodeBlock ⟨Reply.peek ⟨s.hand.buffers h, beyond h⟩ 0 size, beyond h⟩ dstSize).isSome

/-- From the return of `teadfs_request_send` to that of the request function. -/
def finish (s : Call) (size : Nat) (data : Option Nat) : RequestFn → Call
  | .open => ((s.readReply size data).freeData data).free .packet
  | .release => ((s.readReply size data).freeData data).free .packet
  | .read _ => (s.readReply size data).freeData data
  | .write dstSize =>
      -- the size of the block is read from the reply once more, after it is freed
      if s.copied beyond dstSize size data then
        ((s.readReply size data).freeData data).readReply size data
      else s.readReply size data

/-- When a move can be made. -/
def Enabled (s : Call) : CallMove → Prop
  | .turnBack => s.pc = .start
  | .allocPacket _ => s.pc = .start
  | .allocCtx _ => s.pc = .built
  | .hand m => s.hand.Enabled m ∧ (m.ofHandler = false → s.pc = .sending)
  | .passBy => s.hand.queued = true
  | .freeCtx => s.pc = .sending ∧ ∃ size data, s.hand.waiter = .returned size data
  | .finish => ∃ size data, s.pc = .back size data

/-- The state after a move; `reply h` is the datagram handler `h` carries. -/
def next (s : Call) : CallMove → Call
  | .turnBack => { s with pc := .returned }
  | .allocPacket true => { s with pc := .built, created := s.created ++ [.packet] }
  | .allocPacket false => { s with pc := .returned }
  | .allocCtx true => { s with pc := .sending, created := s.created ++ [.ctx] }
  | .allocCtx false => { s with pc := .back 0 none }
  | .hand m =>
      { s.touch m.touched with
        hand := s.hand.next reply m
        created := s.created ++ m.creates }
  | .passBy => s.touch [.ctx]
  | .freeCtx =>
      match s.hand.waiter with
      | .returned size data => { s.free .ctx with pc := .back size data }
      | _ => s
  | .finish =>
      match s.pc with
      | .back size data => { s.finish beyond size data fn with pc := .returned }
      | _ => s

/-- Every buffer of the call has been removed exactly once, and none used after that. -/
def Settled (s : Call) : Prop :=
  (∀ b ∈ s.created, s.removed.count b = 1) ∧ s.stale = false

/-- The condition on a move: a packet is allocated only by a function that frees it, and no
reply buffer is lost. -/
def Keeps (s : Call) : CallMove → Prop
  | .allocPacket ok => ok = true → fn.freesPacket = true
  | .hand m => s.hand.Keeps m
  | _ => True

end Model

/-! ## The balance -/

section Balance

variable {fn : RequestFn} {reply : Nat → Datagram} {beyond : Nat → Nat → UInt8} {s : Call}
  {lost : List Buffer}

/-- What the call has and frees before it returns. -/
def held (fn : RequestFn) (s : Call) : List Buffer :=
  (bif fn.freesPacket && s.pc.busy then [.packet] else []) ++
    match s.pc with
    | .sending => [.ctx] ++ s.hand.owned
    | .back _ data => responses data
    | _ => []

/-- Every buffer was removed, is held or is lost, and only one of these. -/
structure Accounted (fn : RequestFn) (s : Call) (lost : List Buffer) : Prop where
  exclusive : s.hand.Exclusive
  linked : s.hand.Linked
  balance : s.created.Perm (s.removed ++ (s.held fn ++ lost))
  nodup : s.created.Nodup
  stored : ∀ h, .response h ∈ s.created → (s.hand.handlers h).stored = true
  queued : s.hand.queued = true → s.pc = .sending
  unsent : s.pc = .start ∨ s.pc = .built → s.hand.waiter = .start
  atStart : s.pc = .start → s.created = []
  atBuilt : s.pc = .built → s.created = [.packet]
  removed : s.pc ≠ .returned → ∀ b ∈ s.removed, b = .ctx ∧ ∃ size data, s.pc = .back size data
  -- a packet that is not going to be freed is lost from the beginning
  wasted : fn.freesPacket = false → s.pc.busy = true → lost ≠ []
  used : s.stale = true → lost ≠ []
  ctx : .ctx ∉ lost

theorem start_accounted : start.Accounted fn [] where
  exclusive := HandOff.start_exclusive
  linked := HandOff.start_linked
  balance := by simp [start, held, CallPc.busy]
  nodup := .nil
  stored _ member := by cases member
  queued queued := by cases queued
  unsent _ := rfl
  atStart _ := rfl
  atBuilt pc := by cases pc
  removed _ b member := by cases member
  wasted _ busy := by cases busy
  used stale := by cases stale
  ctx := List.not_mem_nil

theorem touch_eq {buffers : List Buffer} (live : ∀ b ∈ buffers, b ∉ s.removed) :
    s.touch buffers = s := by
  have unused : buffers.any (s.removed.contains ·) = false := by simpa using live
  rw [touch, unused, Bool.or_false]

theorem Accounted.live (accounted : s.Accounted fn lost) (pc : s.pc = .sending) (b : Buffer) :
    b ∉ s.removed := by
  intro gone
  obtain ⟨-, size, data, back⟩ := accounted.removed (by simp [pc]) b gone
  rw [pc] at back
  cases back

theorem Accounted.readReply_eq (accounted : s.Accounted fn lost) {size : Nat} {data : Option Nat}
    (pc : s.pc = .back size data) : s.readReply size data = s := by
  have same : s.touch (responses data) = s := by
    refine touch_eq fun b touched gone => ?_
    obtain ⟨rfl, -⟩ := accounted.removed (by simp [pc]) b gone
    simp [responses] at touched
  rw [readReply, same, ite_self]

/-- The queue does not have the context while the call is elsewhere. -/
theorem Accounted.off (accounted : s.Accounted fn lost) (pc : s.pc ≠ .sending) :
    ¬ s.hand.queued = true :=
  fun queued => pc (accounted.queued queued)

theorem Accounted.leave (accounted : s.Accounted fn lost) (pc : s.pc = .start) :
    Accounted fn { s with pc := .returned } lost where
  exclusive := accounted.exclusive
  linked := accounted.linked
  balance := by simpa [held, pc, CallPc.busy] using accounted.balance
  nodup := accounted.nodup
  stored := accounted.stored
  queued queued := absurd queued (accounted.off (by simp [pc]))
  unsent pc := by rcases pc with pc | pc <;> cases pc
  atStart pc := by cases pc
  atBuilt pc := by cases pc
  removed pc := absurd rfl pc
  wasted _ busy := by cases busy
  used := accounted.used
  ctx := accounted.ctx

/-- Nothing has happened before the packet is allocated. -/
theorem Accounted.nothing (accounted : s.Accounted fn lost) (pc : s.pc = .start) :
    s.created = [] ∧ s.removed = [] ∧ lost = [] := by
  have created := accounted.atStart pc
  have balance := accounted.balance
  rw [created, held, pc] at balance
  exact ⟨created, by simpa [CallPc.busy] using balance.symm.eq_nil⟩

theorem Accounted.allocPacket (accounted : s.Accounted fn lost) (pc : s.pc = .start) :
    Accounted fn (s.next fn reply beyond (.allocPacket true))
      (if fn.freesPacket then [] else [.packet]) := by
  obtain ⟨created, removed, rfl⟩ := accounted.nothing pc
  exact {
    exclusive := accounted.exclusive
    linked := accounted.linked
    balance := by
      cases frees : fn.freesPacket <;> simp [next, held, created, removed, frees, CallPc.busy]
    nodup := by simp [next, created]
    stored := by simp [next, created]
    queued := fun queued => absurd queued (accounted.off (by simp [pc]))
    unsent := fun _ => accounted.unsent (.inl pc)
    atStart := by simp [next]
    atBuilt := by simp [next, created]
    removed := by simp [next, removed]
    wasted := fun wastes _ => by simp [wastes]
    used := fun stale => absurd rfl (accounted.used stale)
    ctx := by split <;> simp }

theorem Accounted.allocCtx (accounted : s.Accounted fn lost) (pc : s.pc = .built) :
    Accounted fn (s.next fn reply beyond (.allocCtx true)) lost := by
  have created := accounted.atBuilt pc
  have unsent := accounted.unsent (.inr pc)
  have none : s.hand.owned = [] := by
    simp [HandOff.owned, unsent, WaiterPc.fetched, accounted.linked.unsent unsent, responses]
  exact {
    exclusive := accounted.exclusive
    linked := accounted.linked
    balance := by
      have balance := accounted.balance
      rw [List.perm_iff_count] at balance ⊢
      intro b
      have counts := balance b
      simp only [next, held, pc, CallPc.busy, none, List.count_append, List.count_nil] at counts ⊢
      omega
    nodup := by simp [next, created]
    stored := by simp [next, created]
    queued := fun _ => rfl
    unsent := by simp [next]
    atStart := by simp [next]
    atBuilt := by simp [next]
    removed := fun _ b gone => by
      obtain ⟨-, size, data, back⟩ := accounted.removed (by simp [pc]) b gone
      rw [pc] at back
      cases back
    wasted := fun wastes _ => accounted.wasted wastes (by rw [pc]; rfl)
    used := accounted.used
    ctx := accounted.ctx }

theorem Accounted.noCtx (accounted : s.Accounted fn lost) (pc : s.pc = .built) :
    Accounted fn (s.next fn reply beyond (.allocCtx false)) lost where
  exclusive := accounted.exclusive
  linked := accounted.linked
  balance := by simpa [next, held, pc, CallPc.busy, responses] using accounted.balance
  nodup := accounted.nodup
  stored := accounted.stored
  queued queued := absurd queued (accounted.off (by simp [pc]))
  unsent pc := by rcases pc with pc | pc <;> cases pc
  atStart pc := by cases pc
  atBuilt pc := by cases pc
  removed _ b gone := by
    obtain ⟨-, size, data, back⟩ := accounted.removed (by simp [pc]) b gone
    rw [pc] at back
    cases back
  wasted wastes _ := accounted.wasted wastes (by rw [pc]; rfl)
  used := accounted.used
  ctx := accounted.ctx

theorem Accounted.freeCtx (accounted : s.Accounted fn lost) (pc : s.pc = .sending) {size : Nat}
    {data : Option Nat} (returned : s.hand.waiter = .returned size data) :
    Accounted fn (s.next fn reply beyond .freeCtx) lost := by
  have off : ¬ s.hand.queued = true := by
    intro queued
    have linked := accounted.linked.linked queued
    rw [returned] at linked
    cases linked
  have owned : s.hand.owned = responses data := by
    simp [HandOff.owned, returned, WaiterPc.fetched]
  rw [next, returned]
  exact {
    exclusive := accounted.exclusive
    linked := accounted.linked
    balance := by
      have balance := accounted.balance
      rw [List.perm_iff_count] at balance ⊢
      intro b
      have counts := balance b
      simp only [free, held, pc, CallPc.busy, owned, List.count_append] at counts ⊢
      omega
    nodup := accounted.nodup
    stored := accounted.stored
    queued := fun queued => absurd queued off
    unsent := by simp
    atStart := by simp
    atBuilt := by simp
    removed := fun _ b gone => by
      rcases List.mem_append.mp gone with gone | gone
      · exact absurd gone (accounted.live pc b)
      · exact ⟨List.mem_singleton.mp gone, size, data, rfl⟩
    wasted := fun wastes _ => accounted.wasted wastes (by rw [pc]; rfl)
    used := accounted.used
    ctx := accounted.ctx }

/-- A requester moves only in `teadfs_request_send`. -/
theorem byHandler_of_pc {m : Move} (enabled : s.Enabled (.hand m)) (pc : s.pc ≠ .sending) :
    m.ofHandler = true := by
  by_contra requester
  exact pc (enabled.2 (by simpa using requester))

theorem Accounted.hand_live (accounted : s.Accounted fn lost) {m : Move}
    (enabled : s.Enabled (.hand m)) : s.touch m.touched = s := by
  refine touch_eq fun b touched => accounted.live ?_ b
  by_contra pc
  exact accounted.off pc
    (accounted.linked.queued_of_touched enabled.1 (byHandler_of_pc enabled pc) touched)

/-- What a handler stores has not been stored before. -/
theorem Accounted.hand_fresh (accounted : s.Accounted fn lost) {m : Move}
    (enabled : s.hand.Enabled m) {b : Buffer} (created : b ∈ m.creates) : b ∉ s.created := by
  obtain ⟨h, rfl, rfl⟩ := Move.mem_creates created
  intro twice
  have stored := accounted.stored h twice
  rw [show s.hand.handlers h = .doneStored from enabled] at stored
  cases stored

theorem Accounted.hand_balance (accounted : s.Accounted fn lost) (reply : Nat → Datagram)
    {m : Move} (enabled : s.Enabled (.hand m)) :
    ∃ lost', (s.created ++ m.creates).Perm
        (s.removed ++ (held fn { s with hand := s.hand.next reply m } ++ lost')) ∧
      .ctx ∉ lost' ∧ (lost' = [] ↔ lost = [] ∧ s.hand.Keeps m) := by
  have balance := accounted.balance
  by_cases pc : s.pc = .sending
  · obtain ⟨dropped, owned, other, kept⟩ := HandOff.owned_next reply enabled.1
    have apart : .ctx ∉ lost ++ dropped := by
      rw [List.mem_append, not_or]
      exact ⟨accounted.ctx, other⟩
    refine ⟨lost ++ dropped, ?_, apart, by rw [List.append_eq_nil_iff, kept]⟩
    rw [List.perm_iff_count] at balance owned ⊢
    intro b
    have counts := balance b
    have own := owned b
    simp only [held, pc, List.count_append] at counts own ⊢
    omega
  · obtain ⟨creates, keeps⟩ :=
      accounted.linked.off enabled.1 (byHandler_of_pc enabled pc) (accounted.off pc)
    have same : held fn { s with hand := s.hand.next reply m } = s.held fn := by
      cases here : s.pc with
      | sending => exact absurd here pc
      | _ => simp only [held, here]
    refine ⟨lost, ?_, accounted.ctx, (and_iff_left keeps).symm⟩
    rw [creates, List.append_nil, same]
    exact balance

theorem Accounted.hand (accounted : s.Accounted fn lost) {m : Move}
    (enabled : s.Enabled (.hand m)) :
    ∃ lost', (s.next fn reply beyond (.hand m)).Accounted fn lost' ∧
      (lost' = [] ↔ lost = [] ∧ s.hand.Keeps m) := by
  obtain ⟨lost', balance, other, kept⟩ := accounted.hand_balance reply enabled
  have early : s.pc ≠ .sending → m.creates = [] ∧ (s.hand.next reply m).waiter = s.hand.waiter ∧
      (s.hand.next reply m).queued = s.hand.queued := by
    intro pc
    have byHandler := byHandler_of_pc enabled pc
    obtain ⟨queued, waiter⟩ := HandOff.next_ofHandler reply s.hand byHandler
    exact ⟨(accounted.linked.off enabled.1 byHandler (accounted.off pc)).1, waiter, queued⟩
  refine ⟨lost', ?_, kept⟩
  rw [next, accounted.hand_live enabled]
  exact {
    exclusive := accounted.exclusive.next enabled.1
    linked := accounted.linked.next accounted.exclusive enabled.1
    balance := balance
    nodup := accounted.nodup.append m.nodup_creates
      fun b old new => accounted.hand_fresh enabled.1 new old
    stored := fun h created => by
      rcases List.mem_append.mp created with old | new
      · exact HandOff.stored_next enabled.1 (accounted.stored h old)
      · obtain ⟨h', rfl, same⟩ := Move.mem_creates new
        cases same
        simp [HandOff.next, HandlerPc.stored]
    queued := fun queued => by
      by_contra pc
      exact accounted.off pc ((early pc).2.2 ▸ queued)
    unsent := fun (pc : s.pc = .start ∨ s.pc = .built) => by
      have elsewhere : s.pc ≠ .sending := by
        rcases pc with pc | pc <;> simp [pc]
      exact (early elsewhere).2.1.trans (accounted.unsent pc)
    atStart := fun (pc : s.pc = .start) => by
      rw [(early (by simp [pc])).1, List.append_nil]
      exact accounted.atStart pc
    atBuilt := fun (pc : s.pc = .built) => by
      rw [(early (by simp [pc])).1, List.append_nil]
      exact accounted.atBuilt pc
    removed := accounted.removed
    wasted := fun wastes busy empty => accounted.wasted wastes busy (kept.mp empty).1
    used := fun stale empty => accounted.used stale (kept.mp empty).1
    ctx := other }

/-- The end of a call: what it removes and loses then is what it held. -/
theorem Accounted.ended (accounted : s.Accounted fn lost) {size : Nat} {data : Option Nat}
    (pc : s.pc = .back size data) {frees dropped : List Buffer} {stale : Bool}
    (settles : (s.held fn).Perm (frees ++ dropped)) (other : .ctx ∉ dropped)
    (used : stale = true → dropped ++ lost ≠ []) :
    Accounted fn { s with pc := .returned, removed := s.removed ++ frees, stale }
      (dropped ++ lost) where
  exclusive := accounted.exclusive
  linked := accounted.linked
  balance := by
    have balance := accounted.balance
    rw [List.perm_iff_count] at balance settles ⊢
    intro b
    have counts := balance b
    have settled := settles b
    simp only [held, CallPc.busy, Bool.and_false, cond_false, List.count_append, List.count_nil]
      at counts settled ⊢
    omega
  nodup := accounted.nodup
  stored := accounted.stored
  queued queued := absurd queued (accounted.off (by simp [pc]))
  unsent pc := by rcases pc with pc | pc <;> cases pc
  atStart pc := by cases pc
  atBuilt pc := by cases pc
  removed pc := absurd rfl pc
  wasted _ busy := by cases busy
  used := used
  ctx := by
    rw [List.mem_append, not_or]
    exact ⟨other, accounted.ctx⟩

theorem readReply_frame (t : Call) (size : Nat) (data : Option Nat) :
    ∃ stale, t.readReply size data = { t with stale } := by
  unfold readReply
  split_ifs
  · exact ⟨t.stale, rfl⟩
  · exact ⟨_, rfl⟩

/-- A function that frees its packet frees the reply and the packet. -/
theorem Accounted.finish_freeing (accounted : s.Accounted fn lost) {size : Nat}
    {data : Option Nat} (pc : s.pc = .back size data) (frees : fn.freesPacket = true) :
    Accounted fn { ((s.readReply size data).freeData data).free .packet with pc := .returned }
      lost := by
  have settles : (s.held fn).Perm (responses data ++ [.packet] ++ []) := by
    simp only [held, pc, frees, CallPc.busy, Bool.and_true, cond_true, List.append_nil]
    exact List.perm_append_comm
  have ended := accounted.ended pc settles List.not_mem_nil accounted.used
  rw [accounted.readReply_eq pc]
  simpa [freeData, free] using ended

/-- A function that does not has lost the packet; the reply goes with it or is freed. -/
theorem Accounted.finish_wasting (accounted : s.Accounted fn lost) {size : Nat}
    {data : Option Nat} (pc : s.pc = .back size data) (wastes : fn.freesPacket = false)
    (stale : Bool) :
    Accounted fn { s.freeData data with pc := .returned, stale } lost ∧
      Accounted fn { s with pc := .returned } (responses data ++ lost) := by
  have held : s.held fn = responses data := by
    simp [held, pc, wastes]
  have gone := accounted.wasted wastes (by rw [pc]; rfl)
  have freed : (s.held fn).Perm (responses data ++ []) := by rw [held, List.append_nil]
  have dropped : (s.held fn).Perm ([] ++ responses data) := by rw [held, List.nil_append]
  refine ⟨accounted.ended pc freed List.not_mem_nil fun _ => gone, ?_⟩
  have used : s.stale = true → responses data ++ lost ≠ [] := by simp [gone]
  have ended := accounted.ended pc dropped (HandOff.ctx_notMem_responses data) used
  rw [List.append_nil] at ended
  exact ended

theorem Accounted.finish (accounted : s.Accounted fn lost) (reply : Nat → Datagram)
    (beyond : Nat → Nat → UInt8) {size : Nat} {data : Option Nat}
    (pc : s.pc = .back size data) :
    ∃ lost', (s.next fn reply beyond .finish).Accounted fn lost' ∧ (lost' = [] ↔ lost = []) := by
  rw [next, pc]
  cases fn with
  | «open» => exact ⟨lost, accounted.finish_freeing pc rfl, Iff.rfl⟩
  | release => exact ⟨lost, accounted.finish_freeing pc rfl, Iff.rfl⟩
  | read dstSize =>
      refine ⟨lost, ?_, Iff.rfl⟩
      have freed := (accounted.finish_wasting pc rfl s.stale).1
      simp only [Call.finish, accounted.readReply_eq pc]
      exact freed
  | write dstSize =>
      have gone := accounted.wasted rfl (by rw [pc]; rfl)
      simp only [Call.finish, accounted.readReply_eq pc]
      split_ifs
      · obtain ⟨stale, frame⟩ := readReply_frame (s.freeData data) size data
        rw [frame]
        exact ⟨lost, (accounted.finish_wasting pc rfl stale).1, Iff.rfl⟩
      · refine ⟨responses data ++ lost, (accounted.finish_wasting pc rfl s.stale).2, ?_⟩
        simp [gone]

/-- One move keeps the accounts, and something is lost just where it does not keep it. -/
theorem step_accounted (accounted : s.Accounted fn lost) {m : CallMove} (enabled : s.Enabled m) :
    ∃ lost', (s.next fn reply beyond m).Accounted fn lost' ∧
      (lost' = [] ↔ lost = [] ∧ s.Keeps fn m) := by
  cases m with
  | turnBack => exact ⟨lost, accounted.leave enabled, (and_iff_left trivial).symm⟩
  | allocPacket ok =>
      cases ok with
      | false => exact ⟨lost, accounted.leave enabled, (and_iff_left fun ok => by cases ok).symm⟩
      | true =>
          refine ⟨_, accounted.allocPacket enabled, ?_⟩
          simp [Keeps, (accounted.nothing enabled).2.2]
  | allocCtx ok =>
      cases ok with
      | true => exact ⟨lost, accounted.allocCtx enabled, (and_iff_left trivial).symm⟩
      | false => exact ⟨lost, accounted.noCtx enabled, (and_iff_left trivial).symm⟩
  | hand m => exact accounted.hand enabled
  | passBy =>
      refine ⟨lost, ?_, (and_iff_left trivial).symm⟩
      rw [next, touch_eq fun b _ => accounted.live (accounted.queued enabled) b]
      exact accounted
  | freeCtx =>
      obtain ⟨pc, size, data, returned⟩ := enabled
      exact ⟨lost, accounted.freeCtx pc returned, (and_iff_left trivial).symm⟩
  | finish =>
      obtain ⟨size, data, pc⟩ := enabled
      obtain ⟨lost', ended, kept⟩ := accounted.finish reply beyond pc
      exact ⟨lost', ended, kept.trans (and_iff_left trivial).symm⟩

theorem run_accounted {moves : List CallMove} (accounted : s.Accounted fn lost)
    (run : Simulation.Allowed Enabled (next fn reply beyond) s moves) :
    ∃ lost', (moves.foldl (next fn reply beyond) s).Accounted fn lost' ∧
      (lost' = [] ↔
        lost = [] ∧ Simulation.Allowed (Keeps fn) (next fn reply beyond) s moves) := by
  induction moves generalizing s lost with
  | nil => exact ⟨lost, accounted, (and_iff_left trivial).symm⟩
  | cons m moves ih =>
      obtain ⟨middle, stepped, first⟩ := step_accounted accounted run.1
      obtain ⟨lost', final, rest⟩ := ih stepped run.2
      refine ⟨lost', final, ?_⟩
      rw [rest, first, Simulation.Allowed, and_assoc]

/-- Once the call has returned, what is not removed is lost. -/
theorem Accounted.balance_returned (accounted : s.Accounted fn lost)
    (returned : s.pc = .returned) : s.created.Perm (s.removed ++ lost) := by
  simpa [held, returned, CallPc.busy] using accounted.balance

theorem Accounted.settled_iff (accounted : s.Accounted fn lost) (returned : s.pc = .returned) :
    s.Settled ↔ lost = [] := by
  have balance := accounted.balance_returned returned
  constructor
  · rintro ⟨once, -⟩
    by_contra something
    obtain ⟨b, member⟩ := List.exists_mem_of_ne_nil lost something
    have created : b ∈ s.created := balance.mem_iff.mpr (List.mem_append_right _ member)
    have counts := balance.count_eq b
    have positive := List.count_pos_iff.mpr member
    rw [List.count_append, once b created, accounted.nodup.count, if_pos created] at counts
    omega
  · rintro rfl
    rw [List.append_nil] at balance
    refine ⟨fun b created => ?_, ?_⟩
    · rw [← balance.count_eq b, accounted.nodup.count, if_pos created]
    · by_contra stale
      exact accounted.used (by simpa using stale) rfl

end Balance

/-! ## Every run -/

/-- Whatever happens, the context is removed exactly once. -/
theorem ctx_removed_once (fn : RequestFn) (reply : Nat → Datagram) (beyond : Nat → Nat → UInt8)
    (moves : List CallMove) (run : Simulation.Allowed Enabled (next fn reply beyond) start moves)
    (returned : (moves.foldl (next fn reply beyond) start).pc = .returned)
    (created : .ctx ∈ (moves.foldl (next fn reply beyond) start).created) :
    (moves.foldl (next fn reply beyond) start).removed.count .ctx = 1 := by
  obtain ⟨lost, accounted, -⟩ := run_accounted start_accounted run
  have counts := (accounted.balance_returned returned).count_eq .ctx
  rw [List.count_append, List.count_eq_zero_of_not_mem accounted.ctx, accounted.nodup.count,
    if_pos created] at counts
  exact counts.symm

/-- **The ledger of an upcall.** For each of the request functions, every content and number
of replies, every failed allocation, a timeout, and every order of the moves: when the call
has returned, each buffer created for it has been removed exactly once and none used after
its removal, if and only if all moves of the run were `Keeps`. -/
theorem upcall_buffers_settled_iff (fn : RequestFn) (reply : Nat → Datagram)
    (beyond : Nat → Nat → UInt8) (moves : List CallMove)
    (run : Simulation.Allowed Enabled (next fn reply beyond) start moves)
    (returned : (moves.foldl (next fn reply beyond) start).pc = .returned) :
    (moves.foldl (next fn reply beyond) start).Settled ↔
      Simulation.Allowed (Keeps fn) (next fn reply beyond) start moves := by
  obtain ⟨lost, accounted, kept⟩ := run_accounted start_accounted run
  rw [accounted.settled_iff returned, kept, and_iff_right rfl]

/-- A call that is answered once, and waits until the handler is out. -/
def patientCall : List CallMove :=
  [.allocPacket true, .allocCtx true] ++ HandOff.patientMoves.map .hand ++ [.freeCtx, .finish]

theorem patientCall_run (fn : RequestFn) (beyond : Nat → Nat → UInt8) :
    Simulation.Allowed Enabled (next fn (fun _ => exampleDatagram) beyond) start patientCall :=
  ⟨rfl, rfl, ⟨⟨rfl, rfl⟩, fun _ => rfl⟩, ⟨rfl, fun _ => rfl⟩, ⟨rfl, fun _ => rfl⟩,
    ⟨rfl, fun _ => rfl⟩, ⟨⟨rfl, rfl⟩, nofun⟩, ⟨⟨rfl, rfl, rfl⟩, nofun⟩, ⟨rfl, nofun⟩,
    ⟨rfl, nofun⟩, ⟨rfl, nofun⟩, ⟨rfl, nofun⟩, ⟨rfl, nofun⟩, ⟨rfl, nofun⟩,
    ⟨⟨rfl, rfl⟩, fun _ => rfl⟩, ⟨rfl, fun _ => rfl⟩, ⟨⟨_, rfl⟩, fun _ => rfl⟩,
    ⟨⟨⟨_, _, rfl⟩, rfl⟩, fun _ => rfl⟩, ⟨⟨_, _, rfl⟩, fun _ => rfl⟩,
    ⟨⟨_, _, rfl⟩, fun _ => rfl⟩, ⟨rfl, _, _, rfl⟩, ⟨_, _, rfl⟩, trivial⟩

/-- An open that is answered once. -/
theorem answered_open_settles :
    (patientCall.foldl (next .open (fun _ => exampleDatagram) fun _ _ => 0) start).pc =
        .returned ∧
      (patientCall.foldl (next .open (fun _ => exampleDatagram) fun _ _ => 0) start).Settled := by
  refine ⟨rfl, (upcall_buffers_settled_iff _ _ _ _ (patientCall_run _ _) rfl).mpr ?_⟩
  exact ⟨fun _ => rfl, trivial, trivial, trivial, trivial, trivial, trivial, trivial, trivial,
    rfl, trivial, trivial, trivial, trivial, trivial, trivial, trivial, trivial, trivial,
    trivial, trivial, trivial, trivial⟩

/-- A read that is answered once never frees its packet. -/
theorem answered_read_leaks_packet :
    ¬ ∀ (fn : RequestFn) (reply : Nat → Datagram) (beyond : Nat → Nat → UInt8)
        (moves : List CallMove),
      Simulation.Allowed Enabled (next fn reply beyond) start moves →
      (moves.foldl (next fn reply beyond) start).pc = .returned →
      (moves.foldl (next fn reply beyond) start).Settled := by
  intro settled
  obtain ⟨once, -⟩ := settled (.read 4096) _ (fun _ _ => 0) patientCall (patientCall_run _ _) rfl
  have freed := once .packet (.head _)
  cases freed

end Call

end Teadfs
