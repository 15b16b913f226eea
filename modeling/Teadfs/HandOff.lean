/-
# Teadfs.HandOff — how one request is handed its reply

One request and any number of netlink handlers that carry a reply to it, store by store.
The handler publishes `DONE`, then stores the buffer, then its size, then fills the
buffer, all under the queue's mutex and the context's; the requester tests `state` and
later reads the size and the buffer with neither. The two reads fit together if the
handler that stored the buffer last has stored its size too when the size is read, and
no handler stores a buffer between the two reads (`Careful`). What the buffer holds needs
no care: the requester takes the queue's mutex before it returns, and the handler gives
it up only after the buffer is filled.

A pointer to a reply buffer is the name of the handler that allocated it.
-/
import Teadfs.MsgQueue

namespace Teadfs

set_option autoImplicit false

open Relation

/-- Who holds a mutex. -/
inductive Agent where
  | requester
  | handler (h : Nat)
  deriving DecidableEq, Repr

/-- Where the requester is, from `list_add_tail` to its return. -/
inductive WaiterPc where
  | start
  | adding
  | added
  /-- In `teadfs_request_wait_answer`, before the test for `NO_REPLY`. -/
  | entered
  | waiting
  | timedOut
  | ctxLocked
  | stateDone
  | sizeZero
  | msgNull
  | answered
  | sized (size : Nat)
  | paired (size : Nat) (data : Option Nat)
  | deleting (size : Nat) (data : Option Nat)
  | deleted (size : Nat) (data : Option Nat)
  | returned (size : Nat) (data : Option Nat)
  deriving DecidableEq, Repr

/-- The requester holds the queue's mutex. -/
def WaiterPc.holdsQueue : WaiterPc → Bool
  | .adding => true
  | .added => true
  | .deleting _ _ => true
  | .deleted _ _ => true
  | _ => false

/-- Where a handler is in `teadfs_netlink_receive`. -/
inductive HandlerPc where
  | idle
  | queueLocked
  | ctxLocked
  | doneStored
  | msgStored
  | sizeStored
  | copied
  | ctxReleased
  | finished
  deriving DecidableEq, Repr

/-- The handler holds the queue's mutex. -/
def HandlerPc.inside : HandlerPc → Bool
  | .idle => false
  | .finished => false
  | _ => true

/-- The handler is done with its buffer. -/
def HandlerPc.past : HandlerPc → Bool
  | .copied => true
  | .ctxReleased => true
  | .finished => true
  | _ => false

structure HandOff where
  queueOwner : Option Agent
  ctxOwner : Option Agent
  /-- The context is on the queue. -/
  queued : Bool
  state : CtxState
  responseSize : Nat
  response : Option Nat
  /-- What the buffer of each handler holds. -/
  buffers : Nat → List UInt8
  waiter : WaiterPc
  handlers : Nat → HandlerPc
  /-- History: the wait timed out; an allocation of a handler failed. -/
  gaveUp : Bool
  allocFailed : Bool

inductive Move where
  | lockAdd
  | listAdd
  | unlockAdd
  /-- `NO_REPLY` is never stored, so the test goes on to the wait. -/
  | testNoReply
  | seeDone
  | timeOut
  | lockCtx
  | putState
  | putSize
  | putMsg
  | unlockCtx
  | readSize
  | readData
  | lockDel
  | listDel
  | unlockDel
  | handlerLock (h : Nat)
  /-- The walk of the queue does not find the context. -/
  | handlerMiss (h : Nat)
  | handlerLockCtx (h : Nat)
  | storeDone (h : Nat)
  | storeMsg (h : Nat) (allocated : Bool)
  | storeSize (h : Nat)
  | copy (h : Nat)
  | handlerUnlockCtx (h : Nat)
  | handlerUnlock (h : Nat)

namespace HandOff

/-- When a move can be made. -/
def Enabled (s : HandOff) : Move → Prop
  | .lockAdd => s.waiter = .start ∧ s.queueOwner = none
  | .listAdd => s.waiter = .adding
  | .unlockAdd => s.waiter = .added
  | .testNoReply => s.waiter = .entered
  | .seeDone => s.waiter = .waiting ∧ s.state = .done
  | .timeOut => s.waiter = .waiting
  | .lockCtx => s.waiter = .timedOut ∧ s.ctxOwner = none
  | .putState => s.waiter = .ctxLocked
  | .putSize => s.waiter = .stateDone
  | .putMsg => s.waiter = .sizeZero
  | .unlockCtx => s.waiter = .msgNull
  | .readSize => s.waiter = .answered
  | .readData => ∃ size, s.waiter = .sized size
  | .lockDel => (∃ size data, s.waiter = .paired size data) ∧ s.queueOwner = none
  | .listDel => ∃ size data, s.waiter = .deleting size data
  | .unlockDel => ∃ size data, s.waiter = .deleted size data
  | .handlerLock h => s.handlers h = .idle ∧ s.queueOwner = none
  | .handlerMiss h => s.handlers h = .queueLocked ∧ s.queued = false
  | .handlerLockCtx h => s.handlers h = .queueLocked ∧ s.queued = true ∧ s.ctxOwner = none
  | .storeDone h => s.handlers h = .ctxLocked
  | .storeMsg h _ => s.handlers h = .doneStored
  | .storeSize h => s.handlers h = .msgStored
  | .copy h => s.handlers h = .sizeStored
  | .handlerUnlockCtx h => s.handlers h = .copied
  | .handlerUnlock h => s.handlers h = .ctxReleased

def setHandler (s : HandOff) (h : Nat) (pc : HandlerPc) : HandOff :=
  { s with handlers := Function.update s.handlers h pc }

@[simp] theorem setHandler_self (s : HandOff) (h : Nat) (pc : HandlerPc) :
    (s.setHandler h pc).handlers h = pc :=
  Function.update_self ..

theorem setHandler_of_ne (s : HandOff) {h h' : Nat} (other : h' ≠ h) (pc : HandlerPc) :
    (s.setHandler h pc).handlers h' = s.handlers h' :=
  Function.update_of_ne other ..

/-- The state after a move; `reply h` is the datagram handler `h` carries. -/
def next (reply : Nat → Datagram) (s : HandOff) : Move → HandOff
  | .lockAdd => { s with waiter := .adding, queueOwner := some .requester }
  | .listAdd => { s with waiter := .added, queued := true }
  | .unlockAdd => { s with waiter := .entered, queueOwner := none }
  | .testNoReply => { s with waiter := .waiting }
  | .seeDone => { s with waiter := .answered }
  | .timeOut => { s with waiter := .timedOut, gaveUp := true }
  | .lockCtx => { s with waiter := .ctxLocked, ctxOwner := some .requester }
  | .putState => { s with waiter := .stateDone, state := .done }
  | .putSize => { s with waiter := .sizeZero, responseSize := 0 }
  | .putMsg => { s with waiter := .msgNull, response := none }
  | .unlockCtx => { s with waiter := .answered, ctxOwner := none }
  | .readSize => { s with waiter := .sized s.responseSize }
  | .readData =>
      match s.waiter with
      | .sized size => { s with waiter := .paired size s.response }
      | _ => s
  | .lockDel =>
      match s.waiter with
      | .paired size data => { s with waiter := .deleting size data, queueOwner := some .requester }
      | _ => s
  | .listDel =>
      match s.waiter with
      | .deleting size data => { s with waiter := .deleted size data, queued := false }
      | _ => s
  | .unlockDel =>
      match s.waiter with
      | .deleted size data => { s with waiter := .returned size data, queueOwner := none }
      | _ => s
  | .handlerLock h => { s.setHandler h .queueLocked with queueOwner := some (.handler h) }
  | .handlerMiss h => s.setHandler h .ctxReleased
  | .handlerLockCtx h => { s.setHandler h .ctxLocked with ctxOwner := some (.handler h) }
  | .storeDone h => { s.setHandler h .doneStored with state := .done }
  | .storeMsg h true =>
      { s.setHandler h .msgStored with
        response := some h
        buffers := Function.update s.buffers h (List.replicate (reply h).bytes.length 0) }
  | .storeMsg h false =>
      { s.setHandler h .copied with
        response := none
        allocFailed := true }
  | .storeSize h => { s.setHandler h .sizeStored with responseSize := (reply h).bytes.length }
  | .copy h =>
      { s.setHandler h .copied with
        buffers := Function.update s.buffers h (reply h).bytes }
  | .handlerUnlockCtx h => { s.setHandler h .ctxReleased with ctxOwner := none }
  | .handlerUnlock h => { s.setHandler h .finished with queueOwner := none }

/-- The context as `teadfs_request_send` initialises it, no reply in sight. -/
def start : HandOff where
  queueOwner := none
  ctxOwner := none
  queued := false
  state := .pending
  responseSize := 0
  response := none
  buffers := fun _ => []
  waiter := .start
  handlers := fun _ => .idle
  gaveUp := false
  allocFailed := false

/-- The condition on a move: the size is read when a buffer has been stored and the
handler that stored it has stored its size; no buffer is stored between the two reads. -/
def Careful (s : HandOff) : Move → Prop
  | .readSize => s.gaveUp = false → ∃ h, s.response = some h ∧ s.handlers h ≠ .msgStored
  | .storeMsg _ _ => s.gaveUp = false → ∀ size, s.waiter ≠ .sized size
  | _ => True

/-- The pair is the length and the payload of one reply. -/
def OneReply (reply : Nat → Datagram) (s : HandOff) (size : Nat) (data : Option Nat) : Prop :=
  ∃ h, data = some h ∧ size = (reply h).bytes.length ∧ s.buffers h = (reply h).bytes

/-! ## The invariant -/

/-- Handler `h` has filled its buffer. -/
def Filled (reply : Nat → Datagram) (s : HandOff) (h : Nat) : Prop :=
  (s.handlers h).past = true ∧ s.buffers h = (reply h).bytes

/-- Handler `h` has a buffer, and fills it before it gives the queue up. -/
def Filling (reply : Nat → Datagram) (s : HandOff) (h : Nat) : Prop :=
  s.handlers h = .msgStored ∨ s.handlers h = .sizeStored ∨ Filled reply s h

/-- What the requester has in hand at each point. -/
def InHand (reply : Nat → Datagram) (s : HandOff) : WaiterPc → Prop
  | .sized size => ∃ h, s.response = some h ∧ size = (reply h).bytes.length
  | .paired size data =>
      ∃ h, data = some h ∧ size = (reply h).bytes.length ∧ Filling reply s h
  | .deleting size data =>
      ∃ h, data = some h ∧ size = (reply h).bytes.length ∧ Filled reply s h
  | .deleted size data =>
      ∃ h, data = some h ∧ size = (reply h).bytes.length ∧ Filled reply s h
  | .returned size data =>
      ∃ h, data = some h ∧ size = (reply h).bytes.length ∧ Filled reply s h
  -- only a requester that has given up gets here
  | .timedOut => False
  | .ctxLocked => False
  | .stateDone => False
  | .sizeZero => False
  | .msgNull => False
  | _ => True

/-- The context is whole: the buffer in it belongs to a handler that fills it, and its
size to the same handler once that has stored it. -/
structure Whole (reply : Nat → Datagram) (s : HandOff) : Prop where
  stored : ∀ h, s.handlers h = .msgStored → s.response = some h
  filling : ∀ h, s.response = some h → Filling reply s h
  settled : ∀ h, s.response = some h → s.handlers h ≠ .msgStored →
    s.responseSize = (reply h).bytes.length
  inHand : InHand reply s s.waiter

/-- The queue's mutex excludes. -/
structure Exclusive (s : HandOff) : Prop where
  inside : ∀ h, (s.handlers h).inside = true → s.queueOwner = some (.handler h)
  holding : s.waiter.holdsQueue = true → s.queueOwner = some .requester

/-- The queue's mutex excludes, and the context is whole as long as the requester has not
given up and no allocation has failed. -/
structure Sound (reply : Nat → Datagram) (s : HandOff) : Prop where
  inside : ∀ h, (s.handlers h).inside = true → s.queueOwner = some (.handler h)
  holding : s.waiter.holdsQueue = true → s.queueOwner = some .requester
  whole : s.gaveUp = false → s.allocFailed = false → s.Whole reply

variable {reply : Nat → Datagram} {s : HandOff}

theorem start_exclusive : start.Exclusive where
  inside _ inside := by cases inside
  holding holds := by cases holds

theorem start_sound : start.Sound reply :=
  ⟨start_exclusive.inside, start_exclusive.holding, fun _ _ => ⟨nofun, nofun, nofun, trivial⟩⟩

theorem Sound.exclusive (sound : s.Sound reply) : s.Exclusive := ⟨sound.inside, sound.holding⟩

/-- Two handlers are not inside at once. -/
theorem Exclusive.unique (exclusive : s.Exclusive) {h h' : Nat}
    (inside : (s.handlers h).inside = true) (inside' : (s.handlers h').inside = true) : h = h' := by
  have same := (exclusive.inside h inside).symm.trans (exclusive.inside h' inside')
  cases same
  rfl

theorem Exclusive.outside (exclusive : s.Exclusive) (free : s.queueOwner = none) (h : Nat) :
    (s.handlers h).inside = false := by
  by_contra inside
  have owner := exclusive.inside h (by simpa using inside)
  rw [free] at owner
  cases owner

/-- A move of a handler within its critical section keeps the mutex as it is. -/
theorem Exclusive.inside_setHandler (exclusive : s.Exclusive) {h : Nat}
    (inside : (s.handlers h).inside = true) (pc : HandlerPc) (h' : Nat)
    (inside' : ((s.setHandler h pc).handlers h').inside = true) :
    s.queueOwner = some (.handler h') := by
  by_cases here : h' = h
  · subst here
    exact exclusive.inside h' inside
  · rw [setHandler_of_ne s here] at inside'
    exact exclusive.inside h' inside'

/-- The mutex excludes after every move. -/
theorem Exclusive.next (exclusive : s.Exclusive) {m : Move} (enabled : s.Enabled m) :
    (s.next reply m).Exclusive := by
  -- a requester that holds the queue finds no handler inside
  have alone : s.waiter.holdsQueue = true → ∀ h, (s.handlers h).inside ≠ true := by
    intro holds h inside
    have owner := (exclusive.holding holds).symm.trans (exclusive.inside h inside)
    cases owner
  cases m with
  | lockAdd =>
      refine ⟨fun h inside => ?_, fun _ => rfl⟩
      have out := exclusive.outside enabled.2 h
      exact absurd (out.symm.trans inside) (by decide)
  | listAdd => exact ⟨exclusive.inside, fun _ => exclusive.holding (by rw [enabled]; rfl)⟩
  | unlockAdd => exact ⟨fun h inside => absurd inside (alone (by rw [enabled]; rfl) h), nofun⟩
  | testNoReply => exact ⟨exclusive.inside, nofun⟩
  | seeDone => exact ⟨exclusive.inside, nofun⟩
  | timeOut => exact ⟨exclusive.inside, nofun⟩
  | lockCtx => exact ⟨exclusive.inside, nofun⟩
  | putState => exact ⟨exclusive.inside, nofun⟩
  | putSize => exact ⟨exclusive.inside, nofun⟩
  | putMsg => exact ⟨exclusive.inside, nofun⟩
  | unlockCtx => exact ⟨exclusive.inside, nofun⟩
  | readSize => exact ⟨exclusive.inside, nofun⟩
  | readData =>
      obtain ⟨size, pc⟩ := enabled
      simp only [HandOff.next, pc]
      exact ⟨exclusive.inside, nofun⟩
  | lockDel =>
      obtain ⟨⟨size, data, pc⟩, free⟩ := enabled
      simp only [HandOff.next, pc]
      refine ⟨fun h inside => ?_, fun _ => rfl⟩
      rw [exclusive.outside free h] at inside
      cases inside
  | listDel =>
      obtain ⟨size, data, pc⟩ := enabled
      simp only [HandOff.next, pc]
      exact ⟨exclusive.inside, fun _ => exclusive.holding (by rw [pc]; rfl)⟩
  | unlockDel =>
      obtain ⟨size, data, pc⟩ := enabled
      simp only [HandOff.next, pc]
      exact ⟨fun h inside => absurd inside (alone (by rw [pc]; rfl) h), nofun⟩
  | handlerLock h =>
      obtain ⟨-, free⟩ := enabled
      refine ⟨fun h' inside => ?_, fun holds => ?_⟩
      · by_cases here : h' = h
        · rw [here]
          rfl
        · have old : (s.handlers h').inside = true := by
            rw [← setHandler_of_ne s here .queueLocked]
            exact inside
          rw [exclusive.outside free h'] at old
          cases old
      · have owner := exclusive.holding holds
        rw [free] at owner
        cases owner
  | handlerMiss h =>
      exact ⟨exclusive.inside_setHandler (by rw [enabled.1]; rfl) _, exclusive.holding⟩
  | handlerLockCtx h =>
      exact ⟨exclusive.inside_setHandler (by rw [enabled.1]; rfl) _, exclusive.holding⟩
  | storeDone h => exact ⟨exclusive.inside_setHandler (by rw [enabled]; rfl) _, exclusive.holding⟩
  | storeMsg h allocated =>
      cases allocated <;>
        exact ⟨exclusive.inside_setHandler (by rw [enabled]; rfl) _, exclusive.holding⟩
  | storeSize h => exact ⟨exclusive.inside_setHandler (by rw [enabled]; rfl) _, exclusive.holding⟩
  | copy h => exact ⟨exclusive.inside_setHandler (by rw [enabled]; rfl) _, exclusive.holding⟩
  | handlerUnlockCtx h =>
      exact ⟨exclusive.inside_setHandler (by rw [enabled]; rfl) _, exclusive.holding⟩
  | handlerUnlock h =>
      have own : (s.handlers h).inside = true := by
        rw [enabled]
        rfl
      refine ⟨fun h' inside => ?_, fun holds => absurd own (alone holds h)⟩
      by_cases here : h' = h
      · subst here
        simp [HandOff.next, HandlerPc.inside] at inside
      · have old : (s.handlers h').inside = true := by
          rw [← setHandler_of_ne s here .finished]
          exact inside
        exact absurd (exclusive.unique old own) here

/-! ### The context stays whole -/

section Keep

variable {t : HandOff}

/-- What the requester has in hand stays good if no buffer is lost. -/
theorem inHand_mono {pc : WaiterPc} (inHand : InHand reply s pc)
    (sized : ∀ size, pc = .sized size → t.response = s.response)
    (filling : ∀ h, Filling reply s h → Filling reply t h)
    (filled : ∀ h, Filled reply s h → Filled reply t h) : InHand reply t pc := by
  cases pc with
  | sized size =>
      obtain ⟨h, stored, length⟩ := inHand
      exact ⟨h, (sized size rfl).trans stored, length⟩
  | paired size data =>
      obtain ⟨h, pointer, length, has⟩ := inHand
      exact ⟨h, pointer, length, filling h has⟩
  | deleting size data =>
      obtain ⟨h, pointer, length, has⟩ := inHand
      exact ⟨h, pointer, length, filled h has⟩
  | deleted size data =>
      obtain ⟨h, pointer, length, has⟩ := inHand
      exact ⟨h, pointer, length, filled h has⟩
  | returned size data =>
      obtain ⟨h, pointer, length, has⟩ := inHand
      exact ⟨h, pointer, length, filled h has⟩
  | _ => exact inHand

/-- A move of the requester that stores nothing. -/
theorem Whole.waiterMove (whole : s.Whole reply) (handlers : t.handlers = s.handlers)
    (buffers : t.buffers = s.buffers) (response : t.response = s.response)
    (size : t.responseSize = s.responseSize) (inHand : InHand reply s t.waiter) :
    t.Whole reply := by
  have filled : ∀ h, Filled reply s h → Filled reply t h := by
    intro h has
    rw [Filled, handlers, buffers]
    exact has
  have filling : ∀ h, Filling reply s h → Filling reply t h := by
    intro h has
    rw [Filling, handlers]
    exact has.imp_right fun has => has.imp_right (filled h)
  refine ⟨?_, ?_, ?_, inHand_mono inHand (fun _ _ => response) filling filled⟩
  · rw [handlers, response]
    exact whole.stored
  · rw [response]
    exact fun h stored => filling h (whole.filling h stored)
  · rw [handlers, response, size]
    exact whole.settled

/-- A move of one handler loses no buffer if it does not lose its own. -/
theorem buffers_kept {h : Nat} (others : ∀ h', h' ≠ h → t.handlers h' = s.handlers h' ∧
      t.buffers h' = s.buffers h')
    (filled : Filled reply s h → Filled reply t h)
    (filling : Filling reply s h → Filling reply t h) (h' : Nat) :
    (Filled reply s h' → Filled reply t h') ∧ (Filling reply s h' → Filling reply t h') := by
  by_cases here : h' = h
  · rw [here]
    exact ⟨filled, filling⟩
  · obtain ⟨pc, content⟩ := others h' here
    simp only [Filled, Filling, pc, content]
    exact ⟨id, id⟩

/-- A move of a handler that stores nothing into the context: it has no buffer yet, or is
done with it, before and after. -/
theorem Whole.handlerMove (whole : s.Whole reply) {h : Nat} {pc : HandlerPc}
    (handlers : t.handlers = (s.setHandler h pc).handlers) (buffers : t.buffers = s.buffers)
    (response : t.response = s.response) (size : t.responseSize = s.responseSize)
    (waiter : t.waiter = s.waiter) (before : s.handlers h ≠ .msgStored ∧ s.handlers h ≠ .sizeStored)
    (after : pc ≠ .msgStored) (past : (s.handlers h).past = true → pc.past = true) :
    t.Whole reply := by
  have own : t.handlers h = pc := by rw [handlers, setHandler_self]
  have others : ∀ h', h' ≠ h → t.handlers h' = s.handlers h' :=
    fun h' here => by rw [handlers, setHandler_of_ne s here]
  have filled : Filled reply s h → Filled reply t h := by
    rintro ⟨done, content⟩
    rw [Filled, own, buffers]
    exact ⟨past done, content⟩
  have filling : Filling reply s h → Filling reply t h := by
    rintro (stored | stored | has)
    · exact absurd stored before.1
    · exact absurd stored before.2
    · exact .inr (.inr (filled has))
  have kept := buffers_kept (fun h' here => ⟨others h' here, congrFun buffers h'⟩) filled filling
  refine ⟨?_, ?_, ?_, ?_⟩
  · intro h' stored
    rw [response]
    by_cases here : h' = h
    · rw [here, own] at stored
      exact absurd stored after
    · rw [others h' here] at stored
      exact whole.stored h' stored
  · intro h' stored
    exact (kept h').2 (whole.filling h' (response ▸ stored))
  · intro h' stored between
    rw [response] at stored
    rw [size]
    by_cases here : h' = h
    · rw [here] at stored ⊢
      exact whole.settled h stored before.1
    · rw [others h' here] at between
      exact whole.settled h' stored between
  · rw [waiter]
    exact inHand_mono whole.inHand (fun _ _ => response) (fun h' => (kept h').2)
      fun h' => (kept h').1

end Keep

theorem whole_storeMsg (sound : s.Sound reply) (whole : s.Whole reply) {h : Nat}
    (pc : s.handlers h = .doneStored) (apart : ∀ size, s.waiter ≠ .sized size) :
    (s.next reply (.storeMsg h true)).Whole reply := by
  have own : (s.next reply (.storeMsg h true)).handlers h = .msgStored := setHandler_self ..
  have others : ∀ h', h' ≠ h → (s.next reply (.storeMsg h true)).handlers h' = s.handlers h' ∧
      (s.next reply (.storeMsg h true)).buffers h' = s.buffers h' :=
    fun h' here => ⟨setHandler_of_ne s here _, Function.update_of_ne here ..⟩
  -- the handler had no buffer before
  have none : ¬ Filling reply s h := by
    simp [Filling, Filled, pc, HandlerPc.past]
  have kept := buffers_kept others (fun has => absurd (.inr (.inr has)) none)
    (fun has => absurd has none)
  refine ⟨?_, ?_, ?_, inHand_mono whole.inHand (fun size sized => absurd sized (apart size))
    (fun h' => (kept h').2) fun h' => (kept h').1⟩
  · intro h' stored
    by_cases here : h' = h
    · rw [here]
      rfl
    · rw [(others h' here).1] at stored
      exact absurd (sound.exclusive.unique (by rw [stored]; rfl) (by rw [pc]; rfl)) here
  · rintro h' ⟨⟩
    exact .inl own
  · rintro h' ⟨⟩ between
    exact absurd own between

theorem whole_storeSize (whole : s.Whole reply) {h : Nat} (pc : s.handlers h = .msgStored) :
    (s.next reply (.storeSize h)).Whole reply := by
  have own : (s.next reply (.storeSize h)).handlers h = .sizeStored := setHandler_self ..
  have others : ∀ h', h' ≠ h → (s.next reply (.storeSize h)).handlers h' = s.handlers h' :=
    fun h' here => setHandler_of_ne s here _
  have filled : ¬ Filled reply s h := by
    simp [Filled, pc, HandlerPc.past]
  have kept := buffers_kept (fun h' here => ⟨others h' here, rfl⟩)
    (fun has => absurd has filled) (fun _ => .inr (.inl own))
  refine ⟨?_, fun h' stored => (kept h').2 (whole.filling h' stored), ?_,
    inHand_mono whole.inHand (fun _ _ => rfl) (fun h' => (kept h').2) fun h' => (kept h').1⟩
  · intro h' stored
    by_cases here : h' = h
    · rw [here, own] at stored
      cases stored
    · rw [others h' here] at stored
      exact whole.stored h' stored
  · intro h' stored _
    cases (whole.stored h pc).symm.trans stored
    rfl

theorem whole_copy (whole : s.Whole reply) {h : Nat} (pc : s.handlers h = .sizeStored) :
    (s.next reply (.copy h)).Whole reply := by
  have own : (s.next reply (.copy h)).handlers h = .copied := setHandler_self ..
  have others : ∀ h', h' ≠ h → (s.next reply (.copy h)).handlers h' = s.handlers h' ∧
      (s.next reply (.copy h)).buffers h' = s.buffers h' :=
    fun h' here => ⟨setHandler_of_ne s here _, Function.update_of_ne here ..⟩
  have mine : Filled reply (s.next reply (.copy h)) h :=
    ⟨by rw [own]; rfl, Function.update_self ..⟩
  have kept := buffers_kept others (fun _ => mine) (fun _ => .inr (.inr mine))
  refine ⟨?_, fun h' stored => (kept h').2 (whole.filling h' stored), ?_,
    inHand_mono whole.inHand (fun _ _ => rfl) (fun h' => (kept h').2) fun h' => (kept h').1⟩
  · intro h' stored
    by_cases here : h' = h
    · rw [here, own] at stored
      cases stored
    · rw [(others h' here).1] at stored
      exact whole.stored h' stored
  · intro h' stored between
    by_cases here : h' = h
    · rw [here] at stored ⊢
      exact whole.settled h stored (by rw [pc]; decide)
    · rw [(others h' here).1] at between
      exact whole.settled h' stored between

/-- The context stays whole through every careful move. -/
theorem whole_next (sound : s.Sound reply) {m : Move} (enabled : s.Enabled m)
    (careful : s.Careful m) (waits : (s.next reply m).gaveUp = false)
    (allocates : (s.next reply m).allocFailed = false) : (s.next reply m).Whole reply := by
  cases m with
  | lockAdd => exact (sound.whole waits allocates).waiterMove rfl rfl rfl rfl trivial
  | listAdd => exact (sound.whole waits allocates).waiterMove rfl rfl rfl rfl trivial
  | unlockAdd => exact (sound.whole waits allocates).waiterMove rfl rfl rfl rfl trivial
  | testNoReply => exact (sound.whole waits allocates).waiterMove rfl rfl rfl rfl trivial
  | seeDone => exact (sound.whole waits allocates).waiterMove rfl rfl rfl rfl trivial
  | timeOut => cases waits
  | lockCtx =>
      have inHand := (sound.whole waits allocates).inHand
      rw [enabled.1] at inHand
      cases inHand
  | putState =>
      have inHand := (sound.whole waits allocates).inHand
      rw [show s.waiter = .ctxLocked from enabled] at inHand
      cases inHand
  | putSize =>
      have inHand := (sound.whole waits allocates).inHand
      rw [show s.waiter = .stateDone from enabled] at inHand
      cases inHand
  | putMsg =>
      have inHand := (sound.whole waits allocates).inHand
      rw [show s.waiter = .sizeZero from enabled] at inHand
      cases inHand
  | unlockCtx =>
      have inHand := (sound.whole waits allocates).inHand
      rw [show s.waiter = .msgNull from enabled] at inHand
      cases inHand
  | readSize =>
      have whole := sound.whole waits allocates
      obtain ⟨h, stored, between⟩ := careful waits
      exact whole.waiterMove rfl rfl rfl rfl ⟨h, stored, whole.settled h stored between⟩
  | readData =>
      obtain ⟨size, pc⟩ := enabled
      simp only [next, pc] at waits allocates ⊢
      have whole := sound.whole waits allocates
      have inHand := whole.inHand
      rw [pc] at inHand
      obtain ⟨h, stored, length⟩ := inHand
      exact whole.waiterMove rfl rfl rfl rfl ⟨h, stored, length, whole.filling h stored⟩
  | lockDel =>
      obtain ⟨⟨size, data, pc⟩, free⟩ := enabled
      simp only [next, pc] at waits allocates ⊢
      have whole := sound.whole waits allocates
      have inHand := whole.inHand
      rw [pc] at inHand
      obtain ⟨h, pointer, length, has⟩ := inHand
      -- the queue is free, so the handler is out of its section and the buffer is filled
      have out := sound.exclusive.outside free h
      refine whole.waiterMove rfl rfl rfl rfl ⟨h, pointer, length, ?_⟩
      rcases has with stored | stored | has
      · rw [stored] at out
        cases out
      · rw [stored] at out
        cases out
      · exact has
  | listDel =>
      obtain ⟨size, data, pc⟩ := enabled
      simp only [next, pc] at waits allocates ⊢
      have whole := sound.whole waits allocates
      have inHand := whole.inHand
      rw [pc] at inHand
      exact whole.waiterMove rfl rfl rfl rfl inHand
  | unlockDel =>
      obtain ⟨size, data, pc⟩ := enabled
      simp only [next, pc] at waits allocates ⊢
      have whole := sound.whole waits allocates
      have inHand := whole.inHand
      rw [pc] at inHand
      exact whole.waiterMove rfl rfl rfl rfl inHand
  | handlerLock h =>
      exact (sound.whole waits allocates).handlerMove rfl rfl rfl rfl rfl (by simp [enabled.1])
        (by decide) (by simp [enabled.1, HandlerPc.past])
  | handlerMiss h =>
      exact (sound.whole waits allocates).handlerMove rfl rfl rfl rfl rfl (by simp [enabled.1])
        (by decide) (by simp [HandlerPc.past])
  | handlerLockCtx h =>
      exact (sound.whole waits allocates).handlerMove rfl rfl rfl rfl rfl (by simp [enabled.1])
        (by decide) (by simp [enabled.1, HandlerPc.past])
  | storeDone h =>
      have pc : s.handlers h = .ctxLocked := enabled
      exact (sound.whole waits allocates).handlerMove rfl rfl rfl rfl rfl (by simp [pc])
        (by decide) (by simp [pc, HandlerPc.past])
  | storeMsg h allocated =>
      cases allocated with
      | true =>
          exact whole_storeMsg sound (sound.whole waits allocates) enabled (careful waits)
      | false => cases allocates
  | storeSize h => exact whole_storeSize (sound.whole waits allocates) enabled
  | copy h => exact whole_copy (sound.whole waits allocates) enabled
  | handlerUnlockCtx h =>
      have pc : s.handlers h = .copied := enabled
      exact (sound.whole waits allocates).handlerMove rfl rfl rfl rfl rfl (by simp [pc])
        (by decide) (by simp [HandlerPc.past])
  | handlerUnlock h =>
      have pc : s.handlers h = .ctxReleased := enabled
      exact (sound.whole waits allocates).handlerMove rfl rfl rfl rfl rfl (by simp [pc])
        (by decide) (by simp [HandlerPc.past])

/-! ## Every run -/

/-- **A careful run hands over one whole reply.** In every run whose moves are all
`Careful`, with any number of replies: if the requester has not given up, so that it left
the wait because it saw `DONE`, and no handler's allocation failed, then the size and the
buffer it returns are the length and the payload of one reply. -/
theorem careful_hand_off_is_one_reply
    (run : ReflTransGen (fun s t => ∃ m, (s.Enabled m ∧ s.Careful m) ∧ t = s.next reply m)
      start s)
    (waits : s.gaveUp = false) (allocates : s.allocFailed = false) {size : Nat} {data : Option Nat}
    (returned : s.waiter = .returned size data) : OneReply reply s size data := by
  have sound : s.Sound reply := by
    refine Simulation.invariant (P := Sound reply) ?_ run start_sound
    rintro s _ ⟨m, ⟨enabled, careful⟩, rfl⟩ sound
    have exclusive : (s.next reply m).Exclusive := sound.exclusive.next enabled
    exact ⟨exclusive.inside, exclusive.holding, whole_next sound enabled careful⟩
  have inHand := (sound.whole waits allocates).inHand
  rw [returned] at inHand
  obtain ⟨h, pointer, length, filled⟩ := inHand
  exact ⟨h, pointer, length, filled.2⟩

/-- The requester waits before the handler gets in, and looks again once it is out. -/
def patientMoves : List Move :=
  [.lockAdd, .listAdd, .unlockAdd, .testNoReply, .handlerLock 0, .handlerLockCtx 0,
    .storeDone 0, .storeMsg 0 true, .storeSize 0, .copy 0, .handlerUnlockCtx 0,
    .handlerUnlock 0, .seeDone, .readSize, .readData, .lockDel, .listDel, .unlockDel]

/-- The requester looks right after `DONE` is published. -/
def hastyMoves : List Move :=
  [.lockAdd, .listAdd, .unlockAdd, .testNoReply, .handlerLock 0, .handlerLockCtx 0,
    .storeDone 0, .seeDone, .readSize, .readData, .storeMsg 0 true, .storeSize 0, .copy 0,
    .handlerUnlockCtx 0, .handlerUnlock 0, .lockDel, .listDel, .unlockDel]

theorem patient_hand_off :
    (patientMoves.foldl (next fun _ => exampleDatagram) start).waiter = .returned 56 (some 0) ∧
      OneReply (fun _ => exampleDatagram)
        (patientMoves.foldl (next fun _ => exampleDatagram) start) 56 (some 0) := by
  have allowed : Simulation.Allowed (fun s m => Enabled s m ∧ Careful s m)
      (next fun _ => exampleDatagram) start patientMoves :=
    ⟨⟨⟨rfl, rfl⟩, trivial⟩, ⟨rfl, trivial⟩, ⟨rfl, trivial⟩, ⟨rfl, trivial⟩,
      ⟨⟨rfl, rfl⟩, trivial⟩, ⟨⟨rfl, rfl, rfl⟩, trivial⟩, ⟨rfl, trivial⟩, ⟨rfl, nofun⟩,
      ⟨rfl, trivial⟩, ⟨rfl, trivial⟩, ⟨rfl, trivial⟩, ⟨rfl, trivial⟩, ⟨⟨rfl, rfl⟩, trivial⟩,
      ⟨rfl, fun _ => ⟨0, rfl, nofun⟩⟩, ⟨⟨_, rfl⟩, trivial⟩, ⟨⟨⟨_, _, rfl⟩, rfl⟩, trivial⟩,
      ⟨⟨_, _, rfl⟩, trivial⟩, ⟨⟨_, _, rfl⟩, trivial⟩, trivial⟩
  exact ⟨rfl, careful_hand_off_is_one_reply allowed.run rfl rfl rfl⟩

/-- The requester has seen `DONE`, the handler has stored all there is to store, and the
pair is `(0, NULL)`. -/
theorem hasty_hand_off_loses_reply :
    ¬ ∀ (reply : Nat → Datagram) (s : HandOff),
      ReflTransGen (fun s t => ∃ m, s.Enabled m ∧ t = s.next reply m) start s →
      s.gaveUp = false → s.allocFailed = false → ∀ size data,
      s.waiter = .returned size data → OneReply reply s size data := by
  intro handed
  have allowed : Simulation.Allowed Enabled (next fun _ => exampleDatagram) start hastyMoves :=
    ⟨⟨rfl, rfl⟩, rfl, rfl, rfl, ⟨rfl, rfl⟩, ⟨rfl, rfl, rfl⟩, rfl, ⟨rfl, rfl⟩, rfl, ⟨_, rfl⟩,
      rfl, rfl, rfl, rfl, rfl, ⟨⟨_, _, rfl⟩, rfl⟩, ⟨_, _, rfl⟩, ⟨_, _, rfl⟩, trivial⟩
  obtain ⟨h, pointer, -⟩ := handed _ _ allowed.run rfl rfl 0 none rfl
  cases pointer

end HandOff

end Teadfs
