/-
# Teadfs.RequestReturns — a request comes back

A requester and the netlink handlers take two mutexes, the queue's and the context's. A
handler takes the context's inside the queue's; the requester takes the one, gives it back,
and later takes the other, so nobody waits for a mutex whose owner waits for him
(`Locks.progress`). And there is no loop: the test for `NO_REPLY` goes on to the wait, and the
wait ends by a reply or by its timeout.

So a run of a request has a bounded number of moves, and a bounded number more for each datagram
that comes in; and where nothing can happen but for another datagram to come in, the request
has returned (`request_comes_back`).
-/
import Teadfs.HandOff
import Teadfs.Lib.Progress

namespace Teadfs

set_option autoImplicit false

open Progress

/-! ## The mutexes -/

/-- The requester holds the context's mutex. -/
def WaiterPc.holdsCtx : WaiterPc → Bool
  | .ctxLocked => true
  | .stateDone => true
  | .sizeZero => true
  | .msgNull => true
  | _ => false

/-- The handler holds the context's mutex. -/
def HandlerPc.holdsCtx : HandlerPc → Bool
  | .ctxLocked => true
  | .doneStored => true
  | .msgStored => true
  | .sizeStored => true
  | .copied => true
  | _ => false

theorem HandlerPc.inside_of_holdsCtx {pc : HandlerPc} (holds : pc.holdsCtx = true) :
    pc.inside = true := by
  cases pc <;> first | rfl | cases holds

namespace HandOff

/-- Who is in a section of the queue's mutex. -/
def HasQueue (s : HandOff) : Agent → Prop
  | .requester => s.waiter.holdsQueue = true
  | .handler h => (s.handlers h).inside = true

/-- Who is in a section of the context's mutex. -/
def HasCtx (s : HandOff) : Agent → Prop
  | .requester => s.waiter.holdsCtx = true
  | .handler h => (s.handlers h).holdsCtx = true

/-- Both mutexes have the owner they say. -/
structure Locks (s : HandOff) : Prop where
  queue : Held s.queueOwner s.HasQueue
  ctx : Held s.ctxOwner s.HasCtx

variable {reply : Nat → Datagram} {s t : HandOff}

theorem start_locks : start.Locks where
  queue a := by cases a <;> exact ⟨nofun, nofun⟩
  ctx a := by cases a <;> exact ⟨nofun, nofun⟩

/-! A move of the requester is none of a handler, and a move of a handler is none of another or
of the requester. -/

theorem hasQueue_waiter (handlers : t.handlers = s.handlers) (a : Agent) (other : a ≠ .requester) :
    t.HasQueue a ↔ s.HasQueue a := by
  cases a with
  | requester => exact absurd rfl other
  | handler h => simp only [HasQueue, handlers]

theorem hasCtx_waiter (handlers : t.handlers = s.handlers) (a : Agent) (other : a ≠ .requester) :
    t.HasCtx a ↔ s.HasCtx a := by
  cases a with
  | requester => exact absurd rfl other
  | handler h => simp only [HasCtx, handlers]

theorem hasQueue_handler {h : Nat} {p : HandlerPc} (waiter : t.waiter = s.waiter)
    (handlers : t.handlers = (s.setHandler h p).handlers) (a : Agent) (other : a ≠ .handler h) :
    t.HasQueue a ↔ s.HasQueue a := by
  cases a with
  | requester => simp only [HasQueue, waiter]
  | handler h' =>
      have this : h' ≠ h := fun same => other (congrArg Agent.handler same)
      simp only [HasQueue, handlers, setHandler_of_ne s this]

theorem hasCtx_handler {h : Nat} {p : HandlerPc} (waiter : t.waiter = s.waiter)
    (handlers : t.handlers = (s.setHandler h p).handlers) (a : Agent) (other : a ≠ .handler h) :
    t.HasCtx a ↔ s.HasCtx a := by
  cases a with
  | requester => simp only [HasCtx, waiter]
  | handler h' =>
      have this : h' ≠ h := fun same => other (congrArg Agent.handler same)
      simp only [HasCtx, handlers, setHandler_of_ne s this]

/-- A move of the requester that stays inside or outside of both mutexes. -/
theorem Locks.waiterStays (locks : s.Locks) (handlers : t.handlers = s.handlers)
    (queueOwner : t.queueOwner = s.queueOwner) (ctxOwner : t.ctxOwner = s.ctxOwner)
    (queue : t.waiter.holdsQueue = s.waiter.holdsQueue)
    (ctx : t.waiter.holdsCtx = s.waiter.holdsCtx) : t.Locks where
  queue := by
    rw [queueOwner]
    exact locks.queue.stay (a := .requester) (by simp only [HasQueue, queue])
      (hasQueue_waiter handlers)
  ctx := by
    rw [ctxOwner]
    exact locks.ctx.stay (a := .requester) (by simp only [HasCtx, ctx])
      (hasCtx_waiter handlers)

/-- A move of a handler that stays inside or outside of both mutexes. -/
theorem Locks.handlerStays (locks : s.Locks) {h : Nat} {p : HandlerPc}
    (waiter : t.waiter = s.waiter) (handlers : t.handlers = (s.setHandler h p).handlers)
    (queueOwner : t.queueOwner = s.queueOwner) (ctxOwner : t.ctxOwner = s.ctxOwner)
    (queue : p.inside = (s.handlers h).inside) (ctx : p.holdsCtx = (s.handlers h).holdsCtx) :
    t.Locks where
  queue := by
    rw [queueOwner]
    exact locks.queue.stay (a := .handler h)
      (by simp only [HasQueue, handlers, setHandler_self, queue])
      (hasQueue_handler waiter handlers)
  ctx := by
    rw [ctxOwner]
    exact locks.ctx.stay (a := .handler h)
      (by simp only [HasCtx, handlers, setHandler_self, ctx])
      (hasCtx_handler waiter handlers)

/-- Every move keeps the mutexes. -/
theorem Locks.next (locks : s.Locks) {m : Move} (enabled : s.Enabled m) :
    (s.next reply m).Locks := by
  cases m with
  | lockAdd =>
      obtain ⟨pc, free⟩ := enabled
      exact ⟨locks.queue.take free rfl (hasQueue_waiter rfl),
        locks.ctx.stay (a := .requester) (by simp [HasCtx, HandOff.next, pc, WaiterPc.holdsCtx])
          (hasCtx_waiter rfl)⟩
  | unlockAdd =>
      have pc : s.waiter = .added := enabled
      exact ⟨locks.queue.give (a := .requester) (by rw [HasQueue, pc]; rfl)
          (by simp [HasQueue, HandOff.next, WaiterPc.holdsQueue]) (hasQueue_waiter rfl),
        locks.ctx.stay (a := .requester) (by simp [HasCtx, HandOff.next, pc, WaiterPc.holdsCtx])
          (hasCtx_waiter rfl)⟩
  | lockCtx =>
      obtain ⟨pc, free⟩ := enabled
      exact ⟨locks.queue.stay (a := .requester)
          (by simp [HasQueue, HandOff.next, pc, WaiterPc.holdsQueue])
          (hasQueue_waiter rfl),
        locks.ctx.take free rfl (hasCtx_waiter rfl)⟩
  | unlockCtx =>
      have pc : s.waiter = .msgNull := enabled
      exact ⟨locks.queue.stay (a := .requester)
          (by simp [HasQueue, HandOff.next, pc, WaiterPc.holdsQueue])
          (hasQueue_waiter rfl),
        locks.ctx.give (a := .requester) (by rw [HasCtx, pc]; rfl)
          (by simp [HasCtx, HandOff.next, WaiterPc.holdsCtx]) (hasCtx_waiter rfl)⟩
  | lockDel =>
      obtain ⟨⟨size, data, pc⟩, free⟩ := enabled
      simp only [HandOff.next, pc]
      exact ⟨locks.queue.take free rfl (hasQueue_waiter rfl),
        locks.ctx.stay (a := .requester) (by simp [HasCtx, pc, WaiterPc.holdsCtx])
          (hasCtx_waiter rfl)⟩
  | unlockDel =>
      obtain ⟨size, data, pc⟩ := enabled
      simp only [HandOff.next, pc]
      exact ⟨locks.queue.give (a := .requester) (by rw [HasQueue, pc]; rfl)
          (by simp [HasQueue, WaiterPc.holdsQueue]) (hasQueue_waiter rfl),
        locks.ctx.stay (a := .requester) (by simp [HasCtx, pc, WaiterPc.holdsCtx])
          (hasCtx_waiter rfl)⟩
  | listAdd => exact locks.waiterStays rfl rfl rfl (by rw [enabled]; rfl) (by rw [enabled]; rfl)
  | testNoReply => exact locks.waiterStays rfl rfl rfl (by rw [enabled]; rfl) (by rw [enabled]; rfl)
  | seeDone =>
      exact locks.waiterStays rfl rfl rfl (by rw [enabled.1]; rfl) (by rw [enabled.1]; rfl)
  | timeOut => exact locks.waiterStays rfl rfl rfl (by rw [enabled]; rfl) (by rw [enabled]; rfl)
  | putState => exact locks.waiterStays rfl rfl rfl (by rw [enabled]; rfl) (by rw [enabled]; rfl)
  | putSize => exact locks.waiterStays rfl rfl rfl (by rw [enabled]; rfl) (by rw [enabled]; rfl)
  | putMsg => exact locks.waiterStays rfl rfl rfl (by rw [enabled]; rfl) (by rw [enabled]; rfl)
  | readSize => exact locks.waiterStays rfl rfl rfl (by rw [enabled]; rfl) (by rw [enabled]; rfl)
  | readData =>
      obtain ⟨size, pc⟩ := enabled
      simp only [HandOff.next, pc]
      exact locks.waiterStays rfl rfl rfl (by rw [pc]; rfl) (by rw [pc]; rfl)
  | listDel =>
      obtain ⟨size, data, pc⟩ := enabled
      simp only [HandOff.next, pc]
      exact locks.waiterStays rfl rfl rfl (by rw [pc]; rfl) (by rw [pc]; rfl)
  | handlerLock h =>
      obtain ⟨pc, free⟩ := enabled
      refine ⟨?_, ?_⟩
      · exact locks.queue.take (a := .handler h) (Q := (s.next reply (.handlerLock h)).HasQueue)
          free (by simp [HasQueue, HandOff.next, HandlerPc.inside])
          (hasQueue_handler (p := .queueLocked) rfl rfl)
      · exact locks.ctx.stay (a := .handler h)
          (by simp [HasCtx, HandOff.next, pc, HandlerPc.holdsCtx])
          (hasCtx_handler (p := .queueLocked) rfl rfl)
  | handlerMiss h =>
      exact locks.handlerStays (p := .ctxReleased) rfl rfl rfl rfl (by rw [enabled.1]; rfl)
        (by rw [enabled.1]; rfl)
  | handlerLockCtx h =>
      obtain ⟨pc, -, free⟩ := enabled
      refine ⟨?_, ?_⟩
      · exact locks.queue.stay (a := .handler h)
          (by simp [HasQueue, HandOff.next, pc, HandlerPc.inside])
          (hasQueue_handler (p := .ctxLocked) rfl rfl)
      · exact locks.ctx.take (a := .handler h) (Q := (s.next reply (.handlerLockCtx h)).HasCtx)
          free (by simp [HasCtx, HandOff.next, HandlerPc.holdsCtx])
          (hasCtx_handler (p := .ctxLocked) rfl rfl)
  | storeDone h =>
      exact locks.handlerStays (p := .doneStored) rfl rfl rfl rfl (by rw [enabled]; rfl)
        (by rw [enabled]; rfl)
  | storeMsg h allocated =>
      cases allocated with
      | true =>
          exact locks.handlerStays (p := .msgStored) rfl rfl rfl rfl (by rw [enabled]; rfl)
            (by rw [enabled]; rfl)
      | false =>
          exact locks.handlerStays (p := .copied) rfl rfl rfl rfl (by rw [enabled]; rfl)
            (by rw [enabled]; rfl)
  | storeSize h =>
      exact locks.handlerStays (p := .sizeStored) rfl rfl rfl rfl (by rw [enabled]; rfl)
        (by rw [enabled]; rfl)
  | copy h =>
      exact locks.handlerStays (p := .copied) rfl rfl rfl rfl (by rw [enabled]; rfl)
        (by rw [enabled]; rfl)
  | handlerUnlockCtx h =>
      have pc : s.handlers h = .copied := enabled
      exact ⟨locks.queue.stay (a := .handler h)
          (by simp [HasQueue, HandOff.next, pc, HandlerPc.inside])
          (hasQueue_handler (p := .ctxReleased) rfl rfl),
        locks.ctx.give (a := .handler h) (by rw [HasCtx, pc]; rfl)
          (by simp [HasCtx, HandOff.next, HandlerPc.holdsCtx])
          (hasCtx_handler (p := .ctxReleased) rfl rfl)⟩
  | handlerUnlock h =>
      have pc : s.handlers h = .ctxReleased := enabled
      exact ⟨locks.queue.give (a := .handler h) (by rw [HasQueue, pc]; rfl)
          (by simp [HasQueue, HandOff.next, HandlerPc.inside])
          (hasQueue_handler (p := .finished) rfl rfl),
        locks.ctx.stay (a := .handler h) (by simp [HasCtx, HandOff.next, pc, HandlerPc.holdsCtx])
          (hasCtx_handler (p := .finished) rfl rfl)⟩

end HandOff

/-! ## Who can move -/

/-- The move by which another datagram comes in. -/
def Move.comesIn : Move → Bool
  | .handlerLock _ => true
  | _ => false

namespace HandOff

variable {reply : Nat → Datagram} {s : HandOff}

/-- A handler inside can move, unless the context is the requester's. -/
theorem Locks.handler_moves (locks : s.Locks) {h : Nat} (inside : (s.handlers h).inside = true) :
    (∃ m : Move, m.comesIn = false ∧ s.Enabled m) ∨ s.waiter.holdsCtx = true := by
  cases pc : s.handlers h with
  | idle =>
      rw [pc] at inside
      cases inside
  | finished =>
      rw [pc] at inside
      cases inside
  | queueLocked =>
      cases queued : s.queued with
      | false => exact .inl ⟨.handlerMiss h, rfl, pc, queued⟩
      | true =>
          rcases locks.ctx.cases with free | ⟨a, -, has⟩
          · exact .inl ⟨.handlerLockCtx h, rfl, pc, queued, free⟩
          · cases a with
            | requester => exact .inr has
            | handler h' =>
                -- it would be inside the queue's mutex as well, where only this one is
                have also : (s.handlers h').inside = true := HandlerPc.inside_of_holdsCtx has
                have same := locks.queue.unique (show s.HasQueue (.handler h') from also)
                  (show s.HasQueue (.handler h) from inside)
                cases same
                rw [HasCtx, pc] at has
                cases has
  | ctxLocked => exact .inl ⟨.storeDone h, rfl, pc⟩
  | doneStored => exact .inl ⟨.storeMsg h true, rfl, pc⟩
  | msgStored => exact .inl ⟨.storeSize h, rfl, pc⟩
  | sizeStored => exact .inl ⟨.copy h, rfl, pc⟩
  | copied => exact .inl ⟨.handlerUnlockCtx h, rfl, pc⟩
  | ctxReleased => exact .inl ⟨.handlerUnlock h, rfl, pc⟩

/-- A requester outside both mutexes finds the queue's free, or its owner can move. -/
theorem Locks.queue_free (locks : s.Locks) (queue : s.waiter.holdsQueue = false)
    (ctx : s.waiter.holdsCtx = false) :
    s.queueOwner = none ∨ ∃ m : Move, m.comesIn = false ∧ s.Enabled m := by
  rcases locks.queue.cases with free | ⟨a, -, has⟩
  · exact .inl free
  · cases a with
    | requester =>
        rw [HasQueue, queue] at has
        cases has
    | handler h =>
        rcases locks.handler_moves has with moves | holds
        · exact .inr moves
        · rw [ctx] at holds
          cases holds

/-- **No deadlock.** Somebody can move without another datagram, until the request has
returned. -/
theorem Locks.progress (locks : s.Locks) :
    (∃ m : Move, m.comesIn = false ∧ s.Enabled m) ∨
      ∃ size data, s.waiter = .returned size data := by
  cases pc : s.waiter with
  | start =>
      rcases locks.queue_free (by rw [pc]; rfl) (by rw [pc]; rfl) with free | moves
      · exact .inl ⟨.lockAdd, rfl, pc, free⟩
      · exact .inl moves
  | adding => exact .inl ⟨.listAdd, rfl, pc⟩
  | added => exact .inl ⟨.unlockAdd, rfl, pc⟩
  | entered => exact .inl ⟨.testNoReply, rfl, pc⟩
  | waiting => exact .inl ⟨.timeOut, rfl, pc⟩
  | timedOut =>
      rcases locks.ctx.cases with free | ⟨a, -, has⟩
      · exact .inl ⟨.lockCtx, rfl, pc, free⟩
      · cases a with
        | requester =>
            rw [HasCtx, pc] at has
            cases has
        | handler h =>
            -- whoever has the context has the queue too, and does not wait for anybody
            rcases locks.handler_moves (HandlerPc.inside_of_holdsCtx has) with moves | holds
            · exact .inl moves
            · rw [pc] at holds
              cases holds
  | ctxLocked => exact .inl ⟨.putState, rfl, pc⟩
  | stateDone => exact .inl ⟨.putSize, rfl, pc⟩
  | sizeZero => exact .inl ⟨.putMsg, rfl, pc⟩
  | msgNull => exact .inl ⟨.unlockCtx, rfl, pc⟩
  | answered => exact .inl ⟨.readSize, rfl, pc⟩
  | sized size => exact .inl ⟨.readData, rfl, size, pc⟩
  | paired size data =>
      rcases locks.queue_free (by rw [pc]; rfl) (by rw [pc]; rfl) with free | moves
      · exact .inl ⟨.lockDel, rfl, ⟨size, data, pc⟩, free⟩
      · exact .inl moves
  | deleting size data => exact .inl ⟨.listDel, rfl, size, data, pc⟩
  | deleted size data => exact .inl ⟨.unlockDel, rfl, size, data, pc⟩
  | returned size data => exact .inr ⟨size, data, rfl⟩

end HandOff

/-! ## How long -/

/-- The moves a requester has before it. -/
def WaiterPc.left : WaiterPc → Nat
  | .start => 15
  | .adding => 14
  | .added => 13
  | .entered => 12
  | .waiting => 11
  | .timedOut => 10
  | .ctxLocked => 9
  | .stateDone => 8
  | .sizeZero => 7
  | .msgNull => 6
  | .answered => 5
  | .sized _ => 4
  | .paired _ _ => 3
  | .deleting _ _ => 2
  | .deleted _ _ => 1
  | .returned _ _ => 0

/-- The moves a handler has before it. -/
def HandlerPc.left : HandlerPc → Nat
  | .idle => 8
  | .queueLocked => 7
  | .ctxLocked => 6
  | .doneStored => 5
  | .msgStored => 4
  | .sizeStored => 3
  | .copied => 2
  | .ctxReleased => 1
  | .finished => 0

namespace HandOff

variable {reply : Nat → Datagram} {s : HandOff}

/-- The moves of the handler inside. -/
def handlerLeft (s : HandOff) : Nat :=
  match s.queueOwner with
  | some (.handler h) => (s.handlers h).left
  | _ => 0

/-- The moves left to the requester and to the handler inside. -/
def left (s : HandOff) : Nat := s.waiter.left + s.handlerLeft

/-- What is paid for a move: another datagram makes work for its handler. -/
def paid (m : Move) : Nat := if m.comesIn then 8 else 0

theorem Locks.handlerLeft_eq (locks : s.Locks) {h : Nat}
    (inside : (s.handlers h).inside = true) : s.handlerLeft = (s.handlers h).left := by
  have owner := (locks.queue (.handler h)).mpr inside
  rw [handlerLeft, owner]

theorem left_waiter {t : HandOff} {p q : WaiterPc} (handlers : t.handlers = s.handlers)
    (queueOwner : t.queueOwner = s.queueOwner) (before : s.waiter = p) (after : t.waiter = q)
    (less : q.left < p.left) : t.left + 1 ≤ s.left + 0 := by
  have same : t.handlerLeft = s.handlerLeft := by
    rw [handlerLeft, handlerLeft, handlers, queueOwner]
  rw [left, left, same, before, after]
  omega

theorem Locks.left_handler (locks : s.Locks) {t : HandOff} {h : Nat} {p : HandlerPc}
    (inside : (s.handlers h).inside = true) (waiter : t.waiter = s.waiter)
    (handlers : t.handlers = (s.setHandler h p).handlers)
    (queueOwner : t.queueOwner = s.queueOwner) (less : p.left < (s.handlers h).left) :
    t.left + 1 ≤ s.left + 0 := by
  have owner := (locks.queue (.handler h)).mpr inside
  have after : t.handlerLeft = p.left := by
    simp only [handlerLeft, queueOwner, owner, handlers, setHandler_self]
  rw [left, left, waiter, locks.handlerLeft_eq inside, after]
  omega

/-- Every move leaves one move less, but for what is paid. -/
theorem Locks.left_next (locks : s.Locks) {m : Move} (enabled : s.Enabled m) :
    (s.next reply m).left + 1 ≤ s.left + paid m := by
  cases m with
  | lockAdd =>
      obtain ⟨pc, free⟩ := enabled
      simp [left, handlerLeft, HandOff.next, pc, free, WaiterPc.left]
  | unlockAdd =>
      have pc : s.waiter = .added := enabled
      simp only [left, handlerLeft, HandOff.next, pc, WaiterPc.left]
      omega
  | lockDel =>
      obtain ⟨⟨size, data, pc⟩, free⟩ := enabled
      simp [left, handlerLeft, HandOff.next, pc, free, WaiterPc.left]
  | unlockDel =>
      obtain ⟨size, data, pc⟩ := enabled
      simp only [left, handlerLeft, HandOff.next, pc, WaiterPc.left]
      omega
  | readData =>
      obtain ⟨size, pc⟩ := enabled
      simp only [HandOff.next, pc]
      exact left_waiter rfl rfl pc rfl (by simp [WaiterPc.left])
  | listDel =>
      obtain ⟨size, data, pc⟩ := enabled
      simp only [HandOff.next, pc]
      exact left_waiter rfl rfl pc rfl (by simp [WaiterPc.left])
  | seeDone => exact left_waiter (q := .answered) rfl rfl enabled.1 rfl (by decide)
  | lockCtx => exact left_waiter (q := .ctxLocked) rfl rfl enabled.1 rfl (by decide)
  | listAdd => exact left_waiter (q := .added) rfl rfl enabled rfl (by decide)
  | testNoReply => exact left_waiter (q := .waiting) rfl rfl enabled rfl (by decide)
  | timeOut => exact left_waiter (q := .timedOut) rfl rfl enabled rfl (by decide)
  | putState => exact left_waiter (q := .stateDone) rfl rfl enabled rfl (by decide)
  | putSize => exact left_waiter (q := .sizeZero) rfl rfl enabled rfl (by decide)
  | putMsg => exact left_waiter (q := .msgNull) rfl rfl enabled rfl (by decide)
  | unlockCtx => exact left_waiter (q := .answered) rfl rfl enabled rfl (by decide)
  | readSize =>
      exact left_waiter (q := .sized s.responseSize) rfl rfl enabled rfl (by simp [WaiterPc.left])
  | handlerLock h =>
      obtain ⟨pc, free⟩ := enabled
      have after : (s.next reply (.handlerLock h)).handlerLeft = 7 := by
        simp [handlerLeft, HandOff.next, HandlerPc.left]
      have before : s.handlerLeft = 0 := by rw [handlerLeft, free]
      have same : (s.next reply (.handlerLock h)).waiter = s.waiter := rfl
      simp only [left, after, before, same, paid, Move.comesIn, if_true]
      omega
  | handlerUnlock h =>
      have pc : s.handlers h = .ctxReleased := enabled
      have before := locks.handlerLeft_eq (h := h) (by rw [pc]; rfl)
      rw [pc] at before
      have after : (s.next reply (.handlerUnlock h)).handlerLeft = 0 := rfl
      have same : (s.next reply (.handlerUnlock h)).waiter = s.waiter := rfl
      simp only [left, after, before, same, HandlerPc.left]
      omega
  | handlerMiss h =>
      exact locks.left_handler (p := .ctxReleased) (by rw [enabled.1]; rfl) rfl rfl rfl
        (by rw [enabled.1]; decide)
  | handlerLockCtx h =>
      exact locks.left_handler (p := .ctxLocked) (by rw [enabled.1]; rfl) rfl rfl rfl
        (by rw [enabled.1]; decide)
  | storeDone h =>
      exact locks.left_handler (p := .doneStored) (by rw [enabled]; rfl) rfl rfl rfl
        (by rw [enabled]; decide)
  | storeMsg h allocated =>
      cases allocated with
      | true =>
          exact locks.left_handler (p := .msgStored) (by rw [enabled]; rfl) rfl rfl rfl
            (by rw [enabled]; decide)
      | false =>
          exact locks.left_handler (p := .copied) (by rw [enabled]; rfl) rfl rfl rfl
            (by rw [enabled]; decide)
  | storeSize h =>
      exact locks.left_handler (p := .sizeStored) (by rw [enabled]; rfl) rfl rfl rfl
        (by rw [enabled]; decide)
  | copy h =>
      exact locks.left_handler (p := .copied) (by rw [enabled]; rfl) rfl rfl rfl
        (by rw [enabled]; decide)
  | handlerUnlockCtx h =>
      exact locks.left_handler (p := .ctxReleased) (by rw [enabled]; rfl) rfl rfl rfl
        (by rw [enabled]; decide)

/-- **A request comes back.** However the requester and the handlers take turns, with timeouts,
datagrams that answer it or do not, and allocations that fail: it takes 15 moves at most and 8
more for each datagram that comes in meanwhile; and where nobody can move but for another
datagram to come in, the request has returned. -/
theorem request_comes_back (reply : Nat → Datagram) {moves : List Move}
    (allowed : Simulation.Allowed (fun s m => Enabled s m) (next reply) start moves) :
    moves.length ≤ 15 + 8 * moves.countP Move.comesIn ∧
      ((∀ m, (moves.foldl (next reply) start).Enabled m → m.comesIn = true) →
        ∃ size data, (moves.foldl (next reply) start).waiter = .returned size data) := by
  obtain ⟨locks, bound⟩ := Allowed.bounded (P := Locks) (l := left) (r := paid)
    (fun s m enabled locks => locks.next enabled) (fun s m enabled locks => locks.left_next enabled)
    allowed start_locks
  refine ⟨?_, fun stuck => ?_⟩
  · have first : start.left = 15 := rfl
    have total : (moves.map paid).sum = 8 * moves.countP Move.comesIn := by
      clear bound locks allowed
      induction moves with
      | nil => rfl
      | cons m moves ih =>
          rw [List.map_cons, List.sum_cons, ih, List.countP_cons, paid]
          split <;> omega
    omega
  · rcases locks.progress with ⟨m, own, enabled⟩ | returned
    · rw [stuck m enabled] at own
      cases own
    · exact returned

/-- The wait times out while a handler is at work: the requester waits for the context's mutex
until the handler has stored its reply, and for the queue's until it is gone. -/
def contendedMoves : List Move :=
  [.lockAdd, .listAdd, .unlockAdd, .handlerLock 0, .testNoReply, .timeOut, .handlerLockCtx 0,
    .storeDone 0, .storeMsg 0 true, .storeSize 0, .copy 0, .handlerUnlockCtx 0, .lockCtx, .putState,
    .putSize, .putMsg, .unlockCtx, .readSize, .readData, .handlerUnlock 0, .lockDel, .listDel,
    .unlockDel]

theorem request_comes_back_contended :
    contendedMoves.length ≤ 15 + 8 * 1 ∧
      ∃ size data, (contendedMoves.foldl (next fun _ => exampleDatagram) start).waiter =
        .returned size data := by
  have allowed : Simulation.Allowed (fun s m => Enabled s m) (next fun _ => exampleDatagram) start
      contendedMoves :=
    ⟨⟨rfl, rfl⟩, rfl, rfl, ⟨rfl, rfl⟩, rfl, rfl, ⟨rfl, rfl, rfl⟩, rfl, rfl, rfl, rfl, rfl,
      ⟨rfl, rfl⟩, rfl, rfl, rfl, rfl, rfl, ⟨_, rfl⟩, rfl, ⟨⟨_, _, rfl⟩, rfl⟩, ⟨_, _, rfl⟩,
      ⟨_, _, rfl⟩, trivial⟩
  have waiter : (contendedMoves.foldl (next fun _ => exampleDatagram) start).waiter =
      .returned 0 none := rfl
  have handlers : ∀ h pc,
      (contendedMoves.foldl (next fun _ => exampleDatagram) start).handlers h = pc →
        pc = .finished ∨ pc = .idle := by
    rintro h _ rfl
    cases h with
    | zero => exact .inl rfl
    | succ h => exact .inr rfl
  obtain ⟨few, returns⟩ := request_comes_back (fun _ => exampleDatagram) allowed
  refine ⟨few, returns fun m enabled => ?_⟩
  generalize contendedMoves.foldl (next fun _ => exampleDatagram) start = s
    at enabled waiter handlers
  -- the requester is back, and a handler that is out can only come in
  cases m with
  | handlerLock h => rfl
  | handlerMiss h => rcases handlers h _ enabled.1 with out | out <;> cases out
  | handlerLockCtx h => rcases handlers h _ enabled.1 with out | out <;> cases out
  | storeDone h => rcases handlers h _ enabled with out | out <;> cases out
  | storeMsg h allocated => rcases handlers h _ enabled with out | out <;> cases out
  | storeSize h => rcases handlers h _ enabled with out | out <;> cases out
  | copy h => rcases handlers h _ enabled with out | out <;> cases out
  | handlerUnlockCtx h => rcases handlers h _ enabled with out | out <;> cases out
  | handlerUnlock h => rcases handlers h _ enabled with out | out <;> cases out
  | _ => simp [Enabled, waiter] at enabled

end HandOff

end Teadfs
