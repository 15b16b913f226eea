/-
# Teadfs.Receiver — the client's netlink thread

`CNetlinkInfo::ThreadRcv` runs from the moment the object is made, before there is a socket and
until the object is closed. Each time round it reads `m_skfd` for `poll`, reads it again for
`recvfrom`, and hands what it received to the handler, which is `netlink_rcv_cb_func` and pushes
it to the pool. Another thread meanwhile starts and closes the netlink, one store or system
call at a time. A call that is going on keeps the socket when its descriptor is closed.

`Sound` is what holds along every run: the handler is there before the socket is, and between
the two system calls there is something to receive, or the descriptor is closed. So `recvfrom`
does not wait for what need not come, and once closing has begun the receiver stops, with one
datagram at most still handed on (`closing_stops`).
-/
import Teadfs.PoolTasks
import Teadfs.WireFormat

namespace Teadfs

set_option autoImplicit false

open Traces Relation

/-- A datagram, and what the buffer it will be read into holds. -/
structure Incoming where
  bytes : List UInt8
  memory : Nat → UInt8

/-- The string the receiver makes of it. -/
def Incoming.message (d : Incoming) : List UInt8 := threadRcv d.memory d.bytes

/-- What a system call found under the descriptor it was given. -/
inductive CallTarget where
  /-- It was given -1. -/
  | none
  /-- The descriptor was closed. -/
  | closed
  | socket
  deriving DecidableEq, Repr

/-- Where the receiving thread is. -/
inductive RcvPoint where
  /-- Before `!m_bExist`. -/
  | loopTest
  | readPollFd
  | callPoll (fd : Bool)
  /-- In `poll`. -/
  | poll (target : CallTarget)
  /-- Before the string and the buffer are made. -/
  | allocate
  | readRecvFd
  | callRecv (fd : Bool)
  /-- In `recvfrom`. -/
  | recvfrom (target : CallTarget)
  /-- Before `if (m_handler)`. -/
  | handing (d : Incoming)
  /-- In `AddTask`, behind the push. -/
  | signalling
  | exited

namespace RcvPoint

/-- A system call on the socket is going on. -/
def inCall : RcvPoint → Bool
  | .poll .socket => true
  | .recvfrom .socket => true
  | _ => false

/-- What the receiver has in hand. -/
def hand : RcvPoint → List (List UInt8)
  | .handing d => [d.message]
  | _ => []

/-- Past its test of `m_bExist`, the receiver may still hand something on. -/
def mayHand : RcvPoint → Nat
  | .loopTest => 0
  | .signalling => 0
  | .exited => 0
  | _ => 1

/-- The steps the receiver has still to take when `m_bExist` is set. -/
def toExit : RcvPoint → Nat
  | .readPollFd => 10
  | .callPoll _ => 9
  | .poll _ => 8
  | .allocate => 7
  | .readRecvFd => 6
  | .callRecv _ => 5
  | .recvfrom _ => 4
  | .handing _ => 3
  | .signalling => 2
  | .loopTest => 1
  | .exited => 0

/-- Where the receiver can be before there is a socket. -/
def early : RcvPoint → Bool
  | .loopTest => true
  | .readPollFd => true
  | .callPoll fd => !fd
  | .poll .none => true
  | .exited => true
  | _ => false

/-- From the answer of `poll` until that of `recvfrom` there is something to receive on the
socket, or its descriptor is closed. -/
def Answered (closed ready : Prop) : RcvPoint → Prop
  | .poll .closed => closed
  | .allocate => closed ∨ ready
  | .readRecvFd => closed ∨ ready
  | .callRecv fd => fd = false ∨ closed ∨ ready
  | .recvfrom .socket => ready
  | _ => True

end RcvPoint

/-- Where the other thread is: between its stores and calls in `StartNetlink` and
`CloseNetlink`, or outside. -/
inductive NetlinkMain where
  | outside
  | handlerStored
  | socketStored
  | started
  | existStored
  | fdClosed
  | closed
  deriving DecidableEq, Repr

/-- `StartNetlink` has not made the socket. -/
def NetlinkMain.early : NetlinkMain → Bool
  | .outside => true
  | .handlerStored => true
  | _ => false

inductive SocketState where
  | none
  | made
  | bound
  | gone
  deriving DecidableEq, Repr

/-- `CNetlinkInfo`, its socket and its threads. -/
structure Receiver where
  /-- `m_skfd` is not -1. -/
  skfd : Bool
  bExist : Bool
  /-- `m_handler` is set. -/
  handler : Bool
  point : RcvPoint
  main : NetlinkMain
  /-- The descriptor of the socket is open. -/
  fdOpen : Bool
  socket : SocketState
  /-- The datagrams in the socket. -/
  queue : List Incoming
  /-- A datagram did not fit: the next `recvfrom` says `ENOBUFS`. -/
  overrun : Bool

inductive PollAnswer where
  | error
  | timeout
  | ready
  deriving DecidableEq, Repr

inductive RcvStep where
  /-- `StartNetlink`: `m_handler = handler`. -/
  | storeHandler
  /-- `m_skfd = socket(..)`. -/
  | socket (made : Bool)
  | bind (done : Bool)
  /-- `CloseNetlink`: `m_bExist = true`. -/
  | storeExist
  | close
  /-- `m_skfd = -1`. -/
  | storeFd
  | arrive (d : Incoming)
  | overflow
  /-- `poll` returns. -/
  | poll (answer : PollAnswer)
  /-- `recvfrom` returns. -/
  | recvfrom
  /-- The next access of the receiving thread. -/
  | thread

/-- A step of the receiving thread. -/
def RcvStep.own : RcvStep → Bool
  | .poll _ => true
  | .recvfrom => true
  | .thread => true
  | _ => false

namespace Receiver

/-- The object as its constructor leaves it, its thread started. -/
def start : Receiver where
  skfd := false
  bExist := false
  handler := false
  point := .loopTest
  main := .outside
  fdOpen := false
  socket := .none
  queue := []
  overrun := false

/-- `recvfrom` and `poll` on the socket have something to say. -/
def Ready (r : Receiver) : Prop := r.queue ≠ [] ∨ r.overrun = true

/-- When a step can be taken. `poll` looks its descriptor up each time it looks for events, and
says `POLLNVAL` if that has been closed meanwhile. -/
def Enabled (r : Receiver) : RcvStep → Prop
  | .storeHandler => r.main = .outside
  | .socket _ => r.main = .handlerStored
  | .bind _ => r.main = .socketStored
  | .storeExist => r.main = .outside ∨ r.main = .started
  | .close => r.main = .existStored
  | .storeFd => r.main = .fdClosed
  | .arrive _ => r.socket = .bound
  | .overflow => r.socket = .bound
  | .poll answer =>
      match r.point with
      | .poll target =>
          answer = .ready → target = .closed ∨ target = .socket ∧ (r.Ready ∨ r.fdOpen = false)
      | _ => False
  | .recvfrom =>
      match r.point with
      | .recvfrom target => target = .socket → r.Ready
      | _ => False
  | .thread =>
      match r.point with
      | .poll _ => False
      | .recvfrom _ => False
      | .exited => False
      | _ => True

/-- A socket whose descriptor is closed goes with the last call on it. -/
def release (r : Receiver) : Receiver :=
  if r.fdOpen = false ∧ r.point.inCall = false ∧ (r.socket = .made ∨ r.socket = .bound) then
    { r with
      socket := .gone
      queue := []
      overrun := false }
  else r

/-- What a call finds under the descriptor it is given. -/
def target (r : Receiver) (fd : Bool) : CallTarget :=
  if fd = false then .none else if r.fdOpen then .socket else .closed

/-- The accesses of `ThreadRcv` other than the returns of its system calls. -/
def threadRcv (r : Receiver) : Receiver :=
  match r.point with
  | .loopTest => { r with point := if r.bExist then .exited else .readPollFd }
  | .readPollFd => { r with point := .callPoll r.skfd }
  | .callPoll fd => { r with point := .poll (r.target fd) }
  | .allocate => { r with point := .readRecvFd }
  | .readRecvFd => { r with point := .callRecv r.skfd }
  | .callRecv fd => { r with point := .recvfrom (r.target fd) }
  | .handing _ => { r with point := if r.handler then .signalling else .loopTest }
  | .signalling => { r with point := .loopTest }
  | _ => r

/-- `poll` returns. After an error the thread ends. -/
def pollReturns (r : Receiver) : PollAnswer → Receiver
  | .error => { r with bExist := true, point := .exited }
  | .timeout => { r with point := .loopTest }
  | .ready => { r with point := .allocate }

/-- `recvfrom` returns. An error makes `resize` throw, and the loop goes on. -/
def received (r : Receiver) : Receiver :=
  if r.point.inCall = true ∧ r.overrun = false then
    match r.queue with
    | [] => { r with point := .loopTest }
    | d :: rest => { r with queue := rest, point := .handing d }
  else
    { r with
      point := .loopTest
      overrun := if r.point.inCall = true then false else r.overrun }

def next (r : Receiver) : RcvStep → Receiver
  | .storeHandler => { r with handler := true, main := .handlerStored }
  | .socket true =>
      { r with
        skfd := true
        fdOpen := true
        socket := .made
        main := .socketStored }
  | .socket false => { r with main := .started }
  | .bind done => { r with socket := if done then .bound else r.socket, main := .started }
  | .storeExist => { r with bExist := true, main := .existStored }
  | .close => { r with fdOpen := false, main := .fdClosed }.release
  | .storeFd => { r with skfd := false, main := .closed }
  | .arrive d => { r with queue := r.queue ++ [d] }
  | .overflow => { r with overrun := true }
  | .poll answer => (r.pollReturns answer).release
  | .recvfrom => r.received.release
  | .thread => r.threadRcv

/-- What the receiver does to the pool: `netlink_rcv_cb_func` calls `AddTask`. -/
def calls (r : Receiver) : RcvStep → Option (PoolStep (List UInt8))
  | .thread =>
      match r.point with
      | .handing d => if r.handler then some (.push 0 d.message) else none
      | .signalling => some (.setEvent 0)
      | _ => none
  | _ => none

/-- What holds along every run. Before there is a socket the receiver has no descriptor of it,
and the handler is there before the socket is. -/
structure Sound (r : Receiver) : Prop where
  early : r.main.early = true →
    r.skfd = false ∧ r.fdOpen = false ∧ r.socket = .none ∧ r.point.early = true
  stored : r.main = .handlerStored → r.handler = true
  made : r.main = .socketStored → r.fdOpen = true ∧ r.socket = .made
  handler : r.socket ≠ .none → r.handler = true
  queued : r.queue ≠ [] → r.socket ≠ .none
  hand : r.point.hand ≠ [] → r.handler = true
  answered : r.point.Answered (r.fdOpen = false) r.Ready

/-- What is handed on. -/
def showsHanded (r : Receiver) (step : RcvStep) : Option (List UInt8) :=
  match r.calls step with
  | some (.push _ message) => some message
  | _ => none

end Receiver

/-! ## The receiver -/

theorem RcvPoint.answered_imp {point : RcvPoint} {closed closed' ready ready' : Prop}
    (answered : point.Answered closed ready) (closing : closed → closed')
    (stays : ready → ready') : point.Answered closed' ready' := by
  cases point with
  | poll target =>
      cases target with
      | none => trivial
      | closed => exact closing answered
      | socket => trivial
  | allocate => exact Or.imp closing stays answered
  | readRecvFd => exact Or.imp closing stays answered
  | callRecv fd => exact Or.imp_right (Or.imp closing stays) answered
  | recvfrom target =>
      cases target with
      | none => trivial
      | closed => trivial
      | socket => exact stays answered
  | _ => trivial

/-- Before there is a socket nothing has been answered. -/
theorem RcvPoint.answered_of_early {point : RcvPoint} {closed ready : Prop}
    (early : point.early = true) : point.Answered closed ready := by
  cases point with
  | poll target =>
      cases target with
      | none => trivial
      | closed => cases early
      | socket => trivial
  | allocate => cases early
  | readRecvFd => cases early
  | callRecv fd => cases early
  | recvfrom target => cases early
  | _ => trivial

namespace Receiver

variable {r : Receiver}

theorem start_sound : start.Sound where
  early _ := ⟨rfl, rfl, rfl, rfl⟩
  stored stored := by cases stored
  made made := by cases made
  handler socket := absurd rfl socket
  queued queue := absurd rfl queue
  hand hand := absurd rfl hand
  answered := trivial

theorem release_cases (r : Receiver) : r.release = r ∨
    r.fdOpen = false ∧ r.point.inCall = false ∧ r.socket ≠ .none ∧ r.socket ≠ .gone ∧
      r.release = { r with socket := .gone, queue := [], overrun := false } := by
  unfold release
  split
  · rename_i last
    obtain ⟨closed, outside, socket⟩ := last
    refine .inr ⟨closed, outside, ?_, ?_, rfl⟩ <;>
      rcases socket with made | bound <;> simp [*]
  · exact .inl rfl

/-- The socket goes only when nobody is to receive from it. -/
theorem Sound.release (sound : r.Sound) : r.release.Sound := by
  rcases release_cases r with same | ⟨closed, outside, socket, -, same⟩
  · rw [same]
    exact sound
  · rw [same]
    refine ⟨fun early => absurd (sound.early early).2.2.1 socket, sound.stored, fun made => ?_,
      fun _ => sound.handler socket, fun queue => absurd rfl queue, sound.hand, ?_⟩
    · have isOpen := (sound.made made).1
      rw [closed] at isOpen
      cases isOpen
    · have answered := sound.answered
      show r.point.Answered (r.fdOpen = false) _
      cases at' : r.point with
      | recvfrom target =>
          cases target with
          | none => trivial
          | closed => trivial
          | socket =>
              rw [at'] at outside
              cases outside
      | poll target =>
          cases target with
          | none => trivial
          | closed => exact closed
          | socket => trivial
      | allocate => exact .inl closed
      | readRecvFd => exact .inl closed
      | callRecv fd => exact .inr (.inl closed)
      | _ => trivial

/-- A step of the receiving thread, which may have taken something out of the socket. -/
theorem Sound.move (sound : r.Sound) {bExist : Bool} {point : RcvPoint} {queue : List Incoming}
    {overrun : Bool} (early : r.main.early = true → point.early = true)
    (queued : queue ≠ [] → r.queue ≠ []) (hand : point.hand ≠ [] → r.handler = true)
    (answered : point.Answered (r.fdOpen = false) (queue ≠ [] ∨ overrun = true)) :
    Sound { r with bExist := bExist, point := point, queue := queue, overrun := overrun } where
  early yet :=
    have ⟨skfd, fdOpen, socket, _⟩ := sound.early yet
    ⟨skfd, fdOpen, socket, early yet⟩
  stored := sound.stored
  made := sound.made
  handler := sound.handler
  queued some := sound.queued (queued some)
  hand := hand
  answered := answered

/-- A call that finds the descriptor closed was given a descriptor that is closed. -/
theorem answered_poll (fd : Bool) (ready : Prop) :
    (RcvPoint.poll (r.target fd)).Answered (r.fdOpen = false) ready := by
  unfold target
  cases fd with
  | false => trivial
  | true =>
      cases isOpen : r.fdOpen with
      | false => rfl
      | true => trivial

theorem answered_recvfrom {fd : Bool} {ready : Prop}
    (answered : fd = false ∨ r.fdOpen = false ∨ ready) :
    (RcvPoint.recvfrom (r.target fd)).Answered (r.fdOpen = false) ready := by
  unfold target
  cases fd with
  | false => trivial
  | true =>
      cases isOpen : r.fdOpen with
      | false => trivial
      | true =>
          rcases answered with given | closed | ready
          · cases given
          · rw [isOpen] at closed
            cases closed
          · exact ready

/-- A step of the receiving thread that takes nothing out of the socket. -/
theorem Sound.goto (sound : r.Sound) {point : RcvPoint}
    (early : r.main.early = true → point.early = true) (empty : point.hand = [])
    (answered : point.Answered (r.fdOpen = false) r.Ready) :
    Sound { r with point := point } :=
  sound.move early id (fun hand => absurd empty hand) answered

theorem threadRcv_sound (sound : r.Sound) : r.threadRcv.Sound := by
  have early := fun yet => (sound.early yet).2.2.2
  have answered := sound.answered
  unfold threadRcv
  split <;> rename_i at'
  · by_cases exit : r.bExist = true
    · rw [if_pos exit]
      exact sound.goto (fun _ => rfl) rfl trivial
    · rw [if_neg exit]
      exact sound.goto (fun _ => rfl) rfl trivial
  · refine sound.goto (fun yet => ?_) rfl trivial
    show (!r.skfd) = true
    rw [(sound.early yet).1]
    rfl
  · rename_i fd
    refine sound.goto (fun yet => ?_) rfl (answered_poll fd _)
    have given := early yet
    rw [at'] at given
    cases fd with
    | false => rfl
    | true => cases given
  · rw [at'] at early answered
    exact sound.goto (fun yet => absurd (early yet) (by decide)) rfl answered
  · rw [at'] at early answered
    exact sound.goto (fun yet => absurd (early yet) (by decide)) rfl (.inr answered)
  · rw [at'] at early answered
    exact sound.goto (fun yet => absurd (early yet) Bool.false_ne_true) rfl
      (answered_recvfrom answered)
  · rw [at'] at early
    have late : ∀ point : RcvPoint, r.main.early = true → point.early = true :=
      fun _ yet => absurd (early yet) Bool.false_ne_true
    by_cases handler : r.handler = true
    · rw [if_pos handler]
      exact sound.goto (late _) rfl trivial
    · rw [if_neg handler]
      exact sound.goto (late _) rfl trivial
  · exact sound.goto (fun _ => rfl) rfl trivial
  · exact sound

theorem pollReturns_sound {answer : PollAnswer} (sound : r.Sound)
    (enabled : r.Enabled (.poll answer)) : (r.pollReturns answer).Sound := by
  cases answer with
  | error => exact sound.move (fun _ => rfl) id (fun hand => absurd rfl hand) trivial
  | timeout => exact sound.goto (fun _ => rfl) rfl trivial
  | ready =>
      have early := fun yet => (sound.early yet).2.2.2
      have answered := sound.answered
      cases at' : r.point with
      | poll target =>
          rw [at'] at early answered
          simp only [Enabled, at'] at enabled
          rcases enabled trivial with rfl | ⟨rfl, ready⟩
          · exact sound.goto (fun yet => absurd (early yet) (by decide)) rfl (.inl answered)
          · exact sound.goto (fun yet => absurd (early yet) (by decide)) rfl ready.symm
      | _ => simp only [Enabled, at'] at enabled

theorem received_sound (sound : r.Sound) : r.received.Sound := by
  unfold received
  split
  · rename_i call
    split
    · exact sound.goto (fun _ => rfl) rfl trivial
    · rename_i d rest queue
      have some : r.queue ≠ [] := by
        rw [queue]
        exact List.cons_ne_nil d rest
      have socket := sound.queued some
      exact sound.move (fun yet => absurd (sound.early yet).2.2.1 socket) (fun _ => some)
        (fun _ => sound.handler socket) trivial
  · exact sound.move (fun _ => rfl) id (fun hand => absurd rfl hand) trivial

theorem next_sound {step : RcvStep} (sound : r.Sound) (enabled : r.Enabled step) :
    (r.next step).Sound := by
  cases step with
  | storeHandler =>
      have main : r.main = .outside := enabled
      have early := sound.early (by rw [main]; rfl)
      exact ⟨fun _ => early, fun _ => rfl, fun made => (by cases made), fun _ => rfl,
        sound.queued, fun _ => rfl, sound.answered⟩
  | socket made =>
      have main : r.main = .handlerStored := enabled
      have early := sound.early (by rw [main]; rfl)
      have handler := sound.stored main
      cases made with
      | false =>
          exact ⟨fun yet => (by cases yet), fun stored => (by cases stored),
            fun made => (by cases made), sound.handler, sound.queued, sound.hand, sound.answered⟩
      | true =>
          exact ⟨fun yet => (by cases yet), fun stored => (by cases stored), fun _ => ⟨rfl, rfl⟩,
            fun _ => handler, fun _ made => (by cases made), fun _ => handler,
            RcvPoint.answered_of_early early.2.2.2⟩
  | bind done =>
      have main : r.main = .socketStored := enabled
      have made := (sound.made main).2
      have handler := sound.handler (by rw [made]; decide)
      have socket : (if done then SocketState.bound else r.socket) ≠ .none := by
        rw [made]
        cases done <;> decide
      exact ⟨fun yet => (by cases yet), fun stored => (by cases stored),
        fun made => (by cases made), fun _ => handler, fun _ => socket, fun _ => handler,
        sound.answered⟩
  | storeExist =>
      exact ⟨fun yet => (by cases yet), fun stored => (by cases stored),
        fun made => (by cases made), sound.handler, sound.queued, sound.hand, sound.answered⟩
  | close =>
      refine Sound.release ⟨fun yet => (by cases yet), fun stored => (by cases stored),
        fun made => (by cases made), sound.handler, sound.queued, sound.hand, ?_⟩
      exact RcvPoint.answered_imp sound.answered (fun _ => rfl) id
  | storeFd =>
      exact ⟨fun yet => (by cases yet), fun stored => (by cases stored),
        fun made => (by cases made), sound.handler, sound.queued, sound.hand, sound.answered⟩
  | arrive d =>
      have bound : r.socket = .bound := enabled
      have socket : r.socket ≠ .none := by
        rw [bound]
        decide
      exact ⟨sound.early, sound.stored, sound.made, sound.handler, fun _ => socket, sound.hand,
        RcvPoint.answered_imp sound.answered id fun _ => .inl (List.append_ne_nil_of_right_ne_nil _
          (List.cons_ne_nil d []))⟩
  | overflow =>
      exact ⟨sound.early, sound.stored, sound.made, sound.handler, sound.queued, sound.hand,
        RcvPoint.answered_imp sound.answered id fun _ => .inr rfl⟩
  | poll answer => exact (pollReturns_sound sound enabled).release
  | recvfrom => exact (received_sound sound).release
  | thread => exact threadRcv_sound sound

/-! ### The end of the receiver -/

theorem release_point : r.release.point = r.point := by
  rcases release_cases r with same | ⟨-, -, -, -, same⟩ <;> rw [same]

theorem release_bExist : r.release.bExist = r.bExist := by
  rcases release_cases r with same | ⟨-, -, -, -, same⟩ <;> rw [same]

/-- The receiver does not stand still: `recvfrom` is called where it has an answer. -/
theorem Sound.enabled_own (sound : r.Sound) (runs : r.point ≠ .exited) :
    ∃ step : RcvStep, step.own = true ∧ r.Enabled step := by
  have answered := sound.answered
  cases at' : r.point with
  | poll target => exact ⟨.poll .timeout, rfl, by simp [Enabled, at']⟩
  | recvfrom target =>
      rw [at'] at answered
      refine ⟨.recvfrom, rfl, ?_⟩
      simp only [Enabled, at']
      rintro rfl
      exact answered
  | exited => exact absurd at' runs
  | _ => exact ⟨.thread, rfl, by simp [Enabled, at']⟩

/-- What one step of the receiver, or of another, takes from what is left to do. -/
structure Closer (r t : Receiver) (handed steps : Nat) : Prop where
  closing : t.bExist = true
  hands : handed + t.point.mayHand ≤ r.point.mayHand
  exits : steps + t.point.toExit ≤ r.point.toExit

theorem mayHand_le (point : RcvPoint) : 0 + point.mayHand ≤ 1 := by
  cases point <;> simp [RcvPoint.mayHand]

/-- A step that is not the receiver's leaves it where it is. -/
theorem next_other {step : RcvStep} (other : step.own = false) :
    (r.next step).point = r.point ∧ r.calls step = none ∧
      (r.bExist = true → (r.next step).bExist = true) := by
  cases step with
  | socket made => cases made <;> exact ⟨rfl, rfl, id⟩
  | storeExist => exact ⟨rfl, rfl, fun _ => rfl⟩
  | close => exact ⟨release_point, rfl, fun closing => release_bExist.trans closing⟩
  | poll answer => cases other
  | recvfrom => cases other
  | thread => cases other
  | _ => exact ⟨rfl, rfl, id⟩

theorem pollReturns_closer (closing : r.bExist = true) {answer : PollAnswer}
    (enabled : r.Enabled (.poll answer)) : r.Closer (r.pollReturns answer).release 0 1 := by
  have at' : ∃ target, r.point = .poll target := by
    cases at' : r.point with
    | poll target => exact ⟨target, rfl⟩
    | _ => simp only [Enabled, at'] at enabled
  obtain ⟨target, at'⟩ := at'
  refine ⟨release_bExist.trans ?_, ?_, ?_⟩
  · cases answer with
    | error => rfl
    | timeout => exact closing
    | ready => exact closing
  · rw [at']
    exact mayHand_le _
  · rw [release_point, at']
    cases answer <;> simp [pollReturns, RcvPoint.toExit]

theorem received_point :
    r.received.bExist = r.bExist ∧
      (r.received.point = .loopTest ∨ ∃ d, r.received.point = .handing d) := by
  unfold received
  split
  · split
    · exact ⟨rfl, .inl rfl⟩
    · rename_i d rest _
      exact ⟨rfl, .inr ⟨d, rfl⟩⟩
  · exact ⟨rfl, .inl rfl⟩

theorem received_closer (closing : r.bExist = true) (enabled : r.Enabled .recvfrom) :
    r.Closer r.received.release 0 1 := by
  have at' : ∃ target, r.point = .recvfrom target := by
    cases at' : r.point with
    | recvfrom target => exact ⟨target, rfl⟩
    | _ => simp only [Enabled, at'] at enabled
  obtain ⟨target, at'⟩ := at'
  obtain ⟨same, point⟩ := received_point (r := r)
  refine ⟨release_bExist.trans (same.trans closing), ?_, ?_⟩
  · rw [at']
    exact mayHand_le _
  · rw [release_point, at']
    rcases point with test | ⟨d, hand⟩
    · simp [test, RcvPoint.toExit]
    · simp [hand, RcvPoint.toExit]

theorem threadRcv_closer (closing : r.bExist = true) (enabled : r.Enabled .thread) :
    r.Closer r.threadRcv (r.showsHanded .thread).toList.length 1 := by
  cases at' : r.point with
  | handing d =>
      cases handler : r.handler <;>
        exact ⟨by simp [threadRcv, at', closing],
          by simp [threadRcv, showsHanded, calls, at', handler, RcvPoint.mayHand],
          by simp [threadRcv, at', handler, RcvPoint.toExit]⟩
  | poll target => simp only [Enabled, at'] at enabled
  | recvfrom target => simp only [Enabled, at'] at enabled
  | exited => simp only [Enabled, at'] at enabled
  | _ =>
      exact ⟨by simp [threadRcv, at', closing],
        by simp [threadRcv, showsHanded, calls, at', closing, RcvPoint.mayHand],
        by simp [threadRcv, at', closing, RcvPoint.toExit]⟩

theorem next_closer (closing : r.bExist = true) {step : RcvStep} (enabled : r.Enabled step) :
    r.Closer (r.next step) (r.showsHanded step).toList.length step.own.toNat := by
  cases own : step.own with
  | false =>
      obtain ⟨point, call, still⟩ := next_other (r := r) own
      refine ⟨still closing, ?_, ?_⟩
      · simp [showsHanded, call, point]
      · simp [point]
  | true =>
      cases step with
      | poll answer => exact pollReturns_closer closing enabled
      | recvfrom => exact received_closer closing enabled
      | thread => exact threadRcv_closer closing enabled
      | _ => cases own

theorem run_closer {steps : List RcvStep} (allowed : Simulation.Allowed Enabled next r steps)
    (closing : r.bExist = true) :
    r.Closer (steps.foldl next r) (showing showsHanded next r steps).length
      (steps.countP RcvStep.own) := by
  induction steps generalizing r with
  | nil => exact ⟨closing, by simp [showing], by simp⟩
  | cons step steps ih =>
      have first := next_closer closing allowed.1
      have rest := ih allowed.2 first.closing
      have hands := rest.hands
      have exits := rest.exits
      refine ⟨rest.closing, ?_, ?_⟩
      · have before := first.hands
        simp only [showing, List.length_append, List.foldl_cons]
        omega
      · have before := first.exits
        rw [List.countP_cons]
        cases own : step.own <;> simp [own] at before ⊢ <;> omega

theorem run_sound
    (run : ReflTransGen (fun s t => ∃ step, s.Enabled step ∧ t = s.next step) start r) :
    r.Sound := by
  refine Simulation.invariant (P := Sound) ?_ run start_sound
  rintro r _ ⟨step, enabled, rfl⟩ sound
  exact next_sound sound enabled

/-- **The receiver stops.** From any state of a run in which `m_bExist` is set, the receiver
hands one datagram on at most and takes ten steps at most, whatever arrives and whatever the
other thread does; and it never waits for something that need not come: it has left, or it can
take its next step. -/
theorem closing_stops
    (run : ReflTransGen (fun s t => ∃ step, s.Enabled step ∧ t = s.next step) start r)
    (closing : r.bExist = true) {steps : List RcvStep}
    (allowed : Simulation.Allowed Enabled next r steps) :
    (showing showsHanded next r steps).length ≤ 1 ∧ steps.countP RcvStep.own ≤ 10 ∧
      ((steps.foldl next r).point = .exited ∨
        ∃ step : RcvStep, step.own = true ∧ (steps.foldl next r).Enabled step) := by
  obtain ⟨-, hands, exits⟩ := run_closer allowed closing
  have atMost := mayHand_le r.point
  have ten : r.point.toExit ≤ 10 := by
    cases r.point <;> simp [RcvPoint.toExit]
  refine ⟨by omega, by omega, ?_⟩
  by_cases left : (steps.foldl next r).point = .exited
  · exact .inl left
  · exact .inr ((run_sound (run.trans allowed.run)).enabled_own left)

end Receiver

/-- The netlink is started and a datagram arrives; the receiver has seen that it goes on, and
closing begins. -/
def beginsClosing : List RcvStep :=
  [.storeHandler, .socket true, .bind true, .arrive ⟨[7], fun _ => 0⟩, .thread, .storeExist]

/-- The socket is closed while the receiver is in `recvfrom`. -/
def closedInRecvfrom : List RcvStep :=
  [.thread, .thread, .poll .ready, .thread, .thread, .thread, .close, .recvfrom, .storeFd,
    .thread, .thread, .thread]

theorem closing_stops_closedInRecvfrom :
    (showing Receiver.showsHanded Receiver.next (beginsClosing.foldl Receiver.next .start)
        closedInRecvfrom).length ≤ 1 ∧
      closedInRecvfrom.countP RcvStep.own ≤ 10 := by
  have begins : Simulation.Allowed Receiver.Enabled Receiver.next .start beginsClosing :=
    ⟨rfl, rfl, rfl, rfl, trivial, .inr rfl, trivial⟩
  have ends : Simulation.Allowed Receiver.Enabled Receiver.next
      (beginsClosing.foldl Receiver.next .start) closedInRecvfrom :=
    ⟨trivial, trivial, fun _ => .inr ⟨rfl, .inl (.inl (List.cons_ne_nil _ _))⟩, trivial, trivial,
      trivial, rfl, fun _ => .inl (List.cons_ne_nil _ _), rfl, trivial, trivial, trivial, trivial⟩
  have stops := Receiver.closing_stops begins.run rfl ends
  exact ⟨stops.1, stops.2.1⟩

end Teadfs
