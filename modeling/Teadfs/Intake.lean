/-
# Teadfs.Intake — from the socket to a worker

The receiver and the pool run side by side. `netlink_rcv_cb_func` is the receiver's only call
of the pool: it pushes what it has in hand and sets the event, and it is in no other `AddTask`
meanwhile, so the pool in here takes the steps of a pool (`pool_allowed`) and all that is known
of its runs holds.

Socket, hand and task list are one queue. What arrives goes through in order: it has been popped
by a worker, is in the list, in the receiver's hand or in the socket, or was still in the
socket when that was closed (`arrivals_in_order`).
-/
import Teadfs.PoolTasks
import Teadfs.Receiver

namespace Teadfs

set_option autoImplicit false

open Traces

/-- The client's intake. -/
structure Intake where
  rcv : Receiver
  pool : ThreadPool (List UInt8)

inductive IntakeStep where
  | rcv (step : RcvStep)
  | pool (step : PoolStep (List UInt8))

/-- A step of the pool's own threads. -/
def PoolStep.own {τ : Type} : PoolStep τ → Bool
  | .push _ _ => false
  | .setEvent _ => false
  | _ => true

def RcvStep.arrives : RcvStep → Option (QueueAct (List UInt8))
  | .arrive d => some (.push d.message)
  | _ => none

namespace Intake

def start : Intake := ⟨.start, .start _⟩

def Enabled (s : Intake) : IntakeStep → Prop
  | .rcv step => s.rcv.Enabled step
  | .pool step => step.own = true ∧ s.pool.Enabled step

/-- The pool's part in a step. -/
def poolStep (s : Intake) : IntakeStep → Option (PoolStep (List UInt8))
  | .rcv step => s.rcv.calls step
  | .pool step => some step

def next (s : Intake) (step : IntakeStep) : Intake where
  rcv := match step with
    | .rcv step => s.rcv.next step
    | .pool _ => s.rcv
  pool := (s.poolStep step).toList.foldl ThreadPool.next s.pool

/-- What arrives at the socket, and what a worker pops. -/
def shows (s : Intake) : IntakeStep → Option (QueueAct (List UInt8))
  | .rcv step => step.arrives
  | .pool step => s.pool.showsTasks step

end Intake

/-- What the receiver has in hand and what is in the socket. -/
def Receiver.content (r : Receiver) : List (List UInt8) :=
  r.point.hand ++ r.queue.map Incoming.message

def Receiver.isOpen (r : Receiver) : Bool := decide (r.socket ≠ .gone)

/-- The receiver is in `AddTask`. -/
def RcvPoint.adding : RcvPoint → List Nat
  | .signalling => [0]
  | _ => []

/-- The pool knows who is in `AddTask`. -/
structure Intake.Sound (s : Intake) : Prop where
  rcv : s.rcv.Sound
  adding : s.pool.adding = s.rcv.point.adding
  objects : s.pool.Objects

namespace Receiver

variable {r : Receiver}

/-- The receiver pushes what it has in hand, and sets the event behind that. -/
theorem calls_cases {step : RcvStep} {call : PoolStep (List UInt8)}
    (calls : r.calls step = some call) :
    step = .thread ∧
      ((∃ d, r.point = .handing d ∧ call = .push 0 d.message ∧
          r.threadRcv = { r with point := .signalling }) ∨
        r.point = .signalling ∧ call = .setEvent 0 ∧
          r.threadRcv = { r with point := .loopTest }) := by
  cases step with
  | thread =>
      refine ⟨rfl, ?_⟩
      cases at' : r.point with
      | handing d =>
          cases handler : r.handler with
          | false => simp [Receiver.calls, at', handler] at calls
          | true =>
              simp only [Receiver.calls, at', handler, if_true, Option.some.injEq] at calls
              exact .inl ⟨d, rfl, calls.symm, by simp [threadRcv, at', handler]⟩
      | signalling =>
          simp only [Receiver.calls, at', Option.some.injEq] at calls
          exact .inr ⟨rfl, calls.symm, by simp [threadRcv, at']⟩
      | _ => simp [Receiver.calls, at'] at calls
  | _ => cases calls

/-- What is in the socket is lost with it. -/
theorem release_content (r : Receiver) (tasks : List (List UInt8)) :
    Run closable (tasks ++ r.content, r.isOpen) []
      (tasks ++ r.release.content, r.release.isOpen) := by
  rcases release_cases r with same | ⟨-, -, -, notGone, same⟩
  · rw [same]
    exact .refl
  · rw [same]
    have isOpen : r.isOpen = true := decide_eq_true notGone
    have split : tasks ++ r.content = (tasks ++ r.point.hand) ++ r.queue.map Incoming.message :=
      (List.append_assoc _ _ _).symm
    rw [isOpen, split]
    have left : tasks ++ (r.point.hand ++ []) = tasks ++ r.point.hand := by
      rw [List.append_nil]
    show Run closable _ [] (tasks ++ (r.point.hand ++ []), false)
    rw [left]
    exact .silent (.close _ _)

theorem pollReturns_content {answer : PollAnswer} (enabled : r.Enabled (.poll answer)) :
    (r.pollReturns answer).content = r.content ∧ (r.pollReturns answer).isOpen = r.isOpen ∧
      r.point.adding = [] ∧ (r.pollReturns answer).point.adding = [] := by
  cases at' : r.point with
  | poll target =>
      cases answer <;>
        exact ⟨by simp [pollReturns, content, at', RcvPoint.hand], rfl, rfl, rfl⟩
  | _ => simp only [Enabled, at'] at enabled

theorem received_content (enabled : r.Enabled .recvfrom) :
    r.received.content = r.content ∧ r.received.isOpen = r.isOpen ∧
      r.point.adding = [] ∧ r.received.point.adding = [] := by
  cases at' : r.point with
  | recvfrom target =>
      unfold received
      split
      · split
        · exact ⟨by simp [content, at', RcvPoint.hand], rfl, rfl, rfl⟩
        · rename_i queue
          exact ⟨by simp [content, at', queue, RcvPoint.hand], rfl, rfl, rfl⟩
      · exact ⟨by simp [content, at', RcvPoint.hand], rfl, rfl, rfl⟩
  | _ => simp only [Enabled, at'] at enabled

theorem threadRcv_content (sound : r.Sound) (enabled : r.Enabled .thread)
    (calls : r.calls .thread = none) :
    r.threadRcv.content = r.content ∧ r.threadRcv.isOpen = r.isOpen ∧
      r.threadRcv.point.adding = r.point.adding := by
  have handler := sound.hand
  cases at' : r.point with
  | poll target => simp only [Enabled, at'] at enabled
  | recvfrom target => simp only [Enabled, at'] at enabled
  | handing d =>
      rw [at'] at handler
      simp [Receiver.calls, at', handler (List.cons_ne_nil _ _)] at calls
  | signalling => simp [Receiver.calls, at'] at calls
  | loopTest =>
      cases exit : r.bExist <;>
        simp [threadRcv, content, isOpen, at', exit, RcvPoint.hand, RcvPoint.adding]
  | _ => simp [threadRcv, content, isOpen, at', RcvPoint.hand, RcvPoint.adding]

/-- A step without a call, seen as one of the queue that begins behind what has been pushed. -/
theorem next_content (sound : r.Sound) {step : RcvStep} (enabled : r.Enabled step)
    (calls : r.calls step = none) (tasks : List (List UInt8)) :
    (r.next step).point.adding = r.point.adding ∧
      Run closable (tasks ++ r.content, r.isOpen) step.arrives.toList
        (tasks ++ (r.next step).content, (r.next step).isOpen) := by
  cases step with
  | socket made =>
      cases made with
      | false => exact ⟨rfl, .refl⟩
      | true =>
          have main : r.main = .handlerStored := enabled
          have early := sound.early (by rw [main]; rfl)
          have isOpen : r.isOpen = true := by
            rw [Receiver.isOpen, early.2.2.1]
            rfl
          rw [isOpen]
          exact ⟨rfl, .refl⟩
  | bind done =>
      have made := (sound.made enabled).2
      have isOpen : r.isOpen = true := by
        rw [Receiver.isOpen, made]
        rfl
      have still : (r.next (.bind done)).isOpen = true := by
        cases done <;> simp [next, Receiver.isOpen, made]
      refine ⟨rfl, ?_⟩
      rw [isOpen, still]
      exact .refl
  | close =>
      exact ⟨by rw [next, release_point],
        release_content { r with fdOpen := false, main := .fdClosed } tasks⟩
  | arrive d =>
      have bound : r.socket = .bound := enabled
      have isOpen : r.isOpen = true := by
        rw [Receiver.isOpen, bound]
        rfl
      have behind :
          tasks ++ (r.next (.arrive d)).content = (tasks ++ r.content) ++ [d.message] := by
        simp [next, content]
      have still : (r.next (.arrive d)).isOpen = true := isOpen
      refine ⟨rfl, ?_⟩
      rw [behind, still, isOpen]
      exact .shows (.push _ _)
  | poll answer =>
      obtain ⟨same, isOpen, before, after⟩ := pollReturns_content enabled
      refine ⟨?_, ?_⟩
      · rw [next, release_point, before, after]
      · rw [← same, ← isOpen]
        exact release_content _ tasks
  | recvfrom =>
      obtain ⟨same, isOpen, before, after⟩ := received_content enabled
      refine ⟨?_, ?_⟩
      · rw [next, release_point, before, after]
      · rw [← same, ← isOpen]
        exact release_content _ tasks
  | thread =>
      obtain ⟨same, isOpen, still⟩ := threadRcv_content sound enabled calls
      refine ⟨still, ?_⟩
      show Run closable _ [] (tasks ++ r.threadRcv.content, r.threadRcv.isOpen)
      rw [same, isOpen]
      exact .refl
  | _ => exact ⟨rfl, .refl⟩

end Receiver

namespace ThreadPool

variable {τ : Type} {s : ThreadPool τ} {step : PoolStep τ}

/-- The pool's own threads are not in `AddTask`. -/
theorem own_adding (own : step.own = true) : (s.next step).adding = s.adding := by
  cases step with
  | push c task => cases own
  | setEvent c => cases own
  | look => exact look_adding
  | wakeup =>
      simp only [next]
      split <;> rfl
  | _ => rfl

/-- They push nothing. -/
theorem own_pushes (own : step.own = true) : pushed (s.showsTasks step).toList = [] := by
  cases step with
  | push c task => cases own
  | setEvent c => cases own
  | work w =>
      simp only [showsTasks]
      split
      · cases s.tasks <;> rfl
      · rfl
  | _ => rfl

/-- What they take is the first task. -/
theorem own_takes (own : step.own = true) (behind : List τ) (isOpen : Bool) :
    Run closable (s.tasks ++ behind, isOpen) (s.showsTasks step).toList
      ((s.next step).tasks ++ behind, isOpen) := by
  have same := fifo_conserves (next_fifo (s := s) step)
  rw [own_pushes own, List.append_nil] at same
  rw [same]
  cases act : s.showsTasks step with
  | none => exact .refl
  | some act' =>
      cases act' with
      | push task =>
          have none := own_pushes (s := s) own
          rw [act] at none
          cases none
      | take task => exact .shows (.take _ task isOpen)

end ThreadPool

namespace Intake

variable {s : Intake} {steps : List IntakeStep}

theorem start_sound : start.Sound where
  rcv := Receiver.start_sound
  adding := rfl
  objects := ThreadPool.start_objects

/-- The receiver calls `AddTask` as the pool expects it. -/
theorem poolStep_enabled (sound : s.Sound) {step : IntakeStep} (enabled : s.Enabled step)
    {call : PoolStep (List UInt8)} (calls : s.poolStep step = some call) :
    s.pool.Enabled call := by
  cases step with
  | rcv step =>
      have adding := sound.adding
      rcases (Receiver.calls_cases calls).2 with ⟨d, at', rfl, -⟩ | ⟨at', rfl, -⟩
      · rw [at'] at adding
        show 0 ∉ s.pool.adding
        rw [adding]
        exact List.not_mem_nil
      · rw [at'] at adding
        show 0 ∈ s.pool.adding
        rw [adding]
        exact .head _
  | pool step =>
      obtain rfl := Option.some.inj calls
      exact enabled.2

theorem next_sound (sound : s.Sound) {step : IntakeStep} (enabled : s.Enabled step) :
    (s.next step).Sound := by
  have objects : (s.next step).pool.Objects := by
    show ((s.poolStep step).toList.foldl ThreadPool.next s.pool).Objects
    cases call : s.poolStep step with
    | none => exact sound.objects
    | some call' =>
        exact ThreadPool.next_objects sound.objects (poolStep_enabled sound enabled call)
  cases step with
  | rcv step =>
      have rcv := Receiver.next_sound sound.rcv enabled
      refine ⟨rcv, ?_, objects⟩
      show ((s.rcv.calls step).toList.foldl ThreadPool.next s.pool).adding = _
      cases calls : s.rcv.calls step with
      | none =>
          exact sound.adding.trans (Receiver.next_content sound.rcv enabled calls []).1.symm
      | some call =>
          have adding := sound.adding
          obtain ⟨rfl, ⟨d, at', rfl, next⟩ | ⟨at', rfl, next⟩⟩ := Receiver.calls_cases calls
          · rw [at'] at adding
            show 0 :: s.pool.adding = s.rcv.threadRcv.point.adding
            rw [adding, next]
            rfl
          · rw [at'] at adding
            show s.pool.adding.erase 0 = s.rcv.threadRcv.point.adding
            rw [adding, next]
            rfl
  | pool step => exact ⟨sound.rcv, (ThreadPool.own_adding enabled.1).trans sound.adding, objects⟩

/-- What has come in and has not been popped. -/
def traffic (s : Intake) : List (List UInt8) := s.pool.tasks ++ s.rcv.content

theorem next_closable (sound : s.Sound) {step : IntakeStep} (enabled : s.Enabled step) :
    Run closable (s.traffic, s.rcv.isOpen) (s.shows step).toList
      ((s.next step).traffic, (s.next step).rcv.isOpen) := by
  cases step with
  | rcv step =>
      show Run closable _ step.arrives.toList
        (((s.rcv.calls step).toList.foldl ThreadPool.next s.pool).tasks ++
          (s.rcv.next step).content, (s.rcv.next step).isOpen)
      cases calls : s.rcv.calls step with
      | none => exact (Receiver.next_content sound.rcv enabled calls s.pool.tasks).2
      | some call =>
          obtain ⟨rfl, ⟨d, at', rfl, next⟩ | ⟨at', rfl, next⟩⟩ := Receiver.calls_cases calls
          · show Run closable (s.pool.tasks ++ (s.rcv.point.hand ++ _), _) []
              ((s.pool.tasks ++ [d.message]) ++ s.rcv.threadRcv.content, s.rcv.threadRcv.isOpen)
            rw [at', next, List.append_assoc]
            exact .refl
          · show Run closable (s.pool.tasks ++ (s.rcv.point.hand ++ _), _) []
              (s.pool.tasks ++ s.rcv.threadRcv.content, s.rcv.threadRcv.isOpen)
            rw [at', next]
            exact .refl
  | pool step => exact ThreadPool.own_takes enabled.1 s.rcv.content s.rcv.isOpen

/-- Socket, receiver and pool together are a queue that may be closed. -/
theorem run_closable (allowed : Simulation.Allowed Enabled next start steps) :
    Run closable ([], true) (showing shows next start steps)
      ((steps.foldl next start).traffic, (steps.foldl next start).rcv.isOpen) := by
  have answer : ∀ ⦃s : Intake⦄ ⦃act t q⦄, driven Enabled shows next s act t →
      s.Sound ∧ q = (s.traffic, s.rcv.isOpen) →
      ∃ q', Run closable q act.toList q' ∧ t.Sound ∧ q' = (t.traffic, t.rcv.isOpen) := by
    rintro s _ _ _ ⟨step, enabled, rfl, rfl⟩ ⟨sound, rfl⟩
    exact ⟨_, next_closable sound enabled, next_sound sound enabled, rfl⟩
  obtain ⟨_, run, -, rfl⟩ := (Run.driven Enabled shows next allowed).simulate
    (R := fun s q => s.Sound ∧ q = (s.traffic, s.rcv.isOpen)) answer ⟨start_sound, rfl⟩
  exact run

/-- The pool in it runs as a pool. -/
theorem pool_allowed (allowed : Simulation.Allowed Enabled next start steps) :
    Simulation.Allowed ThreadPool.Enabled ThreadPool.next (.start _)
        (showing poolStep next start steps) ∧
      (steps.foldl next start).pool =
        (showing poolStep next start steps).foldl ThreadPool.next (.start _) :=
  allowed_part Enabled poolStep next (P := Sound)
    (fun _ _ enabled sound => next_sound sound enabled)
    (fun _ _ _ enabled sound calls => poolStep_enabled sound enabled calls) (fun _ _ => rfl)
    allowed start_sound

/-- **What arrives goes through in order, and each datagram is handled once.** In any run of
the receiver, the thread that starts and closes the netlink, and the pool: what has arrived is
what the workers have popped, then what is in the pool's list, in the receiver's hand and in
the socket, each once and in the order of arrival; what is missing was at the end, in the socket
when it was closed. A worker has called the handler on the messages it popped, each once and in
order, except the one it has in hand. -/
theorem arrivals_in_order (allowed : Simulation.Allowed Enabled next start steps) :
    (∃ lost, pushed (showing shows next start steps) =
        taken (showing shows next start steps) ++ (steps.foldl next start).traffic ++ lost ∧
      ((steps.foldl next start).rcv.socket ≠ .gone → lost = [])) ∧
      ∀ w, pushed (showing (ThreadPool.showsWork w) ThreadPool.next (.start _)
            (showing poolStep next start steps)) =
        taken (showing (ThreadPool.showsWork w) ThreadPool.next (.start _)
            (showing poolStep next start steps)) ++
          ((steps.foldl next start).pool.workers w).inHand := by
  obtain ⟨lost, same, none⟩ := closable_run (run_closable allowed)
  obtain ⟨calls, pool⟩ := pool_allowed allowed
  refine ⟨⟨lost, same, fun notGone => none (decide_eq_true notGone)⟩, fun w => ?_⟩
  rw [pool]
  exact fifo_run (ThreadPool.run_hand ThreadPool.start_objects calls w)

end Intake

/-- A datagram of one byte. -/
def oneByte (byte : UInt8) : Incoming := ⟨[byte], fun _ => 0⟩

/-- Two datagrams arrive. A worker pops the first, and the second is in the socket when that is
closed. -/
def secondLost : List IntakeStep :=
  [.rcv .storeHandler, .rcv (.socket true), .rcv (.bind true), .rcv (.arrive (oneByte 7)),
    .rcv (.arrive (oneByte 8)), .rcv .thread, .rcv .thread, .rcv .thread,
    .rcv (.poll .ready), .rcv .thread, .rcv .thread, .rcv .thread, .rcv .recvfrom, .rcv .thread,
    .rcv .thread, .pool .dispatch, .pool .look, .pool .wakeup, .pool (.work 0), .pool (.work 0),
    .pool (.work 0), .rcv .storeExist, .rcv .close, .rcv .storeFd]

theorem arrivals_in_order_secondLost :
    (∃ lost, pushed (showing Intake.shows Intake.next .start secondLost) =
        taken (showing Intake.shows Intake.next .start secondLost) ++
          (secondLost.foldl Intake.next .start).traffic ++ lost ∧
      ((secondLost.foldl Intake.next .start).rcv.socket ≠ .gone → lost = [])) ∧
      pushed (showing (ThreadPool.showsWork 0) ThreadPool.next (.start _)
          (showing Intake.poolStep Intake.next .start secondLost)) =
        taken (showing (ThreadPool.showsWork 0) ThreadPool.next (.start _)
          (showing Intake.poolStep Intake.next .start secondLost)) ++ [(oneByte 7).message] := by
  have some : ∀ (d : Incoming) (rest : List Incoming), d :: rest ≠ [] := List.cons_ne_nil
  have allowed : Simulation.Allowed Intake.Enabled Intake.next .start secondLost :=
    ⟨rfl, rfl, rfl, rfl, rfl, trivial, trivial, trivial, fun _ => .inr ⟨rfl, .inl (.inl (some _ _))⟩,
      trivial, trivial, trivial, fun _ => .inl (some _ _), trivial, trivial, ⟨rfl, rfl, rfl⟩,
      ⟨rfl, rfl⟩, ⟨rfl, rfl⟩, ⟨rfl, Nat.one_pos, by decide, fun wait => (by cases wait)⟩,
      ⟨rfl, Nat.one_pos, by decide, fun wait => (by cases wait)⟩,
      ⟨rfl, Nat.one_pos, by decide, fun wait => (by cases wait)⟩, .inr rfl, rfl, rfl, trivial⟩
  obtain ⟨order, hands⟩ := Intake.arrivals_in_order allowed
  exact ⟨order, hands 0⟩

end Teadfs
