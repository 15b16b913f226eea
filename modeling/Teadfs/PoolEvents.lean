/-
# Teadfs.PoolEvents — the pool over the events it is built with

`Teadfs.ThreadPool` takes an event for a flag: `SetEvent` sets it and a wait takes it or times
out, each in one step. Here the pool calls `WaitForEvent` and `SetEvent` and they return, and in
between an event does what it does. `ThreadPool.withEvents` is the pool with any kind of event:
with those of `pevents.cpp`, their mutexes and condition variables, or with flags that are
called.

`Tied` is what holds along every run over flags: each call that is going on is made by the
thread whose call it is, at the place in the pool's code where it makes it (`Tied.next`).
-/
import Teadfs.Events
import Teadfs.Lib.Components
import Teadfs.PoolTasks

namespace Teadfs

set_option autoImplicit false

open Traces

/-- `TIMEOUT_INTERVAL`. -/
def timeoutInterval : UInt64 := 5000

/-- What the pool is seen to do. -/
inductive PoolAct (τ : Type) where
  | pushed (c : Nat) (task : τ)
  | took (w : Nat) (task : τ)
  | handled (w : Nat) (task : τ)
  | left (w : Nat)

/-- The events: the pool's `m_event`, and one for each worker. -/
inductive PoolEvent where
  | pool
  | worker (w : Nat)
  deriving DecidableEq

/-- A step that is none of an event. -/
def PoolStep.apart {τ : Type} (s : ThreadPool τ) : PoolStep τ → Prop
  | .push _ _ => True
  | .look => True
  | .work w => (s.workers w).point ≠ .wait
  | _ => False

namespace ThreadPool

variable {τ : Type}

def shows (s : ThreadPool τ) : PoolStep τ → Option (PoolAct τ)
  | .push c task => some (.pushed c task)
  | .work w =>
      match (s.workers w).point with
      | .pop => s.tasks.head?.map (.took w)
      | .handling => (s.workers w).ptrTask.map (.handled w)
      | .exiting => some (.left w)
      | _ => none
  | _ => none

/-- The pool whose events are flags. -/
def machine : Machine (ThreadPool τ) (PoolAct τ) := driven Enabled shows next

/-- Who makes which call on an event. On the pool's, 0 is the dispatcher and `c + 1` the thread
`c` in `AddTask`, which counts as adding until `SetEvent` returns; on a worker's, 0 is the
worker and 1 the dispatcher in `Wakeup`. -/
def Calls (s : ThreadPool τ) : PoolEvent → Nat → EventCall → Prop
  | .pool, 0, op => s.dispatch = .waiting ∧ op = .wait timeoutInterval
  | .pool, c + 1, op => c ∈ s.adding ∧ op = .set
  | .worker w, 0, op => (s.workers w).point = .wait ∧ op = .wait timeoutInterval
  | .worker w, 1, op => s.dispatch = .wake w ∧ op = .set
  | .worker _, _ + 2, _ => False

/-- The caller goes on, the call having returned `rc`. -/
def returned (s : ThreadPool τ) (rc : Int) : PoolEvent → Nat → ThreadPool τ
  | .pool, 0 => if rc = waitTimeout then s else { s with dispatch := .scan s.pool none }
  | .pool, c + 1 => { s with adding := s.adding.erase c }
  | .worker w, 0 =>
      s.setWorker w
        { s.workers w with point := if rc = waitTimeout then .timedOut else .loopTest }
  | .worker _, _ + 1 => { s with dispatch := .waiting }

/-- The calls of the pool on its events. -/
inductive Link : ThreadPool τ → PoolEvent → EventAct → ThreadPool τ → Prop where
  | call {s : ThreadPool τ} {i : PoolEvent} {t : Nat} {op : EventCall} (calls : s.Calls i t op) :
      Link s i (.call t op) s
  | ret {s : ThreadPool τ} {i : PoolEvent} {t : Nat} {op : EventCall} (rc : Int)
      (calls : s.Calls i t op) : Link s i (.ret t op rc) (s.returned rc i t)

/-- The pool without its events. The flags in its state are not looked at. -/
def client : Machine (ThreadPool τ) (PoolAct τ) :=
  driven (fun s step => step.apart s ∧ s.Enabled step) shows next

/-- The pool with the events `event`. -/
def withEvents {ε : Type} (event : Machine ε EventAct) :
    Machine (ThreadPool τ × (PoolEvent → ε)) (PoolAct τ) :=
  composed client Link event

end ThreadPool

/-- The call that is going on. -/
def CallPhase.op : CallPhase → Option EventCall
  | .idle => none
  | .pending op _ => some op
  | .done op _ => some op

namespace AtomicEvent

variable {a b : AtomicEvent}

theorem op_goto {t : Nat} {phase : CallPhase} (same : phase.op = (a.phase t).op) (u : Nat) :
    ((a.goto t phase).phase u).op = (a.phase u).op := by
  by_cases here : u = t
  · subst here
    rw [goto_phase_self, same]
  · rw [goto_phase_of_ne here]

/-- A step that is not seen begins and ends no call. -/
theorem silent_op (step : machine a none b) (u : Nat) : (b.phase u).op = (a.phase u).op := by
  cases step with
  | set pending => exact op_goto (by rw [pending]; rfl) u
  | reset pending => exact op_goto (by rw [pending]; rfl) u
  | take pending => exact op_goto (by rw [pending]; rfl) u
  | sawUnset pending => exact op_goto (by rw [pending]; rfl) u
  | timeout pending => exact op_goto (by rw [pending]; rfl) u

theorem step_autoReset {act : Option EventAct} (step : machine a act b) :
    b.autoReset = a.autoReset := by
  cases step <;> rfl

/-- Nothing but `SetEvent` sets it. -/
theorem step_unset {act : Option EventAct} (step : machine a act b) (unset : a.set = false)
    (nobody : ∀ t, (a.phase t).op ≠ some .set) : b.set = false := by
  cases step with
  | call => exact unset
  | set pending => exact absurd (by rw [pending]; rfl) (nobody _)
  | reset => rfl
  | take pending isSet =>
      rw [unset] at isSet
      cases isSet
  | sawUnset => exact unset
  | timeout => exact unset
  | ret => exact unset

end AtomicEvent

/-! ## What holds of the pool and its flags -/

namespace ThreadPool

variable {τ : Type}

/-- One thread has come further on one event. -/
structure Moved (events events' : PoolEvent → AtomicEvent) (k : PoolEvent) (t : Nat)
    (phase : CallPhase) : Prop where
  here : (events' k).phase t = phase
  others : ∀ j u, ¬ (j = k ∧ u = t) → (events' j).phase u = (events j).phase u
  sets : ∀ j, j ≠ k → (events' j).set = (events j).set

theorem moved_goto (events : PoolEvent → AtomicEvent) (k : PoolEvent) (t : Nat)
    (phase : CallPhase) (b : AtomicEvent) (phases : b.phase = ((events k).goto t phase).phase) :
    Moved events (Function.update events k b) k t phase where
  here := by
    rw [Function.update_self, phases, AtomicEvent.goto_phase_self]
  others j u other := by
    by_cases here : j = k
    · subst here
      rw [Function.update_self, phases]
      exact AtomicEvent.goto_phase_of_ne fun same => other ⟨rfl, same⟩
    · rw [Function.update_of_ne here]
  sets j other := by rw [Function.update_of_ne other]

/-- Calls are made by who makes them, and only workers that were made are woken. -/
structure Tied (s : ThreadPool τ) (events : PoolEvent → AtomicEvent) : Prop where
  auto : ∀ i, (events i).autoReset = true
  calls : ∀ i t op, ((events i).phase t).op = some op → s.Calls i t op
  adding : s.adding.Nodup
  objects : s.Objects
  unset : ∀ w, s.created ≤ w → (events (.worker w)).set = false

variable {s : ThreadPool τ} {i j : PoolEvent} {t u : Nat} {op op' : EventCall}

/-- A worker that waits was made. -/
theorem Objects.made_of_waits {w : Nat} (objects : s.Objects)
    (waits : (s.workers w).point = .wait) : w < s.created := by
  refine Nat.lt_of_not_le fun unmade => ?_
  rw [(objects.unmade w unmade).1] at waits
  cases waits

/-- The dispatcher's search changes no worker that was made. -/
theorem look_worker {w : Nat} (made : w < s.created) : s.look.workers w = s.workers w := by
  unfold look
  split
  · split <;> rfl
  · rfl
  · rfl
  · exact setWorker_of_ne s (Nat.ne_of_lt made) .create
  · rfl

/-- A call that returns ends no other. -/
theorem Calls.returned (mine : s.Calls i t op) (rc : Int) (theirs : s.Calls j u op')
    (other : ¬ (j = i ∧ u = t)) : (s.returned rc i t).Calls j u op' := by
  match i, t, mine with
  | .pool, 0, mine =>
      show (if rc = waitTimeout then s else { s with dispatch := .scan s.pool none }).Calls j u op'
      split
      · exact theirs
      · match j, u, theirs with
        | .pool, 0, _ => exact absurd ⟨rfl, rfl⟩ other
        | .pool, d + 1, theirs => exact theirs
        | .worker v, 0, theirs => exact theirs
        | .worker v, 1, theirs =>
            have same := mine.1.symm.trans theirs.1
            cases same
  | .pool, c + 1, mine =>
      match j, u, theirs with
      | .pool, 0, theirs => exact theirs
      | .pool, d + 1, theirs =>
          have distinct : d ≠ c := fun same => other ⟨rfl, congrArg Nat.succ same⟩
          exact ⟨(List.mem_erase_of_ne distinct).mpr theirs.1, theirs.2⟩
      | .worker v, 0, theirs => exact theirs
      | .worker v, 1, theirs => exact theirs
  | .worker w, 0, mine =>
      match j, u, theirs with
      | .pool, 0, theirs => exact theirs
      | .pool, d + 1, theirs => exact theirs
      | .worker v, 0, theirs =>
          have distinct : v ≠ w := fun same => other ⟨congrArg PoolEvent.worker same, rfl⟩
          refine ⟨?_, theirs.2⟩
          show ((s.setWorker w _).workers v).point = .wait
          rw [setWorker_of_ne s distinct]
          exact theirs.1
      | .worker v, 1, theirs => exact theirs
  | .worker w, 1, mine =>
      match j, u, theirs with
      | .pool, 0, theirs =>
          have same := theirs.1.symm.trans mine.1
          cases same
      | .pool, d + 1, theirs => exact theirs
      | .worker v, 0, theirs => exact theirs
      | .worker v, 1, theirs =>
          obtain rfl : v = w := by
            have same := theirs.1.symm.trans mine.1
            injection same
          exact absurd ⟨rfl, rfl⟩ other

theorem returned_objects (objects : s.Objects) (calls : s.Calls i t op) (rc : Int) :
    (s.returned rc i t).Objects := by
  match i, t, calls with
  | .pool, 0, calls =>
      show (if rc = waitTimeout then s else { s with dispatch := .scan s.pool none }).Objects
      split
      · exact objects
      · have all : inHand (.scan s.pool none) = s.pool := List.append_nil _
        refine objects.reach ?_ fun v held => ?_
        · rw [all]
          exact objects.nodup
        · rwa [all] at held
  | .pool, c + 1, _ =>
      exact ⟨objects.unmade, objects.nodup, objects.made, objects.hand, objects.pooled,
        objects.exit, objects.dropped⟩
  | .worker w, 0, calls =>
      have waits : (s.workers w).point = .wait := calls.1
      refine objects.setWorker s.tasks (objects.made_of_waits waits) (fun told => ?_) fun left => ?_
      · have left := objects.exit w told
        rw [waits] at left
        cases left
      · rw [waits] at left
        cases left
  | .worker w, 1, _ => exact objects.reach List.nodup_nil fun v held => by cases held

/-- A step that is none of an event ends no call. -/
theorem Calls.apart {step : PoolStep τ} (objects : s.Objects) (apart : step.apart s)
    (enabled : s.Enabled step) (calls : s.Calls i t op) : (s.next step).Calls i t op := by
  cases step with
  | push c task =>
      match i, t, calls with
      | .pool, 0, calls => exact calls
      | .pool, d + 1, calls => exact ⟨List.mem_cons_of_mem c calls.1, calls.2⟩
      | .worker w, 0, calls => exact calls
      | .worker w, 1, calls => exact calls
  | look =>
      have looking : s.dispatch.looking = true := enabled
      match i, t, calls with
      | .pool, 0, calls =>
          rw [calls.1] at looking
          cases looking
      | .pool, d + 1, calls =>
          refine ⟨?_, calls.2⟩
          show d ∈ s.look.adding
          rw [look_adding]
          exact calls.1
      | .worker w, 0, calls =>
          refine ⟨?_, calls.2⟩
          show (s.look.workers w).point = .wait
          rw [look_worker (objects.made_of_waits calls.1)]
          exact calls.1
      | .worker w, 1, calls =>
          rw [calls.1] at looking
          cases looking
  | work v =>
      match i, t, calls with
      | .pool, 0, calls => exact calls
      | .pool, d + 1, calls => exact calls
      | .worker w, 0, calls =>
          have distinct : w ≠ v := by
            rintro rfl
            exact apart calls.1
          refine ⟨?_, calls.2⟩
          show ((s.setWorker v _).workers w).point = .wait
          rw [setWorker_of_ne s distinct]
          exact calls.1
      | .worker w, 1, calls => exact calls
  | _ => cases apart

variable {events : PoolEvent → AtomicEvent}

/-- Nobody sets the event of a worker that was not made. -/
theorem Tied.nobody {w : Nat} (tied : s.Tied events) (unmade : s.created ≤ w) (t : Nat) :
    ((events (.worker w)).phase t).op ≠ some .set := by
  intro sets
  have calls := tied.calls (.worker w) t .set sets
  match t, calls with
  | 0, calls => cases calls.2
  | 1, calls =>
      have held : w ∈ inHand s.dispatch := by
        rw [calls.1]
        exact .head _
      exact absurd (tied.objects.made w (tied.objects.pooled w held)) (Nat.not_lt.mpr unmade)

/-- A step of an event `i` alone. -/
theorem Tied.event (tied : s.Tied events) {b : AtomicEvent} {act : Option EventAct}
    {s' : ThreadPool τ}
    (step : AtomicEvent.machine (events i) act b)
    (calls : ∀ j t op, ((Function.update events i b j).phase t).op = some op → s'.Calls j t op)
    (adding : s'.adding.Nodup) (objects : s'.Objects) (created : s'.created = s.created) :
    s'.Tied (Function.update events i b) where
  auto := by
    refine forall_update (P := fun e : AtomicEvent => e.autoReset = true) tied.auto ?_
    rw [AtomicEvent.step_autoReset step, tied.auto]
  calls := calls
  adding := adding
  objects := objects
  unset w unmade := by
    rw [created] at unmade
    by_cases here : .worker w = i
    · subst here
      rw [Function.update_self]
      exact AtomicEvent.step_unset step (tied.unset w unmade) (tied.nobody unmade)
    · rw [Function.update_of_ne here]
      exact tied.unset w unmade

/-- A call that returns leaves the others in `AddTask`, and makes no worker. -/
theorem returned_adding (nodup : s.adding.Nodup) (rc : Int) (i : PoolEvent) (t : Nat) :
    (s.returned rc i t).adding.Nodup ∧ (s.returned rc i t).created = s.created := by
  match i, t with
  | .pool, 0 =>
      show (if rc = waitTimeout then s else { s with dispatch := .scan s.pool none }).adding.Nodup ∧
        (if rc = waitTimeout then s else { s with dispatch := .scan s.pool none }).created = _
      split <;> exact ⟨nodup, rfl⟩
  | .pool, c + 1 => exact ⟨nodup.erase c, rfl⟩
  | .worker w, 0 => exact ⟨nodup, rfl⟩
  | .worker w, n + 1 => exact ⟨nodup, rfl⟩

theorem look_created : s.created ≤ s.look.created := by
  unfold look
  split
  · split <;> exact Nat.le_refl _
  · exact Nat.le_refl _
  · exact Nat.le_refl _
  · exact Nat.le_succ _
  · exact Nat.le_refl _

theorem apart_adding {step : PoolStep τ} (apart : step.apart s) (enabled : s.Enabled step)
    (nodup : s.adding.Nodup) : (s.next step).adding.Nodup ∧ s.created ≤ (s.next step).created := by
  cases step with
  | push c task => exact ⟨nodup.cons enabled, Nat.le_refl _⟩
  | look => exact ⟨look_adding (s := s) ▸ nodup, look_created⟩
  | work w => exact ⟨nodup, Nat.le_refl _⟩
  | _ => cases apart

/-- Where one thread has come further, the others' calls go on. -/
theorem Tied.moved_calls (tied : s.Tied events) {s' : ThreadPool τ}
    {events' : PoolEvent → AtomicEvent} {phase : CallPhase} (moved : Moved events events' i t phase)
    (kept : ∀ j u op, ¬ (j = i ∧ u = t) → s.Calls j u op → s'.Calls j u op)
    (mine : ∀ op, phase.op = some op → s'.Calls i t op) (j : PoolEvent) (u : Nat) (op : EventCall)
    (calls : ((events' j).phase u).op = some op) : s'.Calls j u op := by
  by_cases here : j = i ∧ u = t
  · obtain ⟨rfl, rfl⟩ := here
    rw [moved.here] at calls
    exact mine op calls
  · rw [moved.others j u here] at calls
    exact kept j u op here (tied.calls j u op calls)

theorem Tied.next {s' : ThreadPool τ} {events' : PoolEvent → AtomicEvent}
    {act : Option (PoolAct τ)}
    (step : withEvents AtomicEvent.machine (s, events) act (s', events'))
    (tied : s.Tied events) : s'.Tied events' := by
  cases step with
  | own step =>
      obtain ⟨step, ⟨apart, enabled⟩, -, rfl⟩ := step
      obtain ⟨nodup, made⟩ := apart_adding apart enabled tied.adding
      exact ⟨tied.auto, fun i t op calls => (tied.calls i t op calls).apart tied.objects apart
        enabled, nodup, next_objects tied.objects enabled, fun w unmade =>
          tied.unset w (Nat.le_trans made unmade)⟩
  | @silent _ _ k b step =>
      refine tied.event step (fun j t op calls => ?_) tied.adding tied.objects rfl
      by_cases here : j = k
      · subst here
        rw [Function.update_self, AtomicEvent.silent_op step] at calls
        exact tied.calls j t op calls
      · rw [Function.update_of_ne here] at calls
        exact tied.calls j t op calls
  | @linked _ _ _ k a b tie step =>
      cases tie with
      | @call t op mine =>
          refine tied.event step ?_ tied.adding tied.objects rfl
          cases step
          exact tied.moved_calls (moved_goto events k t (.pending op false) _ rfl)
            (fun _ _ _ _ calls => calls) fun op' same => Option.some.inj same ▸ mine
      | @ret t op rc mine =>
          obtain ⟨nodup, created⟩ := returned_adding tied.adding rc k t
          refine tied.event step ?_ nodup (returned_objects tied.objects mine rc) created
          cases step
          exact tied.moved_calls (moved_goto events k t .idle _ rfl)
            (fun _ _ _ other calls => mine.returned rc calls other) fun _ same => (by cases same)

end ThreadPool

end Teadfs
