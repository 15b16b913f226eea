/-
# Teadfs.Events — what the client's threads wait on

`pevents.cpp` as it is built here, without `WFMO` and `PULSE`: `CreateEvent`,
`WaitForEvent`, `SetEvent` and `ResetEvent` over a mutex, a condition variable and the
flag `State`. `WaitForEvent` looks at the flag before it takes the mutex, `ResetEvent`
writes it without, and a wait can end without a signal; so it is not plain from the code
that an event behaves like a flag that is set, reset and taken at once.

It does. `AtomicEvent` is that flag with its callers, and whatever calls and returns the
threads make, they could have made them there (`event_is_atomic`). A wait takes the event
when it reads the flag under the mutex, and not when it clears it: `ResetEvent` may come
between, `SetEvent` may not. A wait that times out has seen the event unset.

A step is one access to what the threads share, and memory is sequentially consistent.
-/
import Mathlib.Data.List.Nodup
import Mathlib.Logic.Function.Basic
import Teadfs.Lib.Traces

namespace Teadfs

set_option autoImplicit false

open Traces

/-- `WAIT_TIMEOUT`, which is `ETIMEDOUT`. -/
def waitTimeout : Int := 110

/-- `WAIT_INFINITE`. -/
def waitInfinite : UInt64 := ~~~0

/-- The calls on an event. -/
inductive EventCall where
  | wait (milliseconds : UInt64)
  | set
  | reset
  deriving DecidableEq, Repr

/-- What is seen of the threads: thread `t` calls, and returns. -/
inductive EventAct where
  | call (t : Nat) (op : EventCall)
  | ret (t : Nat) (op : EventCall) (rc : Int)
  deriving DecidableEq, Repr

/-! ## The code -/

/-- Where a thread is. -/
inductive EventPoint where
  | out
  /-- In `WaitForEvent`, before `milliseconds == 0 && !State`. -/
  | fastTest (ms : UInt64)
  /-- Before the two loads of the shortcut for manual-reset events. -/
  | manualLoad (ms : UInt64)
  | manualAgain (ms : UInt64)
  | waitLock (ms : UInt64)
  /-- In `UnlockedWaitForEvent`, before its first load. -/
  | waitTest (ms : UInt64)
  /-- Before `pthread_cond_wait` or `pthread_cond_timedwait`. -/
  | sleep (ms : UInt64)
  | asleep (ms : UInt64)
  /-- The wait is over with result 0, the mutex not yet taken again. -/
  | woken (ms : UInt64)
  /-- The wait is over with `ETIMEDOUT`, the mutex not yet taken again. -/
  | expired (ms : UInt64)
  /-- Before the load at the end of the loop. -/
  | recheck (ms : UInt64)
  /-- Before `State` is cleared. -/
  | store (ms : UInt64)
  | waitUnlock (ms : UInt64) (rc : Int)
  | setLock
  | setStore
  | setUnlock
  /-- Before `pthread_cond_signal` or `pthread_cond_broadcast`. -/
  | setSignal
  | resetStore
  | returning (op : EventCall) (rc : Int)
  deriving DecidableEq, Repr

namespace EventPoint

/-- The thread holds the mutex. -/
def holds : EventPoint → Bool
  | .waitTest _ => true
  | .sleep _ => true
  | .recheck _ => true
  | .store _ => true
  | .waitUnlock _ _ => true
  | .setStore => true
  | .setUnlock => true
  | _ => false

def isStore : EventPoint → Bool
  | .store _ => true
  | _ => false

/-- The kind of event the point is for: a wait clears an event that resets itself, and takes
the shortcut with one that does not. -/
def fits (autoReset : Bool) : EventPoint → Bool
  | .store _ => autoReset
  | .manualAgain _ => !autoReset
  | _ => true

def isSleep : EventPoint → Bool
  | .sleep _ => true
  | _ => false

def isAsleep : EventPoint → Bool
  | .asleep _ => true
  | _ => false

/-- What is seen when thread `t` goes on from here. -/
def returns (t : Nat) : EventPoint → Option EventAct
  | .returning op rc => some (.ret t op rc)
  | _ => none

/-- The wait of a sleeping thread ends with 0. -/
def wake : EventPoint → EventPoint
  | .asleep ms => .woken ms
  | point => point

end EventPoint

/-- `neosmart_event_t_`, with the threads that use it. -/
structure NeosmartEvent where
  autoReset : Bool
  state : Bool
  /-- The owner of `Mutex`. -/
  mutex : Option Nat
  /-- The threads asleep on `CVariable`. -/
  sleepers : List Nat
  points : Nat → EventPoint

inductive EventStep where
  | call (t : Nat) (op : EventCall)
  /-- The next access of `t`. -/
  | access (t : Nat)
  /-- The time of a `pthread_cond_timedwait` is over. -/
  | expire (t : Nat)
  /-- A wait ends without a signal. -/
  | spurious (t : Nat)
  /-- `pthread_cond_signal` by `t` wakes `target`, if there is someone to wake; or
  `pthread_cond_broadcast` wakes all. -/
  | signal (t : Nat) (target : Option Nat)
  deriving DecidableEq, Repr

namespace NeosmartEvent

/-- `CreateEvent`. -/
def createEvent (manualReset initialState : Bool) : NeosmartEvent where
  autoReset := !manualReset
  state := initialState
  mutex := none
  sleepers := []
  points := fun _ => .out

def goto (e : NeosmartEvent) (t : Nat) (point : EventPoint) : NeosmartEvent :=
  { e with points := Function.update e.points t point }

/-- When an access can be made: a thread that is out has none, one that sleeps waits to be
woken, and a lock waits for the mutex. -/
def AccessEnabled (e : NeosmartEvent) (t : Nat) : Prop :=
  match e.points t with
  | .out => False
  | .asleep _ => False
  | .setSignal => False
  | .waitLock _ => e.mutex = none
  | .woken _ => e.mutex = none
  | .expired _ => e.mutex = none
  | .setLock => e.mutex = none
  | _ => True

def Enabled (e : NeosmartEvent) : EventStep → Prop
  | .call t _ => e.points t = .out
  | .access t => e.AccessEnabled t
  | .expire t => ∃ ms, e.points t = .asleep ms ∧ ms ≠ waitInfinite
  | .spurious t => t ∈ e.sleepers
  | .signal t target =>
      e.points t = .setSignal ∧
        match target with
        | some u => u ∈ e.sleepers
        | none => e.sleepers = [] ∨ e.autoReset = false

/-- Where a call starts. -/
def enter : EventCall → EventPoint
  | .wait ms => .fastTest ms
  | .set => .setLock
  | .reset => .resetStore

/-- The next access of `t`, in `WaitForEvent`, `UnlockedWaitForEvent`, `SetEvent` and
`ResetEvent`. -/
def access (e : NeosmartEvent) (t : Nat) : NeosmartEvent :=
  match e.points t with
  | .fastTest ms =>
      if ms = 0 ∧ e.state = false then e.goto t (.returning (.wait ms) waitTimeout)
      else e.goto t (.manualLoad ms)
  | .manualLoad ms =>
      if e.autoReset = false ∧ e.state = true then e.goto t (.manualAgain ms)
      else e.goto t (.waitLock ms)
  | .manualAgain ms =>
      if e.state = true then e.goto t (.returning (.wait ms) 0) else e.goto t (.waitLock ms)
  | .waitLock ms => { e.goto t (.waitTest ms) with mutex := some t }
  | .waitTest ms =>
      if e.state = true then
        if e.autoReset then e.goto t (.store ms) else e.goto t (.waitUnlock ms 0)
      else if ms = 0 then e.goto t (.waitUnlock ms waitTimeout)
      else e.goto t (.sleep ms)
  | .sleep ms =>
      { e.goto t (.asleep ms) with
        mutex := none
        sleepers := t :: e.sleepers }
  | .woken ms => { e.goto t (.recheck ms) with mutex := some t }
  | .expired ms => { e.goto t (.waitUnlock ms waitTimeout) with mutex := some t }
  | .recheck ms =>
      if e.state = true then
        if e.autoReset then e.goto t (.store ms) else e.goto t (.waitUnlock ms 0)
      else e.goto t (.sleep ms)
  | .store ms => { e.goto t (.waitUnlock ms 0) with state := false }
  | .waitUnlock ms rc => { e.goto t (.returning (.wait ms) rc) with mutex := none }
  | .setLock => { e.goto t .setStore with mutex := some t }
  | .setStore => { e.goto t .setUnlock with state := true }
  | .setUnlock => { e.goto t .setSignal with mutex := none }
  | .resetStore => { e.goto t (.returning .reset 0) with state := false }
  | .returning _ _ => e.goto t .out
  | _ => e

/-- The wait of the sleeper `u` is over. -/
def leave (e : NeosmartEvent) (u : Nat) (point : EventPoint) : NeosmartEvent :=
  { e.goto u point with sleepers := e.sleepers.erase u }

/-- All sleepers are woken. -/
def broadcast (e : NeosmartEvent) : NeosmartEvent :=
  { e with
    sleepers := []
    points := fun u => (e.points u).wake }

def next (e : NeosmartEvent) : EventStep → NeosmartEvent
  | .call t op => e.goto t (enter op)
  | .access t => e.access t
  | .expire t =>
      match e.points t with
      | .asleep ms => e.leave t (.expired ms)
      | _ => e
  | .spurious t => e.leave t (e.points t).wake
  | .signal t target =>
      if e.autoReset then
        match target with
        | some u => (e.leave u (e.points u).wake).goto t (.returning .set 0)
        | none => e.goto t (.returning .set 0)
      else e.broadcast.goto t (.returning .set 0)

/-- What a step shows. -/
def shows (e : NeosmartEvent) : EventStep → Option EventAct
  | .call t op => some (.call t op)
  | .access t => (e.points t).returns t
  | _ => none

/-- The event and its threads. -/
def machine : Machine NeosmartEvent EventAct := driven Enabled shows next

end NeosmartEvent

/-! ## The flag it should be -/

/-- How far a call has come: made, and whether the event has been unset since; or done. -/
inductive CallPhase where
  | idle
  | pending (op : EventCall) (sawUnset : Bool)
  | done (op : EventCall) (rc : Int)
  deriving DecidableEq, Repr

/-- A flag, and the threads that call on it. -/
structure AtomicEvent where
  autoReset : Bool
  set : Bool
  phase : Nat → CallPhase

namespace AtomicEvent

def create (manualReset initialState : Bool) : AtomicEvent :=
  ⟨!manualReset, initialState, fun _ => .idle⟩

def goto (a : AtomicEvent) (t : Nat) (phase : CallPhase) : AtomicEvent :=
  { a with phase := Function.update a.phase t phase }

/-- Every call takes effect at once, somewhere between its start and its return. A wait is
done when the event is set, and takes it if it resets itself; or it times out, if it is not
for ever and the event has been unset since the call. -/
inductive machine : Machine AtomicEvent EventAct where
  | call {a : AtomicEvent} {t : Nat} (op : EventCall) (idle : a.phase t = .idle) :
      machine a (some (.call t op)) (a.goto t (.pending op false))
  | set {a : AtomicEvent} {t : Nat} {saw : Bool} (pending : a.phase t = .pending .set saw) :
      machine a none { a.goto t (.done .set 0) with set := true }
  | reset {a : AtomicEvent} {t : Nat} {saw : Bool} (pending : a.phase t = .pending .reset saw) :
      machine a none { a.goto t (.done .reset 0) with set := false }
  | take {a : AtomicEvent} {t : Nat} {ms : UInt64} {saw : Bool}
      (pending : a.phase t = .pending (.wait ms) saw) (isSet : a.set = true) :
      machine a none { a.goto t (.done (.wait ms) 0) with set := !a.autoReset }
  | sawUnset {a : AtomicEvent} {t : Nat} {op : EventCall} {saw : Bool}
      (pending : a.phase t = .pending op saw) (unset : a.set = false) :
      machine a none (a.goto t (.pending op true))
  | timeout {a : AtomicEvent} {t : Nat} {ms : UInt64}
      (pending : a.phase t = .pending (.wait ms) true) (finite : ms ≠ waitInfinite) :
      machine a none (a.goto t (.done (.wait ms) waitTimeout))
  | ret {a : AtomicEvent} {t : Nat} {op : EventCall} {rc : Int}
      (done : a.phase t = .done op rc) : machine a (some (.ret t op rc)) (a.goto t .idle)

theorem goto_phase_self {a : AtomicEvent} {t : Nat} {phase : CallPhase} :
    (a.goto t phase).phase t = phase :=
  Function.update_self ..

theorem goto_phase_of_ne {a : AtomicEvent} {t u : Nat} {phase : CallPhase} (other : u ≠ t) :
    (a.goto t phase).phase u = a.phase u :=
  Function.update_of_ne other ..

theorem goto_self {a : AtomicEvent} {t : Nat} {phase : CallPhase} (same : a.phase t = phase) :
    a.goto t phase = a := by
  subst same
  simp [goto]

end AtomicEvent

/-- What a thread at a point has done of its call. -/
def EventPoint.phase : EventPoint → CallPhase
  | .out => .idle
  | .fastTest ms => .pending (.wait ms) false
  | .manualLoad ms => .pending (.wait ms) false
  | .manualAgain ms => .pending (.wait ms) false
  | .waitLock ms => .pending (.wait ms) false
  | .waitTest ms => .pending (.wait ms) false
  | .sleep ms => .pending (.wait ms) true
  | .asleep ms => .pending (.wait ms) true
  | .woken ms => .pending (.wait ms) true
  | .recheck ms => .pending (.wait ms) true
  | .expired ms => .done (.wait ms) waitTimeout
  | .store ms => .done (.wait ms) 0
  | .waitUnlock ms rc => .done (.wait ms) rc
  | .setLock => .pending .set false
  | .setStore => .pending .set false
  | .setUnlock => .done .set 0
  | .setSignal => .done .set 0
  | .resetStore => .pending .reset false
  | .returning op rc => .done op rc

namespace NeosmartEvent

/-- The owner of the mutex has taken the event and not yet cleared the flag. -/
def taking (e : NeosmartEvent) : Bool :=
  match e.mutex with
  | some t => (e.points t).isStore
  | none => false

def isSet (e : NeosmartEvent) : Bool := e.state && !e.taking

def atomic (e : NeosmartEvent) : AtomicEvent := ⟨e.autoReset, e.isSet, fun t => (e.points t).phase⟩

/-! ## The mutex and the sleepers -/

/-- The mutex is held by the thread that is between its lock and its unlock, the sleepers are
those on the condition variable, each is at a point for this kind of event, and a thread goes
to sleep over an unset flag. -/
structure Monitor (e : NeosmartEvent) : Prop where
  owner : ∀ t, e.mutex = some t ↔ (e.points t).holds = true
  sleepers : ∀ t, t ∈ e.sleepers ↔ (e.points t).isAsleep = true
  nodup : e.sleepers.Nodup
  kind : ∀ t, (e.points t).fits e.autoReset = true
  unset : ∀ t, (e.points t).isSleep = true → e.state = false

theorem createEvent_monitor (manualReset initialState : Bool) :
    (createEvent manualReset initialState).Monitor where
  owner _ := ⟨nofun, nofun⟩
  sleepers t := by simp [createEvent, EventPoint.isAsleep]
  nodup := List.nodup_nil
  kind _ := rfl
  unset t sleeps := by cases sleeps

section Moves

variable {e : NeosmartEvent} {t : Nat} {p q : EventPoint}

@[simp] theorem goto_self : (e.goto t q).points t = q := Function.update_self ..

theorem goto_of_ne {u : Nat} (other : u ≠ t) : (e.goto t q).points u = e.points u :=
  Function.update_of_ne other ..

@[simp] theorem goto_mutex : (e.goto t q).mutex = e.mutex := rfl
@[simp] theorem goto_state : (e.goto t q).state = e.state := rfl
@[simp] theorem goto_sleepers : (e.goto t q).sleepers = e.sleepers := rfl
@[simp] theorem goto_autoReset : (e.goto t q).autoReset = e.autoReset := rfl

/-- What is true of the point `t` goes to and of every point before is true of every point. -/
theorem forall_goto {P : Nat → EventPoint → Prop} (here : P t q)
    (elsewhere : ∀ u, u ≠ t → P u (e.points u)) (u : Nat) : P u ((e.goto t q).points u) := by
  by_cases same : u = t
  · subst same
    rw [goto_self]
    exact here
  · rw [goto_of_ne same]
    exact elsewhere u same

/-- Two threads do not hold the mutex. -/
theorem Monitor.owner_unique (monitor : e.Monitor) {u : Nat} (first : (e.points t).holds = true)
    (second : (e.points u).holds = true) : u = t := by
  have here := (monitor.owner t).mpr first
  rw [(monitor.owner u).mpr second] at here
  exact Option.some.inj here

theorem Monitor.alone (monitor : e.Monitor) (held : (e.points t).holds = true) {u : Nat}
    (other : u ≠ t) : (e.points u).holds = false := by
  cases holds : (e.points u).holds with
  | false => rfl
  | true => exact absurd (monitor.owner_unique held holds) other

theorem Monitor.free (monitor : e.Monitor) (free : e.mutex = none) (u : Nat) :
    (e.points u).holds = false := by
  cases holds : (e.points u).holds with
  | false => rfl
  | true =>
      have owner := (monitor.owner u).mpr holds
      rw [free] at owner
      cases owner

/-- A step of `t` that leaves the mutex to whom it belongs. -/
theorem Monitor.stay (monitor : e.Monitor) (at' : e.points t = p) (same : q.holds = p.holds)
    (awake : p.isAsleep = false) (after : q.isAsleep = false)
    (kind : q.fits e.autoReset = true) (unset : q.isSleep = true → e.state = false) :
    (e.goto t q).Monitor where
  owner := forall_goto (P := fun u p => e.mutex = some u ↔ p.holds = true)
    (by rw [same, ← at']; exact monitor.owner t) fun u _ => monitor.owner u
  sleepers := forall_goto (P := fun u p => u ∈ e.sleepers ↔ p.isAsleep = true)
    (by rw [after, ← awake, ← at']; exact monitor.sleepers t) fun u _ => monitor.sleepers u
  nodup := monitor.nodup
  kind := forall_goto (P := fun _ p => p.fits e.autoReset = true) kind fun u _ => monitor.kind u
  unset := forall_goto (P := fun _ p => p.isSleep = true → e.state = false) unset
    fun u _ => monitor.unset u

/-- The mutex was free, and `t` takes it. -/
theorem Monitor.lock (monitor : e.Monitor) (at' : e.points t = p) (free : e.mutex = none)
    (awake : p.isAsleep = false) (holds : q.holds = true) (after : q.isAsleep = false)
    (kind : q.fits e.autoReset = true) (noSleep : q.isSleep = false) :
    ({ e.goto t q with mutex := some t } : NeosmartEvent).Monitor where
  owner := forall_goto (P := fun u p => some t = some u ↔ p.holds = true) (by simp [holds])
    fun u other => by simp [monitor.free free u, Ne.symm other]
  sleepers := forall_goto (P := fun u p => u ∈ e.sleepers ↔ p.isAsleep = true)
    (by rw [after, ← awake, ← at']; exact monitor.sleepers t) fun u _ => monitor.sleepers u
  nodup := monitor.nodup
  kind := forall_goto (P := fun _ p => p.fits e.autoReset = true) kind fun u _ => monitor.kind u
  unset := forall_goto (P := fun _ p => p.isSleep = true → e.state = false)
    (by simp [noSleep]) fun u _ => monitor.unset u

theorem not_isSleep (free : q.holds = false) : q.isSleep = false := by
  cases q <;> first | rfl | cases free

/-- The thread that holds the mutex lets it go. -/
theorem Monitor.unlock (monitor : e.Monitor) (at' : e.points t = p) (held : p.holds = true)
    (awake : p.isAsleep = false) (free : q.holds = false) (after : q.isAsleep = false)
    (kind : q.fits e.autoReset = true) :
    ({ e.goto t q with mutex := none } : NeosmartEvent).Monitor where
  owner := forall_goto (P := fun u p => none = some u ↔ p.holds = true) (by simp [free])
    fun u other => by simp [monitor.alone (t := t) (by rw [at', held]) other]
  sleepers := forall_goto (P := fun u p => u ∈ e.sleepers ↔ p.isAsleep = true)
    (by rw [after, ← awake, ← at']; exact monitor.sleepers t) fun u _ => monitor.sleepers u
  nodup := monitor.nodup
  kind := forall_goto (P := fun _ p => p.fits e.autoReset = true) kind fun u _ => monitor.kind u
  unset := forall_goto (P := fun _ p => p.isSleep = true → e.state = false)
    (by simp [not_isSleep free]) fun u _ => monitor.unset u

theorem Monitor.clear (monitor : e.Monitor) :
    ({ e with state := false } : NeosmartEvent).Monitor :=
  ⟨monitor.owner, monitor.sleepers, monitor.nodup, monitor.kind, fun _ _ => rfl⟩

/-- The flag is set by the owner of the mutex, who does not go to sleep. -/
theorem Monitor.raise (monitor : e.Monitor) (held : (e.points t).holds = true)
    (stays : (e.points t).isSleep = false) :
    ({ e with state := true } : NeosmartEvent).Monitor where
  owner := monitor.owner
  sleepers := monitor.sleepers
  nodup := monitor.nodup
  kind := monitor.kind
  unset u sleeps := by
    have owns : (e.points u).holds = true := by
      cases holds : (e.points u).holds with
      | false => exact absurd sleeps (by rw [not_isSleep holds]; decide)
      | true => rfl
    cases monitor.owner_unique held owns
    exact absurd sleeps (by rw [stays]; decide)

/-- The owner of the mutex goes to sleep and lets the mutex go, in one step. -/
theorem Monitor.sleep (monitor : e.Monitor) {ms : UInt64} (at' : e.points t = .sleep ms) :
    ({ e.goto t (.asleep ms) with
        mutex := none
        sleepers := t :: e.sleepers } : NeosmartEvent).Monitor where
  owner := forall_goto (P := fun u p => none = some u ↔ p.holds = true)
    ⟨nofun, nofun⟩
    fun u other => by simp [monitor.alone (t := t) (by rw [at']; rfl) other]
  sleepers := by
    refine forall_goto (P := fun u p => u ∈ t :: e.sleepers ↔ p.isAsleep = true)
      (by simp [EventPoint.isAsleep]) ?_
    intro u other
    rw [List.mem_cons, ← monitor.sleepers]
    exact ⟨fun listed => listed.resolve_left other, .inr⟩
  nodup := by
    refine List.nodup_cons.mpr ⟨fun listed => ?_, monitor.nodup⟩
    have asleep := (monitor.sleepers t).mp listed
    rw [at'] at asleep
    cases asleep
  kind := forall_goto (P := fun _ p => p.fits e.autoReset = true) rfl fun u _ => monitor.kind u
  unset := forall_goto (P := fun _ p => p.isSleep = true → e.state = false)
    (fun sleeps => by cases sleeps) fun u _ => monitor.unset u

theorem not_holds (asleep : p.isAsleep = true) : p.holds = false := by
  cases p <;> first | rfl | cases asleep

/-- The wait of a sleeper ends, and it goes for the mutex. -/
theorem Monitor.leave (monitor : e.Monitor) (asleep : (e.points t).isAsleep = true)
    (free : q.holds = false) (after : q.isAsleep = false) (kind : q.fits e.autoReset = true) :
    (e.leave t q).Monitor where
  owner := forall_goto (P := fun u p => e.mutex = some u ↔ p.holds = true)
    (by rw [free, monitor.owner, not_holds asleep]) fun u _ => monitor.owner u
  sleepers := by
    refine forall_goto (P := fun u p => u ∈ e.sleepers.erase t ↔ p.isAsleep = true) ?_ ?_
    · simp [monitor.nodup.mem_erase_iff, after]
    · intro u other
      rw [monitor.nodup.mem_erase_iff, ← monitor.sleepers]
      exact ⟨And.right, fun listed => ⟨other, listed⟩⟩
  nodup := monitor.nodup.erase t
  kind := forall_goto (P := fun _ p => p.fits e.autoReset = true) kind fun u _ => monitor.kind u
  unset := forall_goto (P := fun _ p => p.isSleep = true → e.state = false)
    (by simp [not_isSleep free]) fun u _ => monitor.unset u

theorem holds_wake (p : EventPoint) : p.wake.holds = p.holds := by cases p <;> rfl

theorem isStore_wake (p : EventPoint) : p.wake.isStore = p.isStore := by cases p <;> rfl

theorem fits_wake (p : EventPoint) (autoReset : Bool) :
    p.wake.fits autoReset = p.fits autoReset := by cases p <;> rfl

theorem isSleep_wake (p : EventPoint) : p.wake.isSleep = p.isSleep := by cases p <;> rfl

theorem isAsleep_wake (p : EventPoint) : p.wake.isAsleep = false := by cases p <;> rfl

theorem phase_wake (p : EventPoint) : p.wake.phase = p.phase := by cases p <;> rfl

theorem Monitor.broadcast (monitor : e.Monitor) : e.broadcast.Monitor where
  owner u := (monitor.owner u).trans (by rw [← holds_wake]; rfl)
  sleepers u := by
    show u ∈ [] ↔ (e.points u).wake.isAsleep = true
    simp [isAsleep_wake]
  nodup := List.nodup_nil
  kind u := (fits_wake _ _).trans (monitor.kind u)
  unset u sleeps := monitor.unset u ((isSleep_wake _).symm.trans sleeps)

/-- A step of `t` to a point where it does not go to sleep. -/
theorem Monitor.pass (monitor : e.Monitor) (at' : e.points t = p) (same : q.holds = p.holds)
    (awake : p.isAsleep = false) (after : q.isAsleep = false) (kind : q.fits e.autoReset = true)
    (noSleep : q.isSleep = false) : (e.goto t q).Monitor :=
  monitor.stay at' same awake after kind (by simp [noSleep])

theorem access_monitor (monitor : e.Monitor) (enabled : e.AccessEnabled t) :
    (e.access t).Monitor := by
  unfold AccessEnabled at enabled
  unfold access
  cases at' : e.points t with
  | out => exact monitor
  | asleep ms => exact monitor
  | setSignal => exact monitor
  | fastTest ms =>
      dsimp only
      split
      · exact monitor.pass at' rfl rfl rfl rfl rfl
      · exact monitor.pass at' rfl rfl rfl rfl rfl
  | manualLoad ms =>
      dsimp only
      split
      · rename_i shortcut
        exact monitor.pass at' rfl rfl rfl (by simp [EventPoint.fits, shortcut.1]) rfl
      · exact monitor.pass at' rfl rfl rfl rfl rfl
  | manualAgain ms =>
      dsimp only
      split
      · exact monitor.pass at' rfl rfl rfl rfl rfl
      · exact monitor.pass at' rfl rfl rfl rfl rfl
  | waitLock ms =>
      rw [at'] at enabled
      exact monitor.lock at' enabled rfl rfl rfl rfl rfl
  | woken ms =>
      rw [at'] at enabled
      exact monitor.lock at' enabled rfl rfl rfl rfl rfl
  | expired ms =>
      rw [at'] at enabled
      exact monitor.lock at' enabled rfl rfl rfl rfl rfl
  | setLock =>
      rw [at'] at enabled
      exact monitor.lock at' enabled rfl rfl rfl rfl rfl
  | waitTest ms =>
      dsimp only
      split_ifs with set auto zero
      · exact monitor.pass at' rfl rfl rfl auto rfl
      · exact monitor.pass at' rfl rfl rfl rfl rfl
      · exact monitor.pass at' rfl rfl rfl rfl rfl
      · exact monitor.stay at' rfl rfl rfl rfl fun _ => Bool.eq_false_iff.mpr set
  | recheck ms =>
      dsimp only
      split_ifs with set auto
      · exact monitor.pass at' rfl rfl rfl auto rfl
      · exact monitor.pass at' rfl rfl rfl rfl rfl
      · exact monitor.stay at' rfl rfl rfl rfl fun _ => Bool.eq_false_iff.mpr set
  | sleep ms => exact monitor.sleep at'
  | store ms => exact (monitor.pass (q := .waitUnlock ms 0) at' rfl rfl rfl rfl rfl).clear
  | waitUnlock ms rc => exact monitor.unlock at' rfl rfl rfl rfl rfl
  | setStore =>
      refine (monitor.pass (q := .setUnlock) at' rfl rfl rfl rfl rfl).raise (t := t) ?_ ?_
      · rw [goto_self]
        rfl
      · rw [goto_self]
        rfl
  | setUnlock => exact monitor.unlock at' rfl rfl rfl rfl rfl
  | resetStore =>
      exact (monitor.pass (q := .returning .reset 0) at' rfl rfl rfl rfl rfl).clear
  | returning op rc => exact monitor.pass at' rfl rfl rfl rfl rfl

/-- The sleeper that a signal wakes. -/
theorem Monitor.wake (monitor : e.Monitor) (listed : t ∈ e.sleepers) :
    (e.leave t (e.points t).wake).Monitor := by
  have asleep := (monitor.sleepers t).mp listed
  refine monitor.leave asleep ?_ (isAsleep_wake _) ((fits_wake _ _).trans (monitor.kind t))
  rw [holds_wake, not_holds asleep]

/-- A sleeper that wakes is not the thread that is about to signal. -/
theorem leave_of_ne {u : Nat} (other : t ≠ u) : (e.leave u q).points t = e.points t :=
  goto_of_ne other

theorem next_monitor {step : EventStep} (monitor : e.Monitor) (enabled : e.Enabled step) :
    (e.next step).Monitor := by
  cases step with
  | call t op => cases op <;> exact monitor.pass enabled rfl rfl rfl rfl rfl
  | access t => exact access_monitor monitor enabled
  | expire t =>
      obtain ⟨ms, asleep, -⟩ := enabled
      simp only [next, asleep]
      exact monitor.leave (by rw [asleep]; rfl) rfl rfl rfl
  | spurious t => exact monitor.wake enabled
  | signal t target =>
      obtain ⟨signals, awake⟩ := enabled
      simp only [next]
      split_ifs with auto
      · cases target with
        | none => exact monitor.pass signals rfl rfl rfl rfl rfl
        | some u =>
            have other : t ≠ u := by
              rintro rfl
              have asleep := (monitor.sleepers t).mp awake
              rw [signals] at asleep
              cases asleep
            exact (monitor.wake awake).pass ((leave_of_ne other).trans signals) rfl rfl rfl rfl rfl
      · have there : e.broadcast.points t = .setSignal := by
          show (e.points t).wake = .setSignal
          rw [signals]
          rfl
        exact monitor.broadcast.pass there rfl rfl rfl rfl rfl

end Moves

/-! ## The flag behind it -/

section Atomic

variable {e d : NeosmartEvent} {t : Nat} {p q : EventPoint}

theorem isSet_of_unset (unset : e.state = false) : e.isSet = false := by
  rw [isSet, unset, Bool.false_and]

theorem isSet_of_free (free : e.mutex = none) : e.isSet = e.state := by
  simp [isSet, taking, free]

theorem isSet_of_owner (owner : e.mutex = some t) :
    e.isSet = (e.state && !(e.points t).isStore) := by
  simp [isSet, taking, owner]

theorem Monitor.isSet_of_holds (monitor : e.Monitor) (at' : e.points t = p)
    (held : p.holds = true) : e.isSet = (e.state && !p.isStore) := by
  rw [isSet_of_owner ((monitor.owner t).mpr (by rw [at', held])), at']

/-- The steps of a thread without the mutex do not show in who is taking the event. -/
theorem Monitor.taking_goto (monitor : e.Monitor) (at' : e.points t = p)
    (free : p.holds = false) : (e.goto t q).taking = e.taking := by
  unfold taking
  rw [goto_mutex]
  cases owner : e.mutex with
  | none => rfl
  | some u =>
      have other : u ≠ t := by
        rintro rfl
        have held := (monitor.owner u).mp owner
        rw [at', free] at held
        cases held
      simp only [goto_of_ne other]

theorem Monitor.isSet_goto (monitor : e.Monitor) (at' : e.points t = p)
    (free : p.holds = false) : (e.goto t q).isSet = e.isSet := by
  rw [isSet, isSet, monitor.taking_goto at' free, goto_state]

/-- Where the threads are and what is set is all the flag is about. -/
theorem atomic_eq (points : d.points = (e.goto t q).points) (kind : d.autoReset = e.autoReset)
    {set : Bool} (isSet : d.isSet = set) :
    d.atomic = { e.atomic.goto t q.phase with set := set } := by
  have phases : (fun u => (d.points u).phase) =
      Function.update (fun u => (e.points u).phase) t q.phase := by
    funext u
    rw [points]
    by_cases same : u = t
    · subst same
      rw [goto_self, Function.update_self]
    · rw [goto_of_ne same, Function.update_of_ne same]
  simp only [atomic, AtomicEvent.goto, phases, kind, isSet]

/-- A step after which the same is set. -/
theorem atomic_goto (points : d.points = (e.goto t q).points) (kind : d.autoReset = e.autoReset)
    (same : d.isSet = e.isSet) : d.atomic = e.atomic.goto t q.phase :=
  atomic_eq points kind same

/-- A step that is not seen: the call has come no further, and the same is set. -/
theorem atomic_same (points : d.points = (e.goto t q).points) (kind : d.autoReset = e.autoReset)
    (at' : e.points t = p) (phase : q.phase = p.phase) (same : d.isSet = e.isSet) :
    d.atomic = e.atomic := by
  rw [atomic_goto points kind same, AtomicEvent.goto_self (by rw [phase, ← at']; rfl)]

theorem phase_atomic (at' : e.points t = p) : e.atomic.phase t = p.phase := by
  rw [← at']
  rfl

theorem run_to {a : AtomicEvent} {shown : List EventAct} (there : d.atomic = a)
    (run : Run AtomicEvent.machine e.atomic shown a) :
    Run AtomicEvent.machine e.atomic shown d.atomic := by
  rw [there]
  exact run

theorem run_same (same : d.atomic = e.atomic) : Run AtomicEvent.machine e.atomic [] d.atomic := by
  rw [same]
  exact .refl

/-- A wait sees the event unset. -/
theorem run_sawUnset {ms : UInt64} {saw : Bool} (unset : e.isSet = false)
    (pending : e.atomic.phase t = .pending (.wait ms) saw) :
    Run AtomicEvent.machine e.atomic [] (e.atomic.goto t (.pending (.wait ms) true)) :=
  .silent (.sawUnset pending unset)

/-- A wait sees the event unset, and times out. -/
theorem run_timeout {ms : UInt64} {saw : Bool} (unset : e.isSet = false)
    (finite : ms ≠ waitInfinite) (pending : e.atomic.phase t = .pending (.wait ms) saw) :
    Run AtomicEvent.machine e.atomic [] (e.atomic.goto t (.done (.wait ms) waitTimeout)) := by
  have saw := run_sawUnset unset pending
  have times : Run AtomicEvent.machine (e.atomic.goto t (.pending (.wait ms) true)) [] _ :=
    .silent (.timeout AtomicEvent.goto_phase_self finite)
  simpa [AtomicEvent.goto] using saw.trans times

/-- A wait takes the event. -/
theorem run_take {ms : UInt64} {saw : Bool} (isSet : e.isSet = true)
    (pending : e.atomic.phase t = .pending (.wait ms) saw) :
    Run AtomicEvent.machine e.atomic []
      { e.atomic.goto t (.done (.wait ms) 0) with set := !e.autoReset } :=
  .silent (.take pending isSet)

theorem waitInfinite_ne_zero : (0 : UInt64) ≠ waitInfinite := by decide

/-- Taking the mutex changes nothing that is set. -/
theorem isSet_lock (free : e.mutex = none) (noStore : q.isStore = false) :
    ({ e.goto t q with mutex := some t } : NeosmartEvent).isSet = e.isSet := by
  rw [isSet_of_owner rfl, isSet_of_free free]
  simp [noStore]

/-- Nor does letting it go. -/
theorem Monitor.isSet_unlock (monitor : e.Monitor) (at' : e.points t = p) (held : p.holds = true)
    (noStore : p.isStore = false) (sleepers : List Nat) :
    ({ e.goto t q with
        mutex := none
        sleepers := sleepers } : NeosmartEvent).isSet = e.isSet := by
  rw [isSet_of_free rfl, monitor.isSet_of_holds at' held, noStore]
  simp

/-- The owner of the mutex moves on. -/
theorem Monitor.isSet_goto_owner (monitor : e.Monitor) (at' : e.points t = p)
    (held : p.holds = true) : (e.goto t q).isSet = (e.state && !q.isStore) := by
  have owner : (e.goto t q).mutex = some t := (monitor.owner t).mpr (by rw [at', held])
  rw [isSet_of_owner owner, goto_self, goto_state]

theorem Monitor.isSet_raise (monitor : e.Monitor) (at' : e.points t = .setStore) :
    ({ e.goto t .setUnlock with state := true } : NeosmartEvent).isSet = true := by
  have owner : e.mutex = some t := (monitor.owner t).mpr (by rw [at']; rfl)
  simp [isSet, taking, owner, EventPoint.isStore]

/-- Nobody clears an event that does not reset itself. -/
theorem Monitor.isSet_of_manual (monitor : e.Monitor) (manual : e.autoReset = false) :
    e.isSet = e.state := by
  cases owner : e.mutex with
  | none => exact isSet_of_free owner
  | some u =>
      have kind := monitor.kind u
      rw [isSet_of_owner owner]
      cases at' : e.points u <;> simp_all [EventPoint.isStore, EventPoint.fits]

/-- A wait that reads a set flag under the mutex takes the event, and goes on to clear the
flag if it is one that resets itself. -/
theorem taken_atomic (monitor : e.Monitor) (at' : e.points t = p) (held : p.holds = true)
    (noStore : p.isStore = false) {ms : UInt64} {saw : Bool}
    (pending : p.phase = .pending (.wait ms) saw) (set : e.state = true) :
    Run AtomicEvent.machine e.atomic []
      (if e.autoReset then e.goto t (.store ms) else e.goto t (.waitUnlock ms 0)).atomic := by
  have isSet : e.isSet = true := by
    rw [monitor.isSet_of_holds at' held, set, noStore]
    rfl
  have take := run_take isSet ((phase_atomic at').trans pending)
  split
  · rename_i auto
    refine run_to (atomic_eq rfl rfl (monitor.isSet_goto_owner at' held)) ?_
    simpa [EventPoint.isStore, EventPoint.phase, set, auto] using take
  · rename_i manual
    refine run_to (atomic_eq rfl rfl (monitor.isSet_goto_owner at' held)) ?_
    simpa [EventPoint.isStore, EventPoint.phase, set, manual] using take

/-- Each access is a run of the flag that shows the same. -/
theorem access_atomic (monitor : e.Monitor) (enabled : e.AccessEnabled t) :
    Run AtomicEvent.machine e.atomic ((e.points t).returns t).toList (e.access t).atomic := by
  unfold AccessEnabled at enabled
  unfold access
  cases at' : e.points t with
  | out => exact .refl
  | asleep ms => exact .refl
  | setSignal => exact .refl
  | fastTest ms =>
      dsimp only
      split
      · rename_i zero
        obtain ⟨rfl, unset⟩ := zero
        exact run_to (atomic_goto rfl rfl (monitor.isSet_goto at' rfl))
          (run_timeout (isSet_of_unset unset) waitInfinite_ne_zero (phase_atomic at'))
      · exact run_same (atomic_same rfl rfl at' rfl (monitor.isSet_goto at' rfl))
  | manualLoad ms =>
      dsimp only
      split
      · exact run_same (atomic_same rfl rfl at' rfl (monitor.isSet_goto at' rfl))
      · exact run_same (atomic_same rfl rfl at' rfl (monitor.isSet_goto at' rfl))
  | manualAgain ms =>
      have manual : e.autoReset = false := by simpa [at', EventPoint.fits] using monitor.kind t
      dsimp only
      split
      · rename_i set
        have isSet : e.isSet = true := (monitor.isSet_of_manual manual).trans set
        have take := run_take isSet (phase_atomic at')
        rw [manual] at take
        exact run_to (atomic_eq rfl rfl ((monitor.isSet_goto at' rfl).trans isSet)) take
      · exact run_same (atomic_same rfl rfl at' rfl (monitor.isSet_goto at' rfl))
  | waitLock ms =>
      rw [at'] at enabled
      exact run_same (atomic_same rfl rfl at' rfl (isSet_lock enabled rfl))
  | woken ms =>
      rw [at'] at enabled
      exact run_same (atomic_same rfl rfl at' rfl (isSet_lock enabled rfl))
  | expired ms =>
      rw [at'] at enabled
      exact run_same (atomic_same rfl rfl at' rfl (isSet_lock enabled rfl))
  | setLock =>
      rw [at'] at enabled
      exact run_same (atomic_same rfl rfl at' rfl (isSet_lock enabled rfl))
  | waitTest ms =>
      dsimp only
      split
      · rename_i set
        exact taken_atomic monitor at' rfl rfl rfl set
      · rename_i unset
        have unset : e.isSet = false := isSet_of_unset (Bool.eq_false_iff.mpr unset)
        have same (q : EventPoint) (noStore : q.isStore = false) :
            (e.goto t q).isSet = e.isSet := by
          rw [monitor.isSet_goto_owner at' rfl, monitor.isSet_of_holds at' rfl, noStore]
          rfl
        split
        · rename_i zero
          subst zero
          exact run_to (atomic_goto rfl rfl (same _ rfl))
            (run_timeout unset waitInfinite_ne_zero (phase_atomic at'))
        · exact run_to (atomic_goto rfl rfl (same _ rfl)) (run_sawUnset unset (phase_atomic at'))
  | recheck ms =>
      dsimp only
      split
      · rename_i set
        exact taken_atomic monitor at' rfl rfl rfl set
      · refine run_same (atomic_same rfl rfl at' rfl ?_)
        rw [monitor.isSet_goto_owner at' rfl, monitor.isSet_of_holds at' rfl]
        rfl
  | sleep ms => exact run_same (atomic_same rfl rfl at' rfl (monitor.isSet_unlock at' rfl rfl _))
  | store ms =>
      refine run_same (atomic_same rfl rfl at' rfl ?_)
      rw [isSet_of_unset rfl, monitor.isSet_of_holds at' rfl]
      simp [EventPoint.isStore]
  | waitUnlock ms rc =>
      exact run_same (atomic_same rfl rfl at' rfl (monitor.isSet_unlock at' rfl rfl _))
  | setStore =>
      have there := atomic_eq (d := { e.goto t .setUnlock with state := true }) (e := e)
        (q := .setUnlock) rfl rfl (monitor.isSet_raise at')
      exact run_to there (.silent (.set (phase_atomic at')))
  | setUnlock =>
      exact run_same (atomic_same rfl rfl at' rfl (monitor.isSet_unlock at' rfl rfl _))
  | resetStore =>
      have there := atomic_eq (d := { e.goto t (.returning .reset 0) with state := false }) (e := e)
        (q := .returning .reset 0) rfl rfl (isSet_of_unset rfl)
      exact run_to there (.silent (.reset (phase_atomic at')))
  | returning op rc =>
      exact run_to (atomic_goto rfl rfl (monitor.isSet_goto at' rfl))
        (.shows (.ret (phase_atomic at')))

/-- A sleeper that wakes or whose time is over shows nothing, and changes nothing that is
set. -/
theorem Monitor.isSet_leave (monitor : e.Monitor) (asleep : (e.points t).isAsleep = true) :
    (e.leave t q).isSet = e.isSet :=
  monitor.isSet_goto (q := q) rfl (not_holds asleep)

theorem Monitor.wake_atomic (monitor : e.Monitor) (listed : t ∈ e.sleepers) :
    (e.leave t (e.points t).wake).atomic = e.atomic :=
  atomic_same rfl rfl rfl (phase_wake _) (monitor.isSet_leave ((monitor.sleepers t).mp listed))

theorem broadcast_atomic : e.broadcast.atomic = e.atomic := by
  have taking : e.broadcast.taking = e.taking := by
    unfold NeosmartEvent.taking
    show (match e.mutex with
      | some t => (e.points t).wake.isStore
      | none => false) = _
    simp only [isStore_wake]
  have phases : (fun t => (e.broadcast.points t).phase) = fun t => (e.points t).phase := by
    funext t
    exact phase_wake _
  simp only [atomic, phases, isSet, taking]
  rfl

/-- The end of `SetEvent`: who it wakes is not seen. -/
theorem signalled_atomic (monitor : e.Monitor) (at' : e.points t = .setSignal) :
    (e.goto t (.returning .set 0)).atomic = e.atomic :=
  atomic_same rfl rfl at' rfl (monitor.isSet_goto at' rfl)

theorem next_atomic {step : EventStep} (monitor : e.Monitor) (enabled : e.Enabled step) :
    Run AtomicEvent.machine e.atomic (e.shows step).toList (e.next step).atomic := by
  cases step with
  | call t op =>
      have pending : (enter op).phase = .pending op false := by cases op <;> rfl
      have there := atomic_goto (e := e) (q := enter op) rfl rfl (monitor.isSet_goto enabled rfl)
      rw [pending] at there
      exact run_to there (.shows (.call op (phase_atomic enabled)))
  | access t => exact access_atomic monitor enabled
  | expire t =>
      obtain ⟨ms, asleep, finite⟩ := enabled
      simp only [next, asleep]
      exact run_to (atomic_goto rfl rfl (monitor.isSet_leave (by rw [asleep]; rfl)))
        (.silent (.timeout (phase_atomic asleep) finite))
  | spurious t => exact run_same (monitor.wake_atomic enabled)
  | signal t target =>
      obtain ⟨signals, awake⟩ := enabled
      refine run_same ?_
      simp only [next]
      split
      · cases target with
        | none => exact signalled_atomic monitor signals
        | some u =>
            have other : t ≠ u := by
              rintro rfl
              have asleep := (monitor.sleepers t).mp awake
              rw [signals] at asleep
              cases asleep
            have there : (e.leave u (e.points u).wake).points t = .setSignal :=
              (leave_of_ne other).trans signals
            exact (signalled_atomic (monitor.wake awake) there).trans (monitor.wake_atomic awake)
      · have there : e.broadcast.points t = .setSignal := by
          show (e.points t).wake = .setSignal
          rw [signals]
          rfl
        exact (signalled_atomic monitor.broadcast there).trans broadcast_atomic

theorem run_monitor {manualReset initialState : Bool} {shown : List EventAct}
    (run : Run machine (createEvent manualReset initialState) shown e) : e.Monitor := by
  refine run.invariant (P := Monitor) ?_ (createEvent_monitor manualReset initialState)
  rintro e act _ ⟨step, enabled, -, rfl⟩ monitor
  exact next_monitor monitor enabled

theorem atomic_createEvent (manualReset initialState : Bool) :
    (createEvent manualReset initialState).atomic = .create manualReset initialState := by
  simp [createEvent, atomic, isSet, taking, AtomicEvent.create, EventPoint.phase]

/-- Every run is a run of the flag. -/
theorem run_atomic {manualReset initialState : Bool} {shown : List EventAct}
    (run : Run machine (createEvent manualReset initialState) shown e) :
    Run AtomicEvent.machine (.create manualReset initialState) shown e.atomic := by
  have answer : ∀ ⦃e act d a⦄, machine e act d → (e.atomic = a ∧ e.Monitor) →
      ∃ b, Run AtomicEvent.machine a act.toList b ∧ (d.atomic = b ∧ d.Monitor) := by
    rintro e act _ _ ⟨step, enabled, rfl, rfl⟩ ⟨rfl, monitor⟩
    exact ⟨_, next_atomic monitor enabled, rfl, next_monitor monitor enabled⟩
  obtain ⟨a, behind, rfl, -⟩ := run.simulate answer
    ⟨atomic_createEvent manualReset initialState, createEvent_monitor manualReset initialState⟩
  exact behind

end Atomic

/-- One thread waits and falls asleep, another sets the event and wakes it, and both return. -/
def setOverWaiter : List EventStep :=
  .call 0 (.wait 5) :: List.replicate 5 (.access 0) ++
    .call 1 .set :: List.replicate 3 (.access 1) ++
      .signal 1 (some 0) :: .access 1 :: List.replicate 5 (.access 0)

theorem setOverWaiter_run : Run machine (createEvent false false)
    [.call 0 (.wait 5), .call 1 .set, .ret 1 .set 0, .ret 0 (.wait 5) 0]
    (setOverWaiter.foldl next (createEvent false false)) := by
  have allowed : Simulation.Allowed Enabled next (createEvent false false) setOverWaiter :=
    ⟨rfl, trivial, trivial, rfl, trivial, trivial, rfl, rfl, trivial, trivial,
      ⟨rfl, .head _⟩, trivial, rfl, trivial, trivial, trivial, trivial, trivial⟩
  exact Run.driven Enabled shows next allowed

/-- **An event is atomic.** Whatever calls and returns are seen of the threads, in any
interleaving of the accesses that `WaitForEvent`, `SetEvent` and `ResetEvent` make, with
waits that end early or time out at any moment, are calls and returns of a flag on which
each call takes effect at once; and it is that flag as the run leaves it. -/
theorem event_is_atomic (manualReset initialState : Bool) {shown : List EventAct}
    {e : NeosmartEvent} (run : Run machine (createEvent manualReset initialState) shown e) :
    Run AtomicEvent.machine (.create manualReset initialState) shown e.atomic :=
  run_atomic run

theorem event_is_atomic_setOverWaiter : Run AtomicEvent.machine (.create false false)
    [.call 0 (.wait 5), .call 1 .set, .ret 1 .set 0, .ret 0 (.wait 5) 0]
    (setOverWaiter.foldl next (createEvent false false)).atomic :=
  event_is_atomic false false setOverWaiter_run

end NeosmartEvent

end Teadfs
