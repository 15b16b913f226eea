/-
# Teadfs.Signals — every signal once, and nobody asleep past it

Two things a caller of `pevents.cpp` counts on. An event that resets itself is taken by one
wait for each time it is set: this is a matter of the flag the event is
(`NeosmartEvent.event_is_atomic`), and of adding up what its calls are owed.

The other the flag does not say: while it is set, a thread may still be asleep on the
condition variable, and has to be told. `SetEvent` signals after it has let the mutex go, a
wait that is woken may find that another was faster, and one that times out tells nobody.
`Roused` says who is on the way in each of these.
-/
import Mathlib.Algebra.BigOperators.Group.Finset.Basic
import Teadfs.Events

namespace Teadfs

set_option autoImplicit false

open Traces

/-! ## Taken once -/

/-- The waits that have returned with the event. -/
def waitsTaken (shown : List EventAct) : Nat :=
  shown.countP fun
    | .ret _ (.wait _) rc => decide (rc = 0)
    | _ => false

/-- The calls of `SetEvent`. -/
def setsCalled (shown : List EventAct) : Nat :=
  shown.countP fun
    | .call _ .set => true
    | _ => false

/-- What a call still counts for: a `SetEvent` that has not set the event, and a wait that has
it and has not returned. -/
def CallPhase.weight : CallPhase → Nat
  | .pending .set _ => 1
  | .done (.wait _) rc => if rc = 0 then 1 else 0
  | _ => 0

namespace AtomicEvent

/-- What has been taken, what can still be and what is being handed over is no more than what
was set. `busy` has every thread that is in a call. -/
def Accounted (initial : Nat) (shown : List EventAct) (a : AtomicEvent) : Prop :=
  a.autoReset = true ∧ ∃ busy : Finset Nat, (∀ t, a.phase t ≠ .idle → t ∈ busy) ∧
    waitsTaken shown + ∑ t ∈ busy, (a.phase t).weight + a.set.toNat ≤ initial + setsCalled shown

variable {a : AtomicEvent} {t : Nat} {shown : List EventAct}

/-- What a step of `t` changes in the sum is what it changes at `t`. -/
theorem sum_goto {busy : Finset Nat} (listed : t ∈ busy) (phase : CallPhase) :
    ∑ u ∈ busy, ((a.goto t phase).phase u).weight + (a.phase t).weight =
      ∑ u ∈ busy, (a.phase u).weight + phase.weight := by
  have after := Finset.sum_erase_add busy (fun u => ((a.goto t phase).phase u).weight) listed
  have before := Finset.sum_erase_add busy (fun u => (a.phase u).weight) listed
  have elsewhere : ∑ u ∈ busy.erase t, ((a.goto t phase).phase u).weight =
      ∑ u ∈ busy.erase t, (a.phase u).weight := by
    refine Finset.sum_congr rfl fun u other => ?_
    rw [goto_phase_of_ne (Finset.ne_of_mem_erase other)]
  rw [elsewhere, goto_phase_self] at after
  omega

/-- A step of `t` that keeps the account at `t` keeps it. -/
theorem Accounted.goto {initial : Nat} {more : List EventAct} {phase : CallPhase} {set : Bool}
    (accounted : a.Accounted initial shown)
    (here : waitsTaken more + phase.weight + set.toNat + setsCalled shown ≤
      waitsTaken shown + (a.phase t).weight + a.set.toNat + setsCalled more) :
    Accounted initial more { a.goto t phase with set := set } := by
  obtain ⟨auto, busy, listed, most⟩ := accounted
  refine ⟨auto, insert t busy, ?_, ?_⟩
  · intro u active
    by_cases same : u = t
    · subst same
      exact Finset.mem_insert_self u busy
    · refine Finset.mem_insert_of_mem (listed u fun idle => active ?_)
      exact (goto_phase_of_ne same).trans idle
  · have idle : ∑ u ∈ insert t busy, (a.phase u).weight = ∑ u ∈ busy, (a.phase u).weight := by
      refine (Finset.sum_subset (Finset.subset_insert t busy) ?_).symm
      intro u _ absent
      have out : a.phase u = .idle := by
        by_contra active
        exact absent (listed u active)
      rw [out]
      rfl
    have moved := sum_goto (a := a) (Finset.mem_insert_self t busy) phase
    show waitsTaken more + ∑ u ∈ insert t busy, ((a.goto t phase).phase u).weight + set.toNat ≤ _
    omega

theorem machine_accounted {initial : Nat} {act : Option EventAct} {b : AtomicEvent}
    (step : machine a act b) (accounted : a.Accounted initial shown) :
    b.Accounted initial (shown ++ act.toList) := by
  have auto : a.autoReset = true := accounted.1
  cases step with
  | call op idle =>
      refine accounted.goto ?_
      cases op with
      | set => simp [waitsTaken, setsCalled, CallPhase.weight, idle]; omega
      | wait ms => simp [waitsTaken, setsCalled, CallPhase.weight, idle]
      | reset => simp [waitsTaken, setsCalled, CallPhase.weight, idle]
  | set pending =>
      refine accounted.goto ?_
      simp [CallPhase.weight, pending]
  | reset pending =>
      refine accounted.goto ?_
      simp [CallPhase.weight, pending]
  | take pending isSet =>
      refine accounted.goto ?_
      simp [CallPhase.weight, pending, isSet, auto]
  | sawUnset pending unset =>
      refine accounted.goto ?_
      rename_i op saw
      cases op <;> simp [CallPhase.weight, pending]
  | timeout pending finite =>
      refine accounted.goto ?_
      simp [CallPhase.weight, pending, waitTimeout]
  | ret done =>
      refine accounted.goto ?_
      rename_i op rc
      cases op with
      | wait ms =>
          by_cases zero : rc = 0
          · simp [waitsTaken, setsCalled, CallPhase.weight, done, zero]
          · simp [waitsTaken, setsCalled, CallPhase.weight, done, zero]
      | set => simp [waitsTaken, setsCalled, CallPhase.weight, done]
      | reset => simp [waitsTaken, setsCalled, CallPhase.weight, done]

theorem run_accounted {initialState : Bool}
    (run : Run machine (create false initialState) shown a) :
    a.Accounted initialState.toNat shown := by
  refine run.shown_invariant (P := Accounted initialState.toNat) ?_ ⟨rfl, ∅, ?_, ?_⟩
  · intro shown a act b step accounted
    exact machine_accounted step accounted
  · exact fun t active => absurd rfl active
  · simp [create, waitsTaken]

end AtomicEvent

namespace NeosmartEvent

/-- **No signal is taken twice.** In every run of an event that resets itself, the waits that
have returned with the event are no more than the calls of `SetEvent`, and one if it was set
from the start. -/
theorem waits_taken_at_most_set (initialState : Bool) {shown : List EventAct} {e : NeosmartEvent}
    (run : Run machine (createEvent false initialState) shown e) :
    waitsTaken shown ≤ initialState.toNat + setsCalled shown := by
  obtain ⟨-, busy, -, most⟩ := AtomicEvent.run_accounted (run_atomic run)
  omega

theorem waits_taken_at_most_set_setOverWaiter :
    waitsTaken [.call 0 (.wait 5), .call 1 .set, .ret 1 .set 0, .ret 0 (.wait 5) 0] ≤
      false.toNat + setsCalled [.call 0 (.wait 5), .call 1 .set, .ret 1 .set 0, .ret 0 (.wait 5) 0] :=
  waits_taken_at_most_set false setOverWaiter_run

end NeosmartEvent

/-! ## Nobody sleeps past a signal -/

/-- A thread at this point sees to the sleepers: it is about to signal, or has been woken
itself and takes the event if it is there. -/
def EventPoint.rouses (autoReset : Bool) : EventPoint → Bool
  | .setUnlock => true
  | .setSignal => true
  | .woken _ => autoReset
  | .recheck _ => autoReset
  | .store _ => autoReset
  | _ => false

namespace NeosmartEvent

/-- While the flag is set and someone sleeps, someone is on the way. -/
def Roused (e : NeosmartEvent) : Prop :=
  e.state = true → e.sleepers ≠ [] → ∃ t, (e.points t).rouses e.autoReset = true

section Rousing

variable {e d : NeosmartEvent} {t : Nat} {p q : EventPoint}

theorem roused_of_unset (unset : e.state = false) : e.Roused := by
  intro set
  rw [unset] at set
  cases set

theorem roused_of_rouses (rouses : (e.points t).rouses e.autoReset = true) : e.Roused :=
  fun _ _ => ⟨t, rouses⟩

/-- A step of `t` that adds nobody to the sleepers and does not set the flag: whoever was on
the way still is, and so is `t` if it was. -/
theorem Roused.goto (roused : e.Roused) (at' : e.points t = p)
    (points : d.points = (e.goto t q).points) (kind : d.autoReset = e.autoReset)
    (state : d.state = true → e.state = true) (sleepers : d.sleepers ≠ [] → e.sleepers ≠ [])
    (goesOn : p.rouses e.autoReset = true → q.rouses e.autoReset = true) : d.Roused := by
  intro set asleep
  obtain ⟨u, rouses⟩ := roused (state set) (sleepers asleep)
  refine ⟨u, ?_⟩
  rw [points, kind]
  by_cases same : u = t
  · subst same
    rw [at'] at rouses
    rw [goto_self]
    exact goesOn rouses
  · rw [goto_of_ne same]
    exact rouses

/-- A step of a thread that was not on the way. -/
theorem Roused.pass (roused : e.Roused) (at' : e.points t = p)
    (points : d.points = (e.goto t q).points) (kind : d.autoReset = e.autoReset)
    (state : d.state = e.state) (sleepers : d.sleepers = e.sleepers)
    (idle : p.rouses e.autoReset = false) : d.Roused :=
  roused.goto at' points kind (by rw [state]; exact id) (by rw [sleepers]; exact id)
    (by simp [idle])

theorem access_roused (monitor : e.Monitor) (roused : e.Roused) : (e.access t).Roused := by
  unfold access
  cases at' : e.points t with
  | out => exact roused
  | asleep ms => exact roused
  | setSignal => exact roused
  | fastTest ms =>
      dsimp only
      split
      · exact roused.pass at' rfl rfl rfl rfl rfl
      · exact roused.pass at' rfl rfl rfl rfl rfl
  | manualLoad ms =>
      dsimp only
      split
      · exact roused.pass at' rfl rfl rfl rfl rfl
      · exact roused.pass at' rfl rfl rfl rfl rfl
  | manualAgain ms =>
      dsimp only
      split
      · exact roused.pass at' rfl rfl rfl rfl rfl
      · exact roused.pass at' rfl rfl rfl rfl rfl
  | waitLock ms => exact roused.pass at' rfl rfl rfl rfl rfl
  | expired ms => exact roused.pass at' rfl rfl rfl rfl rfl
  | setLock => exact roused.pass at' rfl rfl rfl rfl rfl
  | waitUnlock ms rc => exact roused.pass at' rfl rfl rfl rfl rfl
  | returning op rc => exact roused.pass at' rfl rfl rfl rfl rfl
  | waitTest ms =>
      dsimp only
      split_ifs
      · exact roused.pass at' rfl rfl rfl rfl rfl
      · exact roused.pass at' rfl rfl rfl rfl rfl
      · exact roused.pass at' rfl rfl rfl rfl rfl
      · exact roused.pass at' rfl rfl rfl rfl rfl
  | woken ms => exact roused.goto at' rfl rfl id id id
  | recheck ms =>
      dsimp only
      split_ifs with set auto
      · exact roused.goto at' rfl rfl id id id
      · exact roused.pass at' rfl rfl rfl rfl (Bool.eq_false_iff.mpr auto)
      · exact roused_of_unset (Bool.eq_false_iff.mpr set)
  | sleep ms => exact roused_of_unset (monitor.unset t (by rw [at']; rfl))
  | store ms => exact roused_of_unset rfl
  | resetStore => exact roused_of_unset rfl
  | setStore =>
      refine roused_of_rouses (t := t) ?_
      show ((e.goto t .setUnlock).points t).rouses _ = true
      rw [goto_self]
      rfl
  | setUnlock => exact roused.goto at' rfl rfl id id id

theorem isAsleep_not_rouses (asleep : p.isAsleep = true) (autoReset : Bool) :
    p.rouses autoReset = false := by
  cases p <;> first | rfl | cases asleep

/-- A sleeper leaves: those on the way were others. -/
theorem Roused.leave (roused : e.Roused) (asleep : (e.points t).isAsleep = true) :
    (e.leave t q).Roused := by
  refine roused.goto rfl rfl rfl id ?_ (by simp [isAsleep_not_rouses asleep])
  intro some none
  exact some (by simp [NeosmartEvent.leave, none])

theorem next_roused {step : EventStep} (monitor : e.Monitor) (roused : e.Roused)
    (enabled : e.Enabled step) : (e.next step).Roused := by
  cases step with
  | call t op =>
      have out : e.points t = .out := enabled
      exact roused.pass out rfl rfl rfl rfl rfl
  | access t => exact access_roused monitor roused
  | expire t =>
      obtain ⟨ms, asleep, -⟩ := enabled
      simp only [next, asleep]
      exact roused.leave (by rw [asleep]; rfl)
  | spurious t => exact roused.leave ((monitor.sleepers t).mp enabled)
  | signal t target =>
      obtain ⟨signals, awake⟩ := enabled
      simp only [next]
      split_ifs with auto
      · cases target with
        | none =>
            intro _ some
            exact absurd (awake.resolve_right (by simp [auto])) some
        | some u =>
            -- the one that is woken is on the way now
            have asleep := (monitor.sleepers u).mp awake
            have other : u ≠ t := by
              rintro rfl
              rw [signals] at asleep
              cases asleep
            refine roused_of_rouses (t := u) ?_
            rw [goto_of_ne other, NeosmartEvent.leave, goto_autoReset]
            show ((e.goto u _).points u).rouses e.autoReset = true
            rw [goto_self, auto]
            cases at' : e.points u <;> first | rfl | (rw [at'] at asleep; cases asleep)
      · intro _ some
        exact absurd rfl some

theorem run_roused {manualReset initialState : Bool} {shown : List EventAct}
    (run : Run machine (createEvent manualReset initialState) shown e) : e.Roused := by
  refine (run.invariant (P := fun e => e.Monitor ∧ e.Roused) ?_
    ⟨createEvent_monitor manualReset initialState, fun _ some => absurd rfl some⟩).2
  rintro e act _ ⟨step, enabled, -, rfl⟩ ⟨monitor, roused⟩
  exact ⟨next_monitor monitor enabled, next_roused monitor roused enabled⟩

/-- Thread `t` can go on: with an access, or with its signal. -/
def CanGoOn (e : NeosmartEvent) (t : Nat) : Prop :=
  e.AccessEnabled t ∨ ∃ target, e.Enabled (.signal t target)

theorem canGoOn_of_holds (held : (e.points t).holds = true) : e.CanGoOn t := by
  refine .inl ?_
  unfold AccessEnabled
  cases at' : e.points t <;> first | trivial | (rw [at'] at held; cases held)

/-- A thread on the way can go on, or the owner of the mutex can. -/
theorem Monitor.rouser_goes_on (monitor : e.Monitor)
    (rouses : (e.points t).rouses e.autoReset = true) :
    ∃ u, (u = t ∨ e.mutex = some u) ∧ e.CanGoOn u := by
  cases owner : e.mutex with
  | some u => exact ⟨u, .inr rfl, canGoOn_of_holds ((monitor.owner u).mp owner)⟩
  | none =>
      refine ⟨t, .inl rfl, ?_⟩
      cases at' : e.points t with
      | setSignal =>
          refine .inr ?_
          cases asleep : e.sleepers with
          | nil => exact ⟨none, at', .inl asleep⟩
          | cons u rest => exact ⟨some u, at', by rw [asleep]; exact .head _⟩
      | woken ms =>
          refine .inl ?_
          unfold AccessEnabled
          rw [at']
          exact owner
      | _ =>
          have free := monitor.free owner t
          rw [at'] at free rouses
          first | (cases rouses; done) | cases free

end Rousing

/-- The run after which one thread sleeps and another has set the flag. -/
def setOverSleeper : List EventStep :=
  .call 0 (.wait 5) :: List.replicate 5 (.access 0) ++ .call 1 .set :: List.replicate 2 (.access 1)

theorem setOverSleeper_run : Run machine (createEvent false false)
    [.call 0 (.wait 5), .call 1 .set] (setOverSleeper.foldl next (createEvent false false)) := by
  have allowed : Simulation.Allowed Enabled next (createEvent false false) setOverSleeper :=
    ⟨rfl, trivial, trivial, rfl, trivial, trivial, rfl, rfl, trivial, trivial⟩
  exact Run.driven Enabled shows next allowed

/-- **Nobody sleeps past a signal.** In every run, while the event is set and a thread sleeps
on it, another thread is in `SetEvent` and about to wake it, or has been woken in its place
and not yet taken the event; and that thread can go on, or the owner of the mutex can. -/
theorem no_lost_wakeup (manualReset initialState : Bool) {shown : List EventAct}
    {e : NeosmartEvent} (run : Run machine (createEvent manualReset initialState) shown e)
    (isSet : e.isSet = true) {t : Nat} (asleep : (e.points t).isAsleep = true) :
    ∃ u ≠ t, (e.points u).rouses e.autoReset = true ∧
      ∃ v, (v = u ∨ e.mutex = some v) ∧ e.CanGoOn v := by
  have monitor := run_monitor run
  have set : e.state = true := by
    cases state : e.state with
    | true => rfl
    | false =>
        rw [isSet_of_unset state] at isSet
        cases isSet
  have listed : e.sleepers ≠ [] := List.ne_nil_of_mem ((monitor.sleepers t).mpr asleep)
  obtain ⟨u, rouses⟩ := run_roused run set listed
  refine ⟨u, ?_, rouses, monitor.rouser_goes_on rouses⟩
  rintro rfl
  rw [isAsleep_not_rouses asleep] at rouses
  cases rouses

theorem no_lost_wakeup_setOverSleeper :
    ∃ u ≠ 0, ((setOverSleeper.foldl next (createEvent false false)).points u).rouses true = true ∧
      ∃ v, (v = u ∨ (setOverSleeper.foldl next (createEvent false false)).mutex = some v) ∧
        (setOverSleeper.foldl next (createEvent false false)).CanGoOn v :=
  no_lost_wakeup false false setOverSleeper_run rfl (t := 0) rfl

end NeosmartEvent

end Teadfs
