/-
# Teadfs.PoolFlags — the pool over its events is the pool over flags

The pool shows nothing over the events of `pevents.cpp` that it would not show with flags taken
at once, so what is known of the runs of `Teadfs.ThreadPool` holds of the pool as it is built
(`pool_on_events`).

The events can be replaced by flags with calls and returns (`Run.replace`). From there the run
is followed backward. `SetEvent` and a wait that takes the event are steps of the flags when they
have their effect. A wait that times out is such a step when it has seen its event unset,
and then the event may be set before the wait knows that its time is over: which of the waits
that saw it unset time out is known from the end of the run only (`Early`).
-/
import Teadfs.PoolEvents

namespace Teadfs

set_option autoImplicit false

open Traces

/-- What the call that is done will return. -/
def CallPhase.result : CallPhase → Option Int
  | .done _ rc => some rc
  | _ => none

/-! ## The flags taken at once -/

/-- The worker as one whose wait is over with its effect on the event, and not with its return.
With `early` its time is over although the event does not know it yet. -/
def ThreadWork.seen {τ : Type} (worker : ThreadWork τ) (event : AtomicEvent) (early : Bool) :
    ThreadWork τ :=
  { worker with
    event := event.set
    point :=
      if early then .timedOut
      else match (event.phase 0).result with
        | some rc => if rc = waitTimeout then .timedOut else .loopTest
        | none => worker.point }

namespace ThreadPool

variable {τ : Type}

/-- The dispatcher likewise. -/
def seenDispatch (s : ThreadPool τ) (events : PoolEvent → AtomicEvent) : Dispatch :=
  match ((events .pool).phase 0).result with
  | some rc => if rc = waitTimeout then .waiting else .scan s.pool none
  | none =>
      match s.dispatch with
      | .wake w => if ((events (.worker w)).phase 1).result.isSome then .waiting else .wake w
      | dispatch => dispatch

/-- The pool with its flags. -/
def seen (s : ThreadPool τ) (events : PoolEvent → AtomicEvent) (early : Nat → Bool) :
    ThreadPool τ where
  tasks := s.tasks
  adding := s.adding.filter fun c => ((events .pool).phase (c + 1)).result.isNone
  event := (events .pool).set
  dispatch := s.seenDispatch events
  pool := s.pool
  workers w := (s.workers w).seen (events (.worker w)) (early w)
  created := s.created

/-- Those whose time is over early have seen their event unset. -/
def Early (events : PoolEvent → AtomicEvent) (early : Nat → Bool) : Prop :=
  ∀ w, early w = true →
    (events (.worker w)).phase 0 = .pending (.wait timeoutInterval) true

variable {s : ThreadPool τ} {events events' : PoolEvent → AtomicEvent} {early : Nat → Bool}

theorem Early.not_told (valid : Early events early) {w : Nat}
    (other : (events (.worker w)).phase 0 ≠ .pending (.wait timeoutInterval) true) :
    early w = false := by
  cases told : early w with
  | false => rfl
  | true => exact absurd (valid w told) other

theorem seen_congr (sets : ∀ i, (events' i).set = (events i).set)
    (results : ∀ i t, ((events' i).phase t).result = ((events i).phase t).result) :
    s.seen events' early = s.seen events early := by
  simp only [seen, seenDispatch, ThreadWork.seen, sets, results]

theorem result_of_op {phase : CallPhase} (none : phase.op = .none) : phase.result = .none := by
  cases phase with
  | idle => rfl
  | pending op saw => rfl
  | done op rc => cases none

/-- What is not called on has no result. -/
theorem Tied.no_result (tied : s.Tied events) {i : PoolEvent} {t : Nat}
    (noCall : ∀ op, ¬ s.Calls i t op) : ((events i).phase t).op = none := by
  cases calls : ((events i).phase t).op with
  | none => rfl
  | some op => exact absurd (tied.calls i t op calls) (noCall op)

variable {k : PoolEvent} {t : Nat} {phase : CallPhase}

/-- Nothing is seen of a step in which no call gets its result, and the flag stays. -/
theorem Moved.seen (moved : Moved events events' k t phase)
    (set : (events' k).set = (events k).set)
    (result : phase.result = ((events k).phase t).result) :
    s.seen events' early = s.seen events early := by
  refine seen_congr (fun i => ?_) fun i u => ?_
  · by_cases here : i = k
    · subst here
      exact set
    · exact moved.sets i here
  · by_cases here : i = k ∧ u = t
    · obtain ⟨rfl, rfl⟩ := here
      rw [moved.here, result]
    · rw [moved.others i u here]

/-- Those whose time is over early were so before a step that is none of their waits'. -/
theorem Moved.early_before (moved : Moved events events' k t phase) (valid : Early events' early)
    (done : ∀ w, .worker w = k ∧ 0 = t → early w = true →
      phase ≠ .pending (.wait timeoutInterval) true) : Early events early := by
  intro w told
  have pending := valid w told
  by_cases here : .worker w = k ∧ 0 = t
  · have none := done w here told
    obtain ⟨rfl, rfl⟩ := here
    rw [moved.here] at pending
    exact absurd pending none
  · rwa [moved.others _ _ here] at pending

theorem eq_of_fields {s t : ThreadPool τ} (tasks : s.tasks = t.tasks)
    (adding : s.adding = t.adding) (event : s.event = t.event)
    (dispatch : s.dispatch = t.dispatch) (pool : s.pool = t.pool)
    (workers : ∀ w, s.workers w = t.workers w) (created : s.created = t.created) : s = t := by
  obtain ⟨_, _, _, _, _, _, _⟩ := s
  obtain ⟨_, _, _, _, _, _, _⟩ := t
  obtain rfl := funext workers
  cases tasks
  cases adding
  cases event
  cases dispatch
  cases pool
  cases created
  rfl

theorem seenDispatch_done {rc : Int} (done : ((events .pool).phase 0).result = some rc) :
    s.seenDispatch events = if rc = waitTimeout then .waiting else .scan s.pool none := by
  rw [seenDispatch, done]

theorem seenDispatch_same (pending : ((events .pool).phase 0).result = none)
    (apart : s.dispatch.waking = false) : s.seenDispatch events = s.dispatch := by
  rw [seenDispatch, pending]
  cases dispatch : s.dispatch with
  | wake w =>
      rw [dispatch] at apart
      cases apart
  | _ => rfl

theorem seenDispatch_wake {w : Nat} (pending : ((events .pool).phase 0).result = none)
    (wakes : s.dispatch = .wake w) :
    s.seenDispatch events =
      if ((events (.worker w)).phase 1).result.isSome then .waiting else .wake w := by
  rw [seenDispatch, pending, wakes]

/-- The dispatcher is not in a wait that is done, unless it waits. -/
theorem Tied.pool_result (tied : s.Tied events) (busy : s.dispatch ≠ .waiting) :
    ((events .pool).phase 0).result = none :=
  result_of_op (tied.no_result fun _ calls => busy calls.1)

/-- A worker is not in a wait, unless it waits. -/
theorem Tied.worker_result (tied : s.Tied events) {w : Nat}
    (apart : (s.workers w).point ≠ .wait) :
    ((events (.worker w)).phase 0).op = none :=
  tied.no_result fun _ calls => apart calls.1

/-! What a move of one thread leaves as it was. -/

theorem Moved.adding (moved : Moved events events' k t phase) (other : ¬ (.pool = k ∧ t ≠ 0))
    (adding : List Nat) :
    adding.filter (fun c => ((events' .pool).phase (c + 1)).result.isNone) =
      adding.filter (fun c => ((events .pool).phase (c + 1)).result.isNone) := by
  refine List.filter_congr fun c _ => ?_
  rw [moved.others .pool (c + 1) fun both => other ⟨both.1, both.2 ▸ Nat.succ_ne_zero c⟩]

theorem Moved.dispatch (moved : Moved events events' k t phase)
    (waits : ¬ (.pool = k ∧ 0 = t)) (wakes : ∀ w, ¬ (.worker w = k ∧ 1 = t)) (s : ThreadPool τ) :
    s.seenDispatch events' = s.seenDispatch events := by
  simp only [seenDispatch, moved.others .pool 0 waits, moved.others (.worker _) 1 (wakes _)]

theorem Moved.worker (moved : Moved events events' k t phase) {w : Nat}
    (other : ¬ (.worker w = k ∧ 0 = t))
    (set : (events' (.worker w)).set = (events (.worker w)).set) (worker : ThreadWork τ)
    (early : Bool) :
    worker.seen (events' (.worker w)) early = worker.seen (events (.worker w)) early := by
  simp only [ThreadWork.seen, set, moved.others (.worker w) 0 other]

theorem Moved.workers (moved : Moved events events' .pool t phase) (w : Nat) :
    (s.workers w).seen (events' (.worker w)) (early w) =
      (s.workers w).seen (events (.worker w)) (early w) :=
  moved.worker (fun both => (by cases both.1)) (moved.sets _ fun same => (by cases same)) _ _

theorem Moved.other_worker {v w : Nat} (moved : Moved events events' (.worker w) t phase)
    (other : v ≠ w) (worker : ThreadWork τ) (early : Bool) :
    worker.seen (events' (.worker v)) early = worker.seen (events (.worker v)) early :=
  moved.worker (fun both => other (by injection both.1))
    (moved.sets _ fun same => other (by injection same)) _ _

theorem Moved.adding_worker {w : Nat} (moved : Moved events events' (.worker w) t phase)
    (adding : List Nat) :
    adding.filter (fun c => ((events' .pool).phase (c + 1)).result.isNone) =
      adding.filter (fun c => ((events .pool).phase (c + 1)).result.isNone) :=
  moved.adding (fun both => (by cases both.1)) adding

theorem Moved.flag_pool {w : Nat} (moved : Moved events events' (.worker w) t phase) :
    (events' .pool).set = (events .pool).set :=
  moved.sets _ fun same => (by cases same)

theorem Moved.dispatch_worker {w : Nat} (moved : Moved events events' (.worker w) 0 phase)
    (s : ThreadPool τ) : s.seenDispatch events' = s.seenDispatch events :=
  moved.dispatch (fun both => (by cases both.1)) (fun _ both => (by cases both.2)) s

theorem Moved.dispatch_adder {c : Nat} (moved : Moved events events' .pool (c + 1) phase)
    (s : ThreadPool τ) : s.seenDispatch events' = s.seenDispatch events :=
  moved.dispatch (fun both => (by cases both.2)) (fun _ both => (by cases both.1)) s

/-- A return is no step of the pool with flags: its effect was one. -/
theorem Moved.seen_return (moved : Moved events events' k t .idle) (tied : s.Tied events)
    {op : EventCall} {rc : Int} (mine : s.Calls k t op) (done : (events k).phase t = .done op rc)
    (set : (events' k).set = (events k).set) (valid : Early events' early) :
    (s.returned rc k t).seen events' early = s.seen events early := by
  have result : ((events k).phase t).result = some rc := by
    rw [done]
    rfl
  have idle : ((events' k).phase t).result = none := by
    rw [moved.here]
    rfl
  match k, t, mine with
  | .pool, 0, mine =>
      have adding := moved.adding (fun both => both.2 rfl) s.adding
      by_cases timeout : rc = waitTimeout
      · have same : s.returned rc .pool 0 = s := if_pos timeout
        rw [same]
        refine eq_of_fields rfl adding set ?_ rfl moved.workers rfl
        show s.seenDispatch events' = s.seenDispatch events
        rw [seenDispatch_same idle (by rw [mine.1]; rfl), seenDispatch_done result, if_pos timeout,
          mine.1]
      · have same : s.returned rc .pool 0 = { s with dispatch := .scan s.pool none } :=
          if_neg timeout
        rw [same]
        refine eq_of_fields rfl adding set ?_ rfl moved.workers rfl
        show seenDispatch { s with dispatch := .scan s.pool none } events' = s.seenDispatch events
        rw [seenDispatch_same idle rfl, seenDispatch_done result, if_neg timeout]
  | .pool, c + 1, mine =>
      refine eq_of_fields rfl ?_ set (moved.dispatch_adder s) rfl moved.workers rfl
      show (s.adding.erase c).filter _ = s.adding.filter _
      rw [tied.adding.erase_eq_filter, List.filter_filter]
      refine List.filter_congr fun d _ => ?_
      by_cases same : d = c
      · subst same
        simp [result]
      · rw [moved.others .pool (d + 1) fun both => same (Nat.succ.inj both.2)]
        simp [same]
  | .worker w, 0, mine =>
      have notEarly : early w = false :=
        valid.not_told (by rw [moved.here]; exact fun same => (by cases same))
      refine eq_of_fields rfl (moved.adding_worker s.adding) moved.flag_pool
        (moved.dispatch_worker s) rfl (fun v => ?_) rfl
      show ((s.setWorker w _).workers v).seen (events' (.worker v)) (early v) =
        (s.workers v).seen (events (.worker v)) (early v)
      by_cases same : v = w
      · subst same
        rw [setWorker_self]
        simp only [ThreadWork.seen, notEarly, idle, result, set]
      · rw [setWorker_of_ne s same]
        exact moved.other_worker same _ _
  | .worker w, 1, mine =>
      have busy : s.dispatch ≠ .waiting := by
        rw [mine.1]
        exact fun same => (by cases same)
      have pending : ((events' .pool).phase 0).result = none := by
        rw [moved.others .pool 0 fun both => (by cases both.1)]
        exact tied.pool_result busy
      refine eq_of_fields rfl (moved.adding_worker s.adding) moved.flag_pool ?_ rfl
        (fun v => ?_) rfl
      · show seenDispatch { s with dispatch := .waiting } events' = s.seenDispatch events
        rw [seenDispatch_same pending rfl, seenDispatch_wake (tied.pool_result busy) mine.1, result]
        rfl
      · show (s.workers v).seen (events' (.worker v)) (early v) = _
        refine moved.worker (fun both => (by cases both.2)) ?_ _ _
        by_cases same : v = w
        · subst same
          exact set
        · exact moved.sets _ fun other => same (by injection other)

/-! ### Steps that are none of an event -/

theorem runnable_event {tasks : List τ} {worker : ThreadWork τ} (apart : worker.point ≠ .wait)
    (event : Bool) :
    runnable tasks { worker with event := event } =
      ((runnable tasks worker).1, { (runnable tasks worker).2 with event := event }) := by
  obtain ⟨point, status, bExit, before, repeatCount, ptrTask⟩ := worker
  cases point with
  | wait => exact absurd rfl apart
  | _ => rfl

/-- A worker outside of its wait is seen as it is. -/
theorem Tied.not_early (tied : s.Tied events) (valid : Early events early) {w : Nat}
    (apart : (s.workers w).point ≠ .wait) :
    early w = false ∧ ((events (.worker w)).phase 0).result = none := by
  have noCall := tied.worker_result apart
  refine ⟨valid.not_told fun waits => ?_, result_of_op noCall⟩
  rw [waits] at noCall
  cases noCall

theorem seen_apart {worker : ThreadWork τ} {event : AtomicEvent}
    (pending : (event.phase 0).result = none) :
    worker.seen event false = { worker with event := event.set } := by
  rw [ThreadWork.seen, pending]
  rfl

/-- A step of both. -/
theorem seen_takes {s' : ThreadPool τ} (act : Option (PoolAct τ)) (step : PoolStep τ)
    (enabled : s.Enabled step) (shows : s.shows step = act) (next : s.next step = s') :
    Run machine s act.toList s' := by
  have taken : machine s act s' := ⟨step, enabled, shows.symm, next.symm⟩
  exact Run.tail .refl taken

theorem seen_push (tied : s.Tied events) {c : Nat} {task : τ} (enabled : c ∉ s.adding) :
    Run machine (s.seen events early) [.pushed c task]
      ((s.next (.push c task)).seen events early) := by
  have pending : ((events .pool).phase (c + 1)).result = none :=
    result_of_op (tied.no_result fun _ calls => enabled calls.1)
  refine seen_takes (some _) (.push c task)
    (fun listed => enabled (List.mem_of_mem_filter listed)) rfl ?_
  exact eq_of_fields rfl (List.filter_cons_of_pos (by rw [pending]; rfl)).symm rfl rfl rfl
    (fun _ => rfl) rfl

theorem seen_work (tied : s.Tied events) (valid : Early events early) {w : Nat}
    (apart : (s.workers w).point ≠ .wait) (enabled : s.Enabled (.work w)) :
    Run machine (s.seen events early) (s.shows (.work w)).toList
      ((s.next (.work w)).seen events early) := by
  obtain ⟨notEarly, pending⟩ := tied.not_early valid apart
  have here : (s.seen events early).workers w =
      { s.workers w with event := (events (.worker w)).set } := by
    show (s.workers w).seen (events (.worker w)) (early w) = _
    rw [notEarly, seen_apart pending]
  have run : runnable (s.seen events early).tasks ((s.seen events early).workers w) =
      ((runnable s.tasks (s.workers w)).1,
        { (runnable s.tasks (s.workers w)).2 with event := (events (.worker w)).set }) := by
    rw [here]
    exact runnable_event apart _
  refine seen_takes _ (.work w) ?_ ?_ ?_
  · refine ⟨enabled.1, ?_, ?_⟩
    · rw [here]
      exact enabled.2.1
    · rw [here]
      exact fun wait => absurd wait apart
  · simp only [shows, here]
    rfl
  · refine eq_of_fields ?_ rfl rfl rfl rfl (fun v => ?_) rfl
    · show (runnable _ _).1 = _
      rw [run]
      rfl
    · show ((s.seen events early).setWorker w (runnable _ _).2).workers v =
        ((s.setWorker w (runnable s.tasks (s.workers w)).2).workers v).seen (events (.worker v))
          (early v)
      by_cases same : v = w
      · subst same
        rw [setWorker_self, setWorker_self, run, notEarly, seen_apart pending]
      · rw [setWorker_of_ne _ same, setWorker_of_ne _ same]
        rfl

theorem seen_look (tied : s.Tied events) (valid : Early events early)
    (looking : s.dispatch.looking = true) :
    Run machine (s.seen events early) [] (s.look.seen events early) := by
  have busy : s.dispatch ≠ .waiting := by
    intro same
    rw [same] at looking
    cases looking
  have pending := tied.pool_result busy
  have noWake : s.dispatch.waking = false := by
    cases dispatch : s.dispatch with
    | wake w =>
        rw [dispatch] at looking
        cases looking
    | _ => rfl
  have same : (s.seen events early).dispatch = s.dispatch := seenDispatch_same pending noWake
  have woken : ∀ w, ((events (.worker w)).phase 1).result = none := by
    intro w
    refine result_of_op (tied.no_result fun op calls => ?_)
    rw [calls.1] at looking
    cases looking
  refine seen_takes none .look ?_ rfl ?_
  · show (s.seen events early).dispatch.looking = true
    rwa [same]
  · show (s.seen events early).look = s.look.seen events early
    have statuses : ∀ w, ((s.seen events early).workers w).status = (s.workers w).status :=
      fun _ => rfl
    have unmade : (s.workers s.created).point ≠ .wait := fun waits =>
      absurd (tied.objects.made_of_waits waits) (Nat.lt_irrefl _)
    cases dispatch : s.dispatch with
    | waiting => exact absurd dispatch busy
    | wake w =>
        rw [dispatch] at noWake
        cases noWake
    | again w rest found =>
        rw [dispatch] at same
        simp only [look, same, dispatch, statuses]
        refine eq_of_fields rfl rfl rfl ?_ rfl (fun _ => rfl) rfl
        exact (seenDispatch_same pending rfl).symm
    | scan rest found =>
        rw [dispatch] at same
        cases rest with
        | cons w rest =>
            by_cases waits : (s.workers w).status = .wait
            · simp only [look, same, dispatch, statuses, waits, if_true]
              refine eq_of_fields rfl rfl rfl ?_ rfl (fun _ => rfl) rfl
              exact (seenDispatch_same pending rfl).symm
            · simp only [look, same, dispatch, statuses, waits, if_false]
              refine eq_of_fields rfl rfl rfl ?_ rfl (fun _ => rfl) rfl
              exact (seenDispatch_same pending rfl).symm
        | nil =>
            cases found with
            | some w =>
                simp only [look, same, dispatch]
                refine eq_of_fields rfl rfl rfl ?_ rfl (fun _ => rfl) rfl
                show Dispatch.wake w = seenDispatch { s with dispatch := .wake w } events
                rw [seenDispatch_wake (w := w) pending rfl, woken w]
                rfl
            | none =>
                simp only [look, same, dispatch]
                refine eq_of_fields rfl rfl rfl ?_ rfl (fun v => ?_) rfl
                · refine Eq.trans ?_ (seenDispatch_wake (w := s.created) pending rfl).symm
                  rw [woken]
                  rfl
                · show ((s.seen events early).setWorker s.created .create).workers v =
                    ((s.setWorker s.created .create).workers v).seen (events (.worker v)) (early v)
                  by_cases new : v = s.created
                  · subst new
                    obtain ⟨notEarly, noWait⟩ := tied.not_early valid unmade
                    rw [setWorker_self, setWorker_self, notEarly, seen_apart noWait,
                      tied.unset _ (Nat.le_refl _)]
                    rfl
                  · rw [setWorker_of_ne _ new, setWorker_of_ne _ new]
                    rfl

theorem seen_own (tied : s.Tied events) (valid : Early events early) {step : PoolStep τ}
    (apart : step.apart s) (enabled : s.Enabled step) :
    Run machine (s.seen events early) (s.shows step).toList ((s.next step).seen events early) := by
  cases step with
  | push c task => exact seen_push tied enabled
  | look => exact seen_look tied valid enabled
  | work w => exact seen_work tied valid apart enabled
  | _ => cases apart

/-! ### Steps of an event -/

/-- A run that goes nowhere. -/
theorem run_seen {a b : ThreadPool τ} (same : b = a) : Run machine a [] b := by
  rw [same]
  exact .refl

/-- `SetEvent` on the pool's event. -/
theorem seen_set_pool (tied : s.Tied events) {c : Nat} {saw : Bool}
    (moved : Moved events events' .pool (c + 1) (.done .set 0))
    (pending : (events .pool).phase (c + 1) = .pending .set saw)
    (isSet : (events' .pool).set = true) :
    Run machine (s.seen events early) [] (s.seen events' early) := by
  have calls : s.Calls .pool (c + 1) .set := tied.calls _ _ _ (by rw [pending]; rfl)
  have listed : c ∈ (s.seen events early).adding :=
    List.mem_filter.mpr ⟨calls.1, by rw [pending]; rfl⟩
  refine seen_takes none (.setEvent c) listed rfl ?_
  refine eq_of_fields rfl ?_ isSet.symm (moved.dispatch_adder s).symm rfl
    (fun w => (moved.workers w).symm) rfl
  show (s.adding.filter _).erase c = s.adding.filter _
  rw [(tied.adding.filter _).erase_eq_filter, List.filter_filter]
  refine List.filter_congr fun d _ => ?_
  by_cases same : d = c
  · subst same
    simp [moved.here, CallPhase.result]
  · rw [moved.others .pool (d + 1) fun both => same (Nat.succ.inj both.2)]
    simp [same]

/-- The wait of the dispatcher takes its event. -/
theorem seen_take_pool (tied : s.Tied events) {op : EventCall} {saw : Bool}
    (moved : Moved events events' .pool 0 (.done op 0))
    (pending : (events .pool).phase 0 = .pending op saw) (isSet : (events .pool).set = true)
    (unset : (events' .pool).set = false) :
    Run machine (s.seen events early) [] (s.seen events' early) := by
  have calls : s.Calls .pool 0 op := tied.calls _ _ _ (by rw [pending]; rfl)
  have waits : (s.seen events early).dispatch = .waiting :=
    (seenDispatch_same (by rw [pending]; rfl) (by rw [calls.1]; rfl)).trans calls.1
  refine seen_takes none .dispatch ⟨waits, isSet⟩ rfl ?_
  refine eq_of_fields rfl (moved.adding (fun both => both.2 rfl) _).symm unset.symm ?_ rfl
    (fun w => (moved.workers w).symm) rfl
  have done : ((events' .pool).phase 0).result = some 0 := by
    rw [moved.here]
    rfl
  exact ((seenDispatch_done (s := s) done).trans (if_neg (by decide))).symm

/-- `SetEvent` on a worker's event. -/
theorem seen_set_worker (tied : s.Tied events) {w : Nat} {saw : Bool}
    (moved : Moved events events' (.worker w) 1 (.done .set 0))
    (pending : (events (.worker w)).phase 1 = .pending .set saw)
    (isSet : (events' (.worker w)).set = true) :
    Run machine (s.seen events early) [] (s.seen events' early) := by
  have calls : s.Calls (.worker w) 1 .set := tied.calls _ _ _ (by rw [pending]; rfl)
  have noWait : ((events .pool).phase 0).result = none := by
    refine tied.pool_result fun waits => ?_
    have same := calls.1.symm.trans waits
    cases same
  have wakes : (s.seen events early).dispatch = .wake w := by
    refine (seenDispatch_wake noWait calls.1).trans ?_
    rw [pending]
    rfl
  refine seen_takes none .wakeup ?_ rfl ?_
  · show (s.seen events early).dispatch.waking = true
    rw [wakes]
    rfl
  · simp only [next, wakes]
    refine eq_of_fields rfl (moved.adding_worker _).symm moved.flag_pool.symm ?_ rfl
      (fun v => ?_) rfl
    · refine ((seenDispatch_wake (w := w) ?_ calls.1).trans ?_).symm
      · rw [moved.others _ _ fun both => (by cases both.1)]
        exact noWait
      · rw [moved.here]
        rfl
    · show ((s.seen events early).setWorker w _).workers v =
        (s.workers v).seen (events' (.worker v)) (early v)
      by_cases same : v = w
      · subst same
        rw [setWorker_self]
        have waits := moved.others (.worker v) 0 fun both => (by cases both.2)
        simp only [seen, ThreadWork.seen, isSet, waits]
      · rw [setWorker_of_ne _ same]
        exact (moved.other_worker same _ _).symm

/-- The wait of a worker takes its event. -/
theorem seen_take_worker (tied : s.Tied events) (valid : Early events' early) {w : Nat}
    {op : EventCall} {saw : Bool} (moved : Moved events events' (.worker w) 0 (.done op 0))
    (pending : (events (.worker w)).phase 0 = .pending op saw)
    (isSet : (events (.worker w)).set = true) (unset : (events' (.worker w)).set = false) :
    Run machine (s.seen events early) [] (s.seen events' early) := by
  have calls : s.Calls (.worker w) 0 op := tied.calls _ _ _ (by rw [pending]; rfl)
  have notEarly : early w = false :=
    valid.not_told (by rw [moved.here]; exact fun same => (by cases same))
  have here : (s.seen events early).workers w =
      { s.workers w with event := (events (.worker w)).set } := by
    show (s.workers w).seen (events (.worker w)) (early w) = _
    rw [notEarly, seen_apart (by rw [pending]; rfl)]
  have waits : ((s.seen events early).workers w).point = .wait := by
    rw [here]
    exact calls.1
  refine seen_takes none (.work w) ?_ ?_ ?_
  · refine ⟨tied.objects.made_of_waits calls.1, ?_, fun _ => ?_⟩
    · rw [waits]
      decide
    · rw [here]
      exact isSet
  · simp only [shows, waits]
  · have run : runnable (s.seen events early).tasks ((s.seen events early).workers w) =
        (s.tasks, { s.workers w with point := .loopTest, event := false }) := by
      rw [here]
      simp only [runnable, calls.1]
      rfl
    refine eq_of_fields ?_ (moved.adding_worker _).symm moved.flag_pool.symm
      (moved.dispatch_worker s).symm rfl (fun v => ?_) rfl
    · show (runnable _ _).1 = s.tasks
      rw [run]
    · show ((s.seen events early).setWorker w (runnable _ _).2).workers v =
        (s.workers v).seen (events' (.worker v)) (early v)
      by_cases same : v = w
      · subst same
        rw [setWorker_self, run]
        simp only [ThreadWork.seen, unset, notEarly, moved.here, CallPhase.result]
        rfl
      · rw [setWorker_of_ne _ same]
        exact (moved.other_worker same _ _).symm

/-- The pool resets no event. -/
theorem Calls.not_reset {i : PoolEvent} {t : Nat} (calls : s.Calls i t .reset) : False := by
  match i, t, calls with
  | .pool, 0, calls => cases calls.2
  | .pool, c + 1, calls => cases calls.2
  | .worker w, 0, calls => cases calls.2
  | .worker w, 1, calls => cases calls.2

/-- A step of the pool's event, seen from its end. -/
theorem seen_pool (tied : s.Tied events) {b : AtomicEvent}
    (step : AtomicEvent.machine (events .pool) none b)
    (valid : Early (Function.update events .pool b) early) :
    Early events early ∧
      Run machine (s.seen events early) [] (s.seen (Function.update events .pool b) early) := by
  have flag : (Function.update events .pool b .pool).set = b.set := by rw [Function.update_self]
  cases step with
  | @set _ t saw pending =>
      have moved := moved_goto events .pool t (.done .set 0)
        { (events .pool).goto t (.done .set 0) with set := true } rfl
      have calls : s.Calls .pool t .set := tied.calls _ _ _ (by rw [pending]; rfl)
      refine ⟨moved.early_before valid fun w here => (by cases here.1), ?_⟩
      match t, calls with
      | 0, calls => cases calls.2
      | c + 1, calls => exact seen_set_pool tied moved pending flag
  | @reset _ t saw pending => exact (tied.calls _ _ _ (by rw [pending]; rfl)).not_reset.elim
  | @take _ t ms saw pending isSet =>
      have moved := moved_goto events .pool t (.done (.wait ms) 0)
        { (events .pool).goto t (.done (.wait ms) 0) with set := !(events .pool).autoReset } rfl
      have calls : s.Calls .pool t (.wait ms) := tied.calls _ _ _ (by rw [pending]; rfl)
      refine ⟨moved.early_before valid fun w here => (by cases here.1), ?_⟩
      match t, calls with
      | 0, calls =>
          refine seen_take_pool tied moved pending isSet (flag.trans ?_)
          show (!(events .pool).autoReset) = false
          rw [tied.auto]
          rfl
      | c + 1, calls => cases calls.2
  | @sawUnset _ t op saw pending unset =>
      have moved := moved_goto events .pool t (.pending op true)
        ((events .pool).goto t (.pending op true)) rfl
      exact ⟨moved.early_before valid fun w here => (by cases here.1),
        run_seen (moved.seen flag (by rw [pending]; rfl))⟩
  | @timeout _ t ms pending finite =>
      have moved := moved_goto events .pool t (.done (.wait ms) waitTimeout)
        ((events .pool).goto t (.done (.wait ms) waitTimeout)) rfl
      have calls : s.Calls .pool t (.wait ms) := tied.calls _ _ _ (by rw [pending]; rfl)
      refine ⟨moved.early_before valid fun w here => (by cases here.1), run_seen ?_⟩
      match t, calls with
      | 0, calls =>
          refine eq_of_fields rfl (moved.adding (fun both => both.2 rfl) _) flag ?_ rfl
            moved.workers rfl
          have waits : s.seenDispatch events = .waiting :=
            (seenDispatch_same (by rw [pending]; rfl) (by rw [calls.1]; rfl)).trans calls.1
          have done := congrArg CallPhase.result moved.here
          exact ((seenDispatch_done (s := s) done).trans (if_pos rfl)).trans waits.symm
      | c + 1, calls => cases calls.2

/-- The time of a worker's wait is over, where the event is unset: the pool with flags takes
this step when the wait has seen it so, if it is going to time out. -/
theorem seen_early (tied : s.Tied events) {w : Nat} {ms : UInt64} {saw : Bool}
    (moved : Moved events events' (.worker w) 0 (.pending (.wait ms) true))
    (pending : (events (.worker w)).phase 0 = .pending (.wait ms) saw)
    (unset : (events (.worker w)).set = false)
    (set : (events' (.worker w)).set = (events (.worker w)).set) (told : early w = true) :
    Run machine (s.seen events (Function.update early w false)) [] (s.seen events' early) := by
  have calls : s.Calls (.worker w) 0 (.wait ms) := tied.calls _ _ _ (by rw [pending]; rfl)
  have here : (s.seen events (Function.update early w false)).workers w =
      { s.workers w with event := (events (.worker w)).set } := by
    show (s.workers w).seen (events (.worker w)) (Function.update early w false w) = _
    rw [Function.update_self, seen_apart (by rw [pending]; rfl)]
  refine seen_takes none (.timeout w) ?_ rfl ?_
  · refine ⟨tied.objects.made_of_waits calls.1, ?_, ?_⟩
    · rw [here]
      exact calls.1
    · rw [here]
      exact unset
  · refine eq_of_fields rfl (moved.adding_worker _).symm moved.flag_pool.symm
      (moved.dispatch_worker s).symm rfl (fun v => ?_) rfl
    show ((s.seen events (Function.update early w false)).setWorker w _).workers v =
      (s.workers v).seen (events' (.worker v)) (early v)
    by_cases same : v = w
    · subst same
      rw [setWorker_self, here]
      simp only [ThreadWork.seen, told, set, if_true]
    · rw [setWorker_of_ne _ same]
      show (s.workers v).seen (events (.worker v)) (Function.update early w false v) = _
      rw [Function.update_of_ne same]
      exact (moved.other_worker same _ _).symm

/-- When the wait does time out, the pool with flags has done so. -/
theorem seen_timeout {w : Nat} {ms : UInt64}
    (moved : Moved events events' (.worker w) 0 (.done (.wait ms) waitTimeout))
    (set : (events' (.worker w)).set = (events (.worker w)).set) (notEarly : early w = false) :
    s.seen events' early = s.seen events (Function.update early w true) := by
  refine eq_of_fields rfl (moved.adding_worker _) moved.flag_pool (moved.dispatch_worker s) rfl
    (fun v => ?_) rfl
  show (s.workers v).seen (events' (.worker v)) (early v) =
    (s.workers v).seen (events (.worker v)) (Function.update early w true v)
  by_cases same : v = w
  · subst same
    rw [Function.update_self]
    simp only [ThreadWork.seen, notEarly, set, moved.here, CallPhase.result, if_true]
    rfl
  · rw [Function.update_of_ne same]
    exact moved.other_worker same _ _

/-- A step of a worker's event, seen from its end. -/
theorem seen_worker (tied : s.Tied events) {w : Nat} {b : AtomicEvent}
    (step : AtomicEvent.machine (events (.worker w)) none b)
    (valid : Early (Function.update events (.worker w) b) early) :
    ∃ early', Early events early' ∧
      Run machine (s.seen events early') []
        (s.seen (Function.update events (.worker w) b) early) := by
  have flag : (Function.update events (.worker w) b (.worker w)).set = b.set := by
    rw [Function.update_self]
  cases step with
  | @set _ t saw pending =>
      have moved := moved_goto events (.worker w) t (.done .set 0)
        { (events (.worker w)).goto t (.done .set 0) with set := true } rfl
      have calls : s.Calls (.worker w) t .set := tied.calls _ _ _ (by rw [pending]; rfl)
      refine ⟨early, moved.early_before valid fun v _ _ same => (by cases same), ?_⟩
      match t, calls with
      | 0, calls => cases calls.2
      | 1, calls => exact seen_set_worker tied moved pending flag
  | @reset _ t saw pending => exact (tied.calls _ _ _ (by rw [pending]; rfl)).not_reset.elim
  | @take _ t ms saw pending isSet =>
      have moved := moved_goto events (.worker w) t (.done (.wait ms) 0)
        { (events (.worker w)).goto t (.done (.wait ms) 0) with
          set := !(events (.worker w)).autoReset } rfl
      have calls : s.Calls (.worker w) t (.wait ms) := tied.calls _ _ _ (by rw [pending]; rfl)
      refine ⟨early, moved.early_before valid fun v _ _ same => (by cases same), ?_⟩
      match t, calls with
      | 0, calls =>
          refine seen_take_worker tied valid moved pending isSet (flag.trans ?_)
          show (!(events (.worker w)).autoReset) = false
          rw [tied.auto]
          rfl
      | 1, calls => cases calls.2
  | @sawUnset _ t op saw pending unset =>
      have moved := moved_goto events (.worker w) t (.pending op true)
        ((events (.worker w)).goto t (.pending op true)) rfl
      have calls : s.Calls (.worker w) t op := tied.calls _ _ _ (by rw [pending]; rfl)
      have quiet : Run machine (s.seen events early) []
          (s.seen (Function.update events (.worker w)
            ((events (.worker w)).goto t (.pending op true))) early) :=
        run_seen (moved.seen flag (by rw [pending]; rfl))
      match t, calls with
      | 0, calls =>
          cases told : early w with
          | false =>
              refine ⟨early, moved.early_before valid fun v here early => ?_, quiet⟩
              obtain rfl : v = w := by injection here.1
              rw [told] at early
              cases early
          | true =>
              obtain ⟨waits, rfl⟩ := calls
              refine ⟨Function.update early w false, fun v still => ?_,
                seen_early tied moved pending unset flag told⟩
              by_cases same : v = w
              · subst same
                rw [Function.update_self] at still
                cases still
              · rw [Function.update_of_ne same] at still
                have pendingThere := valid v still
                rwa [moved.others _ _ fun both => same (by injection both.1)] at pendingThere
      | 1, calls =>
          exact ⟨early, moved.early_before valid fun v here => (by cases here.2), quiet⟩
  | @timeout _ t ms pending finite =>
      have moved := moved_goto events (.worker w) t (.done (.wait ms) waitTimeout)
        ((events (.worker w)).goto t (.done (.wait ms) waitTimeout)) rfl
      have calls : s.Calls (.worker w) t (.wait ms) := tied.calls _ _ _ (by rw [pending]; rfl)
      have before := moved.early_before valid fun v _ _ same => (by cases same)
      match t, calls with
      | 0, calls =>
          have notEarly : early w = false :=
            valid.not_told (by rw [moved.here]; exact fun same => (by cases same))
          refine ⟨Function.update early w true, fun v still => ?_,
            run_seen (seen_timeout moved flag notEarly)⟩
          by_cases same : v = w
          · subst same
            obtain ⟨waits, same⟩ := calls
            rw [pending, same]
          · rw [Function.update_of_ne same] at still
            exact before v still
      | 1, calls => cases calls.2

/-- A step of the pool over flags that are called, seen from its end: a step of the pool with
flags, or none. -/
theorem seen_back (tied : s.Tied events) {s' : ThreadPool τ} {act : Option (PoolAct τ)}
    (step : withEvents AtomicEvent.machine (s, events) act (s', events'))
    (valid : Early events' early) :
    ∃ early', Early events early' ∧
      Run machine (s.seen events early') act.toList (s'.seen events' early) := by
  cases step with
  | own step =>
      obtain ⟨step, ⟨apart, enabled⟩, rfl, rfl⟩ := step
      exact ⟨early, valid, seen_own tied valid apart enabled⟩
  | @silent _ _ k b step =>
      cases k with
      | pool => exact ⟨early, seen_pool tied step valid⟩
      | worker w => exact seen_worker tied step valid
  | @linked _ _ _ k a b tie step =>
      cases tie with
      | @call t op mine =>
          cases step with
          | call op idle =>
              have moved := moved_goto events k t (.pending op false)
                ((events k).goto t (.pending op false)) rfl
              refine ⟨early, moved.early_before valid fun v _ _ same => (by cases same),
                run_seen (moved.seen ?_ (by rw [idle]; rfl))⟩
              rw [Function.update_self]
              rfl
      | @ret t op rc mine =>
          cases step with
          | ret done =>
              have moved := moved_goto events k t .idle ((events k).goto t .idle) rfl
              refine ⟨early, moved.early_before valid fun v _ _ same => (by cases same),
                run_seen (moved.seen_return tied mine done ?_ valid)⟩
              rw [Function.update_self]
              rfl

/-! ## The pool over its events -/

theorem start_tied : (start τ).Tied fun _ => .create false false where
  auto _ := rfl
  calls _ _ _ calls := by cases calls
  adding := List.nodup_nil
  objects := start_objects
  unset _ _ := rfl

/-- At the start nobody's time is over. -/
theorem start_seen (valid : Early (fun _ => .create false false) early) :
    (start τ).seen (fun _ => .create false false) early = start τ := by
  refine eq_of_fields rfl rfl rfl rfl rfl (fun w => ?_) rfl
  show ThreadWork.create.seen (.create false false) (early w) = .create
  cases told : early w with
  | false => rfl
  | true => cases valid w told

/-- **The pool over its events is the pool over flags.** In every run of the pool over the events
of `pevents.cpp`, whatever their threads do to mutexes and condition variables, what is seen of
it (tasks pushed and taken, handler calls, workers that leave) is seen in a run of the pool
whose events are flags set and taken at once; and that run ends in the same state, where
calls that have had their effect and not yet returned are over. -/
theorem pool_on_events {shown : List (PoolAct τ)} {events : PoolEvent → NeosmartEvent}
    (run : Run (withEvents NeosmartEvent.machine)
      (start τ, fun _ => NeosmartEvent.createEvent false false) shown (s, events)) :
    Run machine (start τ) shown (s.seen (fun i => (events i).atomic) fun _ => false) := by
  -- the events are replaced by flags that are called
  have keep : ∀ ⦃e act e'⦄, NeosmartEvent.machine e act e' → e.Monitor → e'.Monitor := by
    rintro e act _ ⟨step, enabled, -, rfl⟩ monitor
    exact NeosmartEvent.next_monitor monitor enabled
  have answer : ∀ ⦃e act e'⦄, NeosmartEvent.machine e act e' → e.Monitor →
      Run AtomicEvent.machine e.atomic act.toList e'.atomic := by
    rintro e _ _ ⟨step, enabled, rfl, rfl⟩ monitor
    exact NeosmartEvent.next_atomic monitor enabled
  have called := (run.replace keep answer
    fun _ => NeosmartEvent.createEvent_monitor false false).1
  have starts : (NeosmartEvent.atomic ∘ fun _ : PoolEvent => .createEvent false false) =
      fun _ => .create false false :=
    funext fun _ => NeosmartEvent.atomic_createEvent false false
  rw [starts] at called
  -- and from its end the run is one of the pool with flags
  obtain ⟨_, taken, early, valid, rfl⟩ := called.simulateBack
    (P := fun x => x.1.Tied x.2)
    (R := fun x a => ∃ early, Early x.2 early ∧ a = x.1.seen x.2 early)
    (fun _ _ _ step tied => Tied.next step tied)
    (by
      rintro x act y _ step tied ⟨early, valid, rfl⟩
      obtain ⟨early', before, taken⟩ := seen_back tied step valid
      exact ⟨_, taken, early', before, rfl⟩)
    start_tied ⟨fun _ => false, fun w told => (by cases told), rfl⟩
  rw [start_seen valid] at taken
  exact taken

end ThreadPool

/-- `SetEvent` on the pool's event, but for its return. -/
def setOfPool : List EventStep :=
  [.call 1 .set, .access 1, .access 1, .access 1, .signal 1 none]

/-- Then the dispatcher's wait, but for its return. -/
def waitOfPool : List EventStep := .call 0 (.wait timeoutInterval) :: List.replicate 6 (.access 0)

/-- The dispatcher finds nobody and makes a worker, which pops a task and calls the handler. -/
def madeAndTaken : List (PoolStep Nat) := .look :: List.replicate 4 (.work 0)

theorem pool_on_events_taken : ∃ t : ThreadPool Nat,
    Run ThreadPool.machine (.start Nat) [.pushed 0 7, .took 0 7, .handled 0 7] t ∧
      t.tasks = [] ∧ t.adding = [] ∧ t.event = false ∧ t.dispatch = .wake 0 := by
  have accesses : Simulation.Allowed NeosmartEvent.Enabled NeosmartEvent.next
      (.createEvent false false) (setOfPool ++ .access 1 :: (waitOfPool ++ [.access 0])) :=
    ⟨rfl, rfl, trivial, trivial, ⟨rfl, .inl rfl⟩, trivial, rfl, trivial, trivial, rfl, trivial,
      trivial, trivial, trivial, trivial⟩
  obtain ⟨set, setEnds, rest⟩ := Simulation.Allowed.append_iff.mp accesses
  obtain ⟨wait, waitEnds, -⟩ := Simulation.Allowed.append_iff.mp rest
  have takes : Simulation.Allowed (fun s step => PoolStep.apart s step ∧ s.Enabled step)
      ThreadPool.next
      ((((ThreadPool.start Nat).next (.push 0 7)).returned 0 .pool 1).returned 0 .pool 0)
      madeAndTaken := by
    refine ⟨⟨trivial, rfl⟩, ⟨?_, Nat.one_pos, by decide, ?_⟩, ⟨?_, Nat.one_pos, by decide, ?_⟩,
      ⟨?_, Nat.one_pos, by decide, ?_⟩, ⟨?_, Nat.one_pos, by decide, ?_⟩, trivial⟩
    all_goals
      intro waits
      cases waits
  have push : ThreadPool.client (.start Nat) (some (.pushed 0 7))
      ((ThreadPool.start Nat).next (.push 0 7)) :=
    ⟨.push 0 7, ⟨trivial, List.not_mem_nil⟩, rfl, rfl⟩
  have adds : ((ThreadPool.start Nat).next (.push 0 7)).Calls .pool 1 .set := ⟨.head _, rfl⟩
  have waits : (((ThreadPool.start Nat).next (.push 0 7)).returned 0 .pool 1).Calls .pool 0
      (.wait timeoutInterval) := ⟨rfl, rfl⟩
  have pushes : Run (ThreadPool.withEvents NeosmartEvent.machine)
      (.start Nat, fun _ => .createEvent false false) [.pushed 0 7]
      ((ThreadPool.start Nat).next (.push 0 7), fun _ => .createEvent false false) :=
    composed_own (Run.shows push) _
  have run := (((pushes.trans (composed_linked (.call adds) (Run.driven _ _ _ set))).trans
    (composed_linked (.ret 0 adds) (Run.shows ⟨.access 1, setEnds, rfl, rfl⟩))).trans
    (composed_linked (.call waits) (Run.driven _ _ _ wait))).trans
    (composed_linked (.ret 0 waits) (Run.shows ⟨.access 0, waitEnds, rfl, rfl⟩))
  have handled := run.trans (composed_own (Run.driven _ _ _ takes) _)
  exact ⟨_, ThreadPool.pool_on_events handled, rfl, rfl, rfl, rfl⟩

end Teadfs
