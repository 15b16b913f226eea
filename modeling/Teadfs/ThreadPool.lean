/-
# Teadfs.ThreadPool — whether a task that was added is taken

The pool of the client library: `AddTask` pushes a task and sets the pool's event; the
dispatcher then looks for a worker that advertises `TS_WAIT`, makes one if there is none,
and sets that worker's event; a worker takes tasks until there are none, waits for its
event, and leaves after `MAX_REPEAT_COUNT` waits that timed out without a task between.

A worker on its way out still advertises `TS_WAIT`. If the dispatcher's choice falls on
it, nobody is left to take the task (`added_task_stranded`). Otherwise a task in the list
always has someone coming for it: `Attended` is that, and only the wakeup of a worker that
is leaving can break it.

A step is one access to what the threads share. A wait may time out in any step in which
its event is unset.
-/
import Mathlib.Logic.Function.Basic
import Teadfs.Lib.Simulation

namespace Teadfs

set_option autoImplicit false

open Relation

def maxRepeatCount : Int := 12

/-- `THREAD_STATUS`. -/
inductive ThreadStatus where
  | wait
  | running
  | exit
  deriving DecidableEq, Repr

/-- Where a worker is in `CThreadWork::Runnable`. -/
inductive WorkPoint where
  /-- Before the test of `m_bExit`. -/
  | loopTest
  /-- Before `m_status = TS_RUNNING`. -/
  | running
  | pop
  /-- Before `m_status = TS_WAIT`. -/
  | idle
  /-- In `WaitForEvent`. -/
  | wait
  /-- The wait has timed out. -/
  | timedOut
  | handling
  /-- Before `m_status = TS_EXIT`. -/
  | exiting
  | exited
  deriving DecidableEq, Repr

/-- `CThreadWork` of tasks `τ`, with the variables of its `Runnable`. -/
structure ThreadWork (τ : Type) where
  point : WorkPoint
  status : ThreadStatus
  bExit : Bool
  event : Bool
  repeatCount : Int
  ptrTask : Option τ

/-- The constructor. -/
def ThreadWork.create {τ : Type} : ThreadWork τ :=
  ⟨.loopTest, .wait, false, false, maxRepeatCount, none⟩

/-- Where the dispatcher is in `CThreadPool::Runnable`. -/
inductive Dispatch where
  /-- In `WaitForEvent`. -/
  | waiting
  /-- Before the first look at the next of the workers that are left. -/
  | scan (rest : List Nat) (found : Option Nat)
  /-- Before the second look at `w`. -/
  | again (w : Nat) (rest : List Nat) (found : Option Nat)
  /-- Before `Wakeup`. -/
  | wake (w : Nat)
  deriving DecidableEq

namespace Dispatch

def looking : Dispatch → Bool
  | .scan _ _ => true
  | .again _ _ _ => true
  | _ => false

def waking : Dispatch → Bool
  | .wake _ => true
  | _ => false

end Dispatch

/-- A pool of tasks `τ`. A thread in `AddTask` is named by a number, as a worker is. -/
structure ThreadPool (τ : Type) where
  tasks : List τ
  /-- The threads in `AddTask` that have pushed their task and not yet set the event. -/
  adding : List Nat
  event : Bool
  dispatch : Dispatch
  /-- `m_threadPool`. -/
  pool : List Nat
  workers : Nat → ThreadWork τ
  /-- The workers made so far. -/
  created : Nat

inductive PoolStep (τ : Type) where
  | push (c : Nat) (task : τ)
  | setEvent (c : Nat)
  /-- The dispatcher's wait ends. -/
  | dispatch
  | dispatchTimeout
  /-- The dispatcher looks at a status, or has looked at all. -/
  | look
  | wakeup
  /-- The next access of a worker. -/
  | work (w : Nat)
  /-- The wait of a worker times out. -/
  | timeout (w : Nat)

namespace ThreadPool

variable {τ : Type}

def setWorker (s : ThreadPool τ) (w : Nat) (worker : ThreadWork τ) : ThreadPool τ :=
  { s with workers := Function.update s.workers w worker }

@[simp] theorem setWorker_self (s : ThreadPool τ) (w : Nat) (worker : ThreadWork τ) :
    (s.setWorker w worker).workers w = worker :=
  Function.update_self ..

theorem setWorker_of_ne (s : ThreadPool τ) {v w : Nat} (other : v ≠ w) (worker : ThreadWork τ) :
    (s.setWorker w worker).workers v = s.workers v :=
  Function.update_of_ne other ..

/-- When a step can be taken. -/
def Enabled (s : ThreadPool τ) : PoolStep τ → Prop
  | .push c _ => c ∉ s.adding
  | .setEvent c => c ∈ s.adding
  | .dispatch => s.dispatch = .waiting ∧ s.event = true
  | .dispatchTimeout => s.dispatch = .waiting ∧ s.event = false
  | .look => s.dispatch.looking = true
  | .wakeup => s.dispatch.waking = true
  | .work w => w < s.created ∧ (s.workers w).point ≠ .exited ∧
      ((s.workers w).point = .wait → (s.workers w).event = true)
  | .timeout w => w < s.created ∧ (s.workers w).point = .wait ∧ (s.workers w).event = false

instance (s : ThreadPool τ) : ∀ step, Decidable (s.Enabled step)
  | .push c _ => inferInstanceAs (Decidable (c ∉ s.adding))
  | .setEvent c => inferInstanceAs (Decidable (c ∈ s.adding))
  | .dispatch => inferInstanceAs (Decidable (s.dispatch = .waiting ∧ s.event = true))
  | .dispatchTimeout => inferInstanceAs (Decidable (s.dispatch = .waiting ∧ s.event = false))
  | .look => inferInstanceAs (Decidable (s.dispatch.looking = true))
  | .wakeup => inferInstanceAs (Decidable (s.dispatch.waking = true))
  | .work w => inferInstanceAs (Decidable (w < s.created ∧ (s.workers w).point ≠ .exited ∧
      ((s.workers w).point = .wait → (s.workers w).event = true)))
  | .timeout w => inferInstanceAs (Decidable
      (w < s.created ∧ (s.workers w).point = .wait ∧ (s.workers w).event = false))

/-- One access of `CThreadWork::Runnable`, with the task list before and after. -/
def runnable (tasks : List τ) (w : ThreadWork τ) : List τ × ThreadWork τ :=
  match w.point with
  | .loopTest => (tasks, { w with point := if w.bExit then .exiting else .running })
  | .running => (tasks, { w with point := .pop, status := .running })
  | .pop =>
      (tasks.tail,
        { w with
          point := if tasks.isEmpty then .idle else .handling
          ptrTask := tasks.head? })
  | .idle => (tasks, { w with point := .wait, status := .wait })
  | .wait => (tasks, { w with point := .loopTest, event := false })
  | .timedOut =>
      (tasks,
        { w with
          point := .loopTest
          repeatCount := w.repeatCount - 1
          bExit := if w.repeatCount - 1 = 0 then true else w.bExit })
  | .handling => (tasks, { w with point := .loopTest, repeatCount := maxRepeatCount })
  | .exiting => (tasks, { w with point := .exited, status := .exit })
  | .exited => (tasks, w)

/-- One access of the search in `CThreadPool::Runnable`. -/
def look (s : ThreadPool τ) : ThreadPool τ :=
  match s.dispatch with
  | .scan (w :: rest) found =>
      if (s.workers w).status = .wait then { s with dispatch := .scan rest (some w) }
      else { s with dispatch := .again w rest found }
  | .again w rest found =>
      { s with
        dispatch := .scan rest found
        pool := if (s.workers w).status = .exit then s.pool.erase w else s.pool }
  | .scan [] (some w) => { s with dispatch := .wake w }
  | .scan [] none =>
      { s.setWorker s.created .create with
        created := s.created + 1
        pool := s.pool ++ [s.created]
        dispatch := .wake s.created }
  | _ => s

def next (s : ThreadPool τ) : PoolStep τ → ThreadPool τ
  | .push c task =>
      { s with
        tasks := s.tasks ++ [task]
        adding := c :: s.adding }
  | .setEvent c =>
      { s with
        adding := s.adding.erase c
        event := true }
  | .dispatch =>
      { s with
        event := false
        dispatch := .scan s.pool none }
  | .dispatchTimeout => s
  | .look => s.look
  | .wakeup =>
      match s.dispatch with
      | .wake w =>
          { s.setWorker w { s.workers w with event := true } with dispatch := .waiting }
      | _ => s
  | .work w =>
      let done := runnable s.tasks (s.workers w)
      { s.setWorker w done.2 with tasks := done.1 }
  | .timeout w => s.setWorker w { s.workers w with point := .timedOut }

/-- No task, no worker, and the dispatcher waits. -/
def start (τ : Type) : ThreadPool τ where
  tasks := []
  adding := []
  event := false
  dispatch := .waiting
  pool := []
  workers := fun _ => .create
  created := 0

end ThreadPool

/-- The worker does not come to `Pop` again: it has left, is past its last test with
`m_bExit` set, or waits on an unset event. -/
def ThreadWork.Absent {τ : Type} (w : ThreadWork τ) : Prop :=
  w.point = .exited ∨ w.bExit = true ∨ w.point = .wait ∧ w.event = false

/-- A task is in the list and nobody comes for it. -/
def ThreadPool.Stranded {τ : Type} (s : ThreadPool τ) : Prop :=
  s.tasks ≠ [] ∧ s.adding = [] ∧ s.dispatch = .waiting ∧ s.event = false ∧
    ∀ w < s.created, (s.workers w).Absent

/-! ## Workers -/

namespace ThreadWork

variable {τ : Type}

/-- The worker comes to `Pop` before it waits or leaves. -/
def Coming (w : ThreadWork τ) : Prop :=
  match w.point with
  | .loopTest => w.bExit = false
  | .running => True
  | .pop => True
  | .idle => w.event = true
  | .wait => w.event = true
  | .timedOut => w.repeatCount ≠ 1
  | .handling => True
  | .exiting => False
  | .exited => False

/-- The worker goes without another look at the list: `m_bExit` is set, or it will be by
the timeout just seen. -/
def Leaving (w : ThreadWork τ) : Prop := w.bExit = true ∨ w.point = .timedOut ∧ w.repeatCount = 1

/-- `m_bExit` is set on the way to the last test only, and a worker leaves with it set. -/
structure Regular (w : ThreadWork τ) : Prop where
  stays : w.bExit = true → w.point = .loopTest ∨ w.point = .exiting ∨ w.point = .exited
  leaves : w.point = .exiting ∨ w.point = .exited → w.bExit = true

theorem create_regular : (create : ThreadWork τ).Regular := ⟨nofun, nofun⟩

variable {w : ThreadWork τ}

theorem Regular.not_bExit (regular : w.Regular) (test : w.point ≠ .loopTest)
    (exiting : w.point ≠ .exiting) (exited : w.point ≠ .exited) : w.bExit = false := by
  cases exit : w.bExit with
  | false => rfl
  | true => rcases regular.stays exit with at' | at' | at' <;> contradiction

theorem Absent.not_coming (regular : w.Regular) (absent : w.Absent) : ¬ w.Coming := by
  rcases absent with exited | exit | ⟨wait, unset⟩
  · simp [Coming, exited]
  · rcases regular.stays exit with at' | at' | at' <;> simp [Coming, at', exit]
  · simp [Coming, wait, unset]

/-- An event set for a worker that is not leaving brings it to `Pop`. -/
theorem coming_of_wakeup (regular : w.Regular) (stays : ¬ w.Leaving) :
    Coming { w with event := true } := by
  have noExit : w.bExit = false := by
    cases exit : w.bExit with
    | false => rfl
    | true => exact absurd (.inl exit) stays
  unfold Coming
  cases at' : w.point with
  | loopTest => exact noExit
  | timedOut => exact fun last => stays (.inr ⟨at', last⟩)
  | exiting => exact absurd (regular.leaves (.inl at')) (by rw [noExit]; decide)
  | exited => exact absurd (regular.leaves (.inr at')) (by rw [noExit]; decide)
  | running => trivial
  | pop => trivial
  | handling => trivial
  | idle => rfl
  | wait => rfl

end ThreadWork

namespace ThreadPool

variable {τ : Type} {tasks : List τ} {w : ThreadWork τ}

theorem runnable_regular (regular : w.Regular) : (runnable tasks w).2.Regular := by
  obtain ⟨point, status, bExit, event, repeatCount, ptrTask⟩ := w
  have inside : bExit = true → point = .loopTest ∨ point = .exiting ∨ point = .exited :=
    regular.stays
  cases point with
  | loopTest =>
      cases bExit with
      | false => exact ⟨nofun, nofun⟩
      | true => exact ⟨fun _ => .inr (.inl rfl), fun _ => rfl⟩
  | pop =>
      refine ⟨fun exit => absurd (inside exit) (by decide), ?_⟩
      cases tasks with
      | nil => nofun
      | cons task rest => nofun
  | running => exact ⟨fun exit => absurd (inside exit) (by decide), nofun⟩
  | idle => exact ⟨fun exit => absurd (inside exit) (by decide), nofun⟩
  | timedOut => exact ⟨fun _ => .inl rfl, nofun⟩
  | wait => exact ⟨fun _ => .inl rfl, nofun⟩
  | handling => exact ⟨fun _ => .inl rfl, nofun⟩
  | exiting => exact ⟨fun _ => .inr (.inr rfl), fun _ => regular.leaves (.inl rfl)⟩
  | exited => exact regular

theorem runnable_nil : (runnable ([] : List τ) w).1 = [] := by
  unfold runnable
  split <;> rfl

/-- A worker that is coming to `Pop` comes there, and finds the list empty or goes on. -/
theorem runnable_coming (regular : w.Regular) (coming : w.Coming) :
    (runnable tasks w).1 = [] ∨ (runnable tasks w).2.Coming := by
  unfold ThreadWork.Coming at coming
  unfold runnable
  cases at' : w.point with
  | loopTest =>
      rw [at'] at coming
      refine .inr ?_
      have stays : w.bExit = false := coming
      simp [ThreadWork.Coming, stays]
  | running => exact .inr trivial
  | pop =>
      cases tasks with
      | nil => exact .inl rfl
      | cons task rest => exact .inr trivial
  | idle =>
      rw [at'] at coming
      exact .inr coming
  | wait =>
      exact .inr (regular.not_bExit (by rw [at']; nofun) (by rw [at']; nofun) (by rw [at']; nofun))
  | timedOut =>
      rw [at'] at coming
      have more : w.repeatCount ≠ 1 := coming
      have stays := regular.not_bExit (by rw [at']; nofun) (by rw [at']; nofun) (by rw [at']; nofun)
      refine .inr ?_
      have left : w.repeatCount - 1 ≠ 0 := by omega
      simp [ThreadWork.Coming, left, stays]
  | handling =>
      exact .inr (regular.not_bExit (by rw [at']; nofun) (by rw [at']; nofun) (by rw [at']; nofun))
  | exiting =>
      rw [at'] at coming
      exact coming.elim
  | exited =>
      rw [at'] at coming
      exact coming.elim

/-! ## The pool -/

/-- The workers the dispatcher has in hand. -/
def inHand : Dispatch → List Nat
  | .waiting => []
  | .scan rest found => rest ++ found.toList
  | .again w rest found => w :: rest ++ found.toList
  | .wake w => [w]

/-- Someone comes for the tasks: a thread that has yet to set the event, the dispatcher,
or a worker. -/
def Attended (s : ThreadPool τ) : Prop :=
  s.adding ≠ [] ∨ s.event = true ∨ s.dispatch ≠ .waiting ∨
    ∃ w < s.created, (s.workers w).Coming

/-- What holds along a run: workers are regular, those the dispatcher knows were made, and
a task in the list is attended to. -/
structure Sound (s : ThreadPool τ) : Prop where
  regular : ∀ w, (s.workers w).Regular
  pool : ∀ w ∈ s.pool, w < s.created
  inHand : ∀ w ∈ inHand s.dispatch, w < s.created
  attended : s.tasks ≠ [] → s.Attended

/-- The dispatcher wakes no worker that is leaving. -/
def WakesStaying (s : ThreadPool τ) : PoolStep τ → Prop
  | .wakeup => ∀ w, s.dispatch = .wake w → ¬ (s.workers w).Leaving
  | _ => True

theorem start_sound : (start τ).Sound :=
  ⟨fun _ => ThreadWork.create_regular, nofun, nofun, fun some => absurd rfl some⟩

variable {s : ThreadPool τ}

theorem Sound.none_stranded (sound : s.Sound) : ¬ s.Stranded := by
  rintro ⟨some, noAdding, waiting, unset, absent⟩
  rcases sound.attended some with adds | set | busy | ⟨w, made, coming⟩
  · exact adds noAdding
  · rw [unset] at set
    cases set
  · exact busy waiting
  · exact (absent w made).not_coming (sound.regular w) coming

theorem setWorker_regular (sound : s.Sound) {w : Nat} {worker : ThreadWork τ}
    (regular : worker.Regular) (v : Nat) : ((s.setWorker w worker).workers v).Regular := by
  by_cases here : v = w
  · subst here
    rw [setWorker_self]
    exact regular
  · rw [setWorker_of_ne s here]
    exact sound.regular v

/-- A worker's own step: the others are where they were. -/
theorem attended_setWorker {w : Nat} {worker : ThreadWork τ} {tasks : List τ} {t : ThreadPool τ}
    (step : t = { s.setWorker w worker with tasks := tasks }) (attended : s.Attended)
    (goesOn : w < s.created → (s.workers w).Coming → tasks = [] ∨ worker.Coming) (some : tasks ≠ []) :
    t.Attended := by
  subst step
  rcases attended with adds | set | busy | ⟨v, made, coming⟩
  · exact .inl adds
  · exact .inr (.inl set)
  · exact .inr (.inr (.inl busy))
  · refine .inr (.inr (.inr ⟨v, made, ?_⟩))
    show ((s.setWorker w worker).workers v).Coming
    by_cases here : v = w
    · subst here
      rw [setWorker_self]
      exact (goesOn made coming).resolve_left some
    · rw [setWorker_of_ne s here]
      exact coming

/-- Looking at the workers keeps the dispatcher busy, with workers that were made. -/
theorem look_sound (sound : s.Sound) : s.look.Sound := by
  have known := sound.inHand
  unfold look
  split
  · rename_i v rest found at'
    rw [at'] at known
    simp only [inHand, List.cons_append, List.mem_cons, List.mem_append] at known
    split
    · refine ⟨sound.regular, sound.pool, ?_, fun _ => .inr (.inr (.inl nofun))⟩
      intro u listed
      simp only [inHand, Option.toList_some, List.mem_append, List.mem_singleton] at listed
      rcases listed with left | rfl
      · exact known u (.inr (.inl left))
      · exact known u (.inl rfl)
    · refine ⟨sound.regular, sound.pool, ?_, fun _ => .inr (.inr (.inl nofun))⟩
      intro u listed
      simp only [inHand, List.cons_append, List.mem_cons, List.mem_append] at listed
      exact known u listed
  · rename_i v rest found at'
    rw [at'] at known
    refine ⟨sound.regular, ?_, fun u listed => known u (.tail _ listed),
      fun _ => .inr (.inr (.inl nofun))⟩
    intro u listed
    split at listed
    · exact sound.pool u (List.mem_of_mem_erase listed)
    · exact sound.pool u listed
  · rename_i v at'
    rw [at'] at known
    exact ⟨sound.regular, sound.pool, known, fun _ => .inr (.inr (.inl nofun))⟩
  · refine ⟨setWorker_regular sound ThreadWork.create_regular, ?_, ?_,
      fun _ => .inr (.inr (.inl nofun))⟩
    · intro u listed
      rcases List.mem_append.mp listed with old | new
      · exact Nat.lt_succ_of_lt (sound.pool u old)
      · rw [List.mem_singleton.mp new]
        exact Nat.lt_succ_self _
    · intro u listed
      rw [List.mem_singleton.mp listed]
      exact Nat.lt_succ_self _
  · exact sound

theorem next_sound {step : PoolStep τ} (sound : s.Sound) (enabled : s.Enabled step)
    (staying : s.WakesStaying step) : (s.next step).Sound := by
  cases step with
  | push c task =>
      exact ⟨sound.regular, sound.pool, sound.inHand,
        fun _ => .inl (List.cons_ne_nil c s.adding)⟩
  | setEvent c => exact ⟨sound.regular, sound.pool, sound.inHand, fun _ => .inr (.inl rfl)⟩
  | dispatch =>
      refine ⟨sound.regular, sound.pool, ?_, fun _ => .inr (.inr (.inl nofun))⟩
      intro w listed
      simp only [next, inHand, Option.toList_none, List.append_nil] at listed
      exact sound.pool w listed
  | dispatchTimeout => exact sound
  | look => exact look_sound sound
  | wakeup =>
      have known := sound.inHand
      simp only [next]
      split
      · rename_i w at'
        rw [at'] at known
        have coming := ThreadWork.coming_of_wakeup (sound.regular w) (staying w at')
        refine ⟨setWorker_regular sound ⟨(sound.regular w).stays, (sound.regular w).leaves⟩,
          sound.pool, nofun, fun _ => .inr (.inr (.inr ⟨w, known w (.head _), ?_⟩))⟩
        show ((s.setWorker w { s.workers w with event := true }).workers w).Coming
        rw [setWorker_self]
        exact coming
      · exact sound
  | work w =>
      refine ⟨setWorker_regular sound (runnable_regular (sound.regular w)), sound.pool,
        sound.inHand, ?_⟩
      intro some
      have before : s.tasks ≠ [] := fun none => some (by simp only [next]; rw [none, runnable_nil])
      exact attended_setWorker rfl (sound.attended before)
        (fun _ coming => runnable_coming (sound.regular w) coming) some
  | timeout w =>
      obtain ⟨-, waits, unset⟩ := enabled
      have notComing : ¬ (s.workers w).Coming := by simp [ThreadWork.Coming, waits, unset]
      refine ⟨setWorker_regular sound ⟨?_, nofun⟩, sound.pool, sound.inHand, ?_⟩
      · intro exit
        have inside := (sound.regular w).stays exit
        rw [waits] at inside
        exact absurd inside (by decide)
      · intro some
        exact attended_setWorker rfl (sound.attended some)
          (fun _ coming => absurd coming notComing) some

/-- **No task is stranded unless a leaving worker is woken.** In every run of the pool in
which the dispatcher's wakeups go to workers that are not leaving, a task in the list has
someone coming for it. -/
theorem not_stranded
    (run : ReflTransGen (fun s t => ∃ step, (s.Enabled step ∧ s.WakesStaying step) ∧ t = s.next step)
      (start τ) s) : ¬ s.Stranded := by
  refine (Simulation.invariant (P := Sound) ?_ run start_sound).none_stranded
  rintro s _ ⟨step, ⟨enabled, staying⟩, rfl⟩ sound
  exact next_sound sound enabled staying

end ThreadPool

/-- A first task is added, and the dispatcher makes a worker for it. -/
def firstTask : List (PoolStep Nat) :=
  [.push 0 100, .setEvent 0, .dispatch, .look, .wakeup]

/-- The worker does the task and finds no other, twice. -/
def firstWork : List (PoolStep Nat) := List.replicate 13 (.work 0)

/-- A wait times out and the worker looks again. -/
def idleRound : List (PoolStep Nat) := .timeout 0 :: List.replicate 5 (.work 0)

/-- The twelfth wait has timed out. -/
def worn : List (PoolStep Nat) :=
  firstTask ++ firstWork ++ (List.replicate 11 idleRound).flatten ++ [.timeout 0, .work 0]

/-- A second task is added, the worker is chosen for it, and leaves. -/
def secondTask : List (PoolStep Nat) :=
  worn ++ [.push 0 101, .setEvent 0, .dispatch, .look, .look, .wakeup, .work 0, .work 0]

theorem first_task_not_stranded :
    (firstTask.foldl ThreadPool.next (.start Nat)).tasks = [100] ∧
      ¬ (firstTask.foldl ThreadPool.next (.start Nat)).Stranded := by
  have allowed : Simulation.Allowed
      (fun s step => ThreadPool.Enabled s step ∧ ThreadPool.WakesStaying s step)
      ThreadPool.next (.start Nat) firstTask := by
    refine ⟨⟨nofun, trivial⟩, ⟨.head _, trivial⟩, ⟨⟨rfl, rfl⟩, trivial⟩, ⟨rfl, trivial⟩, ⟨rfl, ?_⟩,
      trivial⟩
    rintro w ⟨⟩ (exits | ⟨out, -⟩)
    · cases exits
    · cases out
  exact ⟨rfl, ThreadPool.not_stranded allowed.run⟩

/-- The second task stays in the list: its worker has left. -/
theorem added_task_stranded :
    ¬ ∀ s : ThreadPool Nat, ReflTransGen (fun s t => ∃ step, s.Enabled step ∧ t = s.next step)
      (.start Nat) s → ¬ s.Stranded := by
  intro free
  have allowed : Simulation.Allowed ThreadPool.Enabled ThreadPool.next (.start Nat) secondTask := by
    decide +kernel
  refine free _ allowed.run ⟨?_, ?_, ?_, ?_, ?_⟩
  · decide +kernel
  · decide +kernel
  · decide +kernel
  · decide +kernel
  · have one : (secondTask.foldl ThreadPool.next (.start Nat)).created = 1 := by decide +kernel
    have left : ((secondTask.foldl ThreadPool.next (.start Nat)).workers 0).point = .exited := by
      decide +kernel
    intro w made
    rw [one, Nat.lt_one_iff] at made
    subst made
    exact .inl left

end Teadfs
