/-
# Teadfs.PoolTasks — what the pool does with its tasks and its workers

Whether a task is taken at all is `ThreadPool.not_stranded`. Here is what happens to those
that are, and to the threads that take them, in any run of the pool, stranded or not.

The list behind `AddTask` is a queue whoever pops it: the tasks taken are the first of those
added, each once and in order. A worker's hand is another, with room for one: the handler is
called on the tasks that the worker has popped, each once and in that order
(`tasks_taken_once`).

`CThreadPool::Runnable` drops its pointer to a worker that says `TS_EXIT`, and with the
last pointer the object goes. `TS_EXIT` is the last thing the worker's thread writes there,
so the object outlives its thread, and the dispatcher has no other pointer to it
(`destroyed_worker_done`).
-/
import Mathlib.Data.List.Nodup
import Teadfs.Lib.Traces
import Teadfs.ThreadPool

namespace Teadfs

set_option autoImplicit false

open Traces Relation

/-- The task the worker has popped and not yet called the handler on. -/
def ThreadWork.inHand {τ : Type} (worker : ThreadWork τ) : List τ :=
  if worker.point = .handling then worker.ptrTask.toList else []

namespace ThreadPool

variable {τ : Type}

/-- The list, seen from outside: what is pushed and what is popped. -/
def showsTasks (s : ThreadPool τ) : PoolStep τ → Option (QueueAct τ)
  | .push _ task => some (.push task)
  | .work w => if (s.workers w).point = .pop then s.tasks.head?.map .take else none
  | _ => none

/-- The hand of worker `w`: a task that is popped comes in, and it goes out when the handler is
called on it. -/
def showsWork (w : Nat) (s : ThreadPool τ) : PoolStep τ → Option (QueueAct τ)
  | .work v =>
      if v = w then
        match (s.workers w).point with
        | .pop => s.tasks.head?.map .push
        | .handling => (s.workers w).ptrTask.map .take
        | _ => none
      else none
  | _ => none

section Tasks

variable {s : ThreadPool τ} {w : Nat}

theorem look_tasks : s.look.tasks = s.tasks := by
  unfold look
  split
  · split <;> rfl
  · rfl
  · rfl
  · rfl
  · rfl

theorem look_adding : s.look.adding = s.adding := by
  unfold look
  split
  · split <;> rfl
  · rfl
  · rfl
  · rfl
  · rfl

theorem wakeup_tasks : (s.next .wakeup).tasks = s.tasks := by
  simp only [next]
  split <;> rfl

theorem runnable_tasks (tasks : List τ) (worker : ThreadWork τ) :
    (runnable tasks worker).1 = if worker.point = .pop then tasks.tail else tasks := by
  unfold runnable
  cases worker.point <;> rfl

/-- A step is one of the queue that shows the same. -/
theorem next_fifo (step : PoolStep τ) :
    Run fifo s.tasks (s.showsTasks step).toList (s.next step).tasks := by
  cases step with
  | push c task => exact .shows (.push s.tasks task)
  | setEvent c => exact .refl
  | dispatch => exact .refl
  | dispatchTimeout => exact .refl
  | timeout w => exact .refl
  | look =>
      show Run fifo s.tasks [] s.look.tasks
      rw [look_tasks]
      exact .refl
  | wakeup =>
      rw [wakeup_tasks]
      exact .refl
  | work w =>
      show Run fifo s.tasks _ (runnable s.tasks (s.workers w)).1
      rw [runnable_tasks, showsTasks]
      split
      · cases tasks : s.tasks with
        | nil => exact .refl
        | cons task rest => exact .shows (.take rest task)
      · exact .refl

end Tasks

/-! ## Workers and their objects -/

/-- No pointer to the worker is left: it was made, and is neither in `m_threadPool` nor what
the dispatcher has found. -/
def Destroyed (s : ThreadPool τ) (w : Nat) : Prop :=
  w < s.created ∧ w ∉ s.pool ∧ w ∉ inHand s.dispatch

/-- What holds of the worker objects along every run. A number not yet given has done nothing;
the dispatcher has in hand what is in the pool; `TS_EXIT` is said by those that have left, and
only they are dropped. -/
structure Objects (s : ThreadPool τ) : Prop where
  unmade : ∀ w, s.created ≤ w → (s.workers w).point = .loopTest ∧ (s.workers w).status = .wait
  nodup : s.pool.Nodup
  made : ∀ w ∈ s.pool, w < s.created
  hand : (inHand s.dispatch).Nodup
  pooled : ∀ w ∈ inHand s.dispatch, w ∈ s.pool
  exit : ∀ w, (s.workers w).status = .exit → (s.workers w).point = .exited
  dropped : ∀ w < s.created, w ∉ s.pool → (s.workers w).point = .exited

theorem start_objects : (start τ).Objects where
  unmade _ _ := ⟨rfl, rfl⟩
  nodup := List.nodup_nil
  made _ listed := by cases listed
  hand := List.nodup_nil
  pooled _ listed := by cases listed
  exit _ told := by cases told
  dropped _ made := absurd made (Nat.not_lt_zero _)

section Objects

variable {s : ThreadPool τ} {w : Nat} {worker : ThreadWork τ}

/-- What is true of the new worker and was true of every other is true of every one. -/
theorem forall_setWorker {P : Nat → ThreadWork τ → Prop} (here : P w worker)
    (elsewhere : ∀ v, v ≠ w → P v (s.workers v)) (v : Nat) :
    P v ((s.setWorker w worker).workers v) := by
  by_cases same : v = w
  · subst same
    rw [setWorker_self]
    exact here
  · rw [setWorker_of_ne s same]
    exact elsewhere v same

/-- A step of a worker that was made: it has left when it says so, and what has left stays. -/
theorem Objects.setWorker (objects : s.Objects) (tasks : List τ) (made : w < s.created)
    (exit : worker.status = .exit → worker.point = .exited)
    (stays : (s.workers w).point = .exited → worker.point = .exited) :
    ({ s.setWorker w worker with tasks := tasks } : ThreadPool τ).Objects where
  unmade v unmade := by
    have other : v ≠ w := by
      rintro rfl
      exact Nat.not_lt.mpr unmade made
    show ((s.setWorker w worker).workers v).point = _ ∧
      ((s.setWorker w worker).workers v).status = _
    rw [setWorker_of_ne s other]
    exact objects.unmade v unmade
  nodup := objects.nodup
  made := objects.made
  hand := objects.hand
  pooled := objects.pooled
  exit := forall_setWorker (P := fun _ worker => worker.status = .exit → worker.point = .exited)
    exit fun v _ => objects.exit v
  dropped := forall_setWorker
    (P := fun v worker => v < s.created → v ∉ s.pool → worker.point = .exited)
    (fun made gone => stays (objects.dropped w made gone)) fun v _ => objects.dropped v

theorem runnable_exit (tasks : List τ) (exit : worker.status = .exit → worker.point = .exited)
    (told : (runnable tasks worker).2.status = .exit) :
    (runnable tasks worker).2.point = .exited := by
  obtain ⟨point, status, bExit, event, repeatCount, ptrTask⟩ := worker
  cases point with
  | exiting => rfl
  | exited => rfl
  | running => cases told
  | idle => cases told
  | _ => cases exit told

/-- The dispatcher has in hand what it had, or less. -/
theorem Objects.reach (objects : s.Objects) {dispatch : Dispatch}
    (less : (inHand dispatch).Nodup) (pooled : ∀ v ∈ inHand dispatch, v ∈ s.pool) :
    ({ s with dispatch := dispatch } : ThreadPool τ).Objects :=
  ⟨objects.unmade, objects.nodup, objects.made, less, pooled, objects.exit, objects.dropped⟩

/-- The worker just looked at is dropped if it says that it has left. -/
theorem Objects.drop (objects : s.Objects) {rest : List Nat} {found : Option Nat}
    (at' : s.dispatch = .again w rest found) (told : (s.workers w).status = .exit) :
    ({ s with
        dispatch := .scan rest found
        pool := s.pool.erase w } : ThreadPool τ).Objects := by
  have hand := objects.hand
  have pooled := objects.pooled
  rw [at'] at hand pooled
  have others : w ∉ rest ++ found.toList ∧ (rest ++ found.toList).Nodup := List.nodup_cons.mp hand
  refine ⟨objects.unmade, objects.nodup.erase w, fun v listed => objects.made v
    (List.mem_of_mem_erase listed), others.2, ?_, objects.exit, ?_⟩
  · intro v held
    refine objects.nodup.mem_erase_iff.mpr ⟨?_, pooled v (List.mem_cons_of_mem w held)⟩
    rintro rfl
    exact others.1 held
  · intro v made gone
    by_cases same : v = w
    · subst same
      exact objects.exit v told
    · exact objects.dropped v made fun listed =>
        gone (objects.nodup.mem_erase_iff.mpr ⟨same, listed⟩)

/-- A worker more, which is in the pool and in hand. -/
theorem Objects.create (objects : s.Objects) :
    ({ s.setWorker s.created .create with
        created := s.created + 1
        pool := s.pool ++ [s.created]
        dispatch := .wake s.created } : ThreadPool τ).Objects where
  unmade := forall_setWorker
    (P := fun v worker => s.created + 1 ≤ v → worker.point = .loopTest ∧ worker.status = .wait)
    (fun _ => ⟨rfl, rfl⟩) fun v _ unmade => objects.unmade v (Nat.le_of_succ_le unmade)
  nodup := by
    refine List.nodup_append.mpr ⟨objects.nodup, List.nodup_singleton _, ?_⟩
    rintro v listed _ new rfl
    rw [List.mem_singleton] at new
    exact absurd (objects.made v listed) (by omega)
  made v listed := by
    rcases List.mem_append.mp listed with old | new
    · exact Nat.lt_succ_of_lt (objects.made v old)
    · rw [List.mem_singleton.mp new]
      exact Nat.lt_succ_self _
  hand := List.nodup_singleton _
  pooled v held := List.mem_append_right _ held
  exit := forall_setWorker (P := fun _ worker => worker.status = .exit → worker.point = .exited)
    (fun told => by cases told) fun v _ => objects.exit v
  dropped := forall_setWorker
    (P := fun v worker => v < s.created + 1 → v ∉ s.pool ++ [s.created] → worker.point = .exited)
    (fun _ gone => absurd (List.mem_append_right _ (.head _)) gone)
    fun v other made gone => objects.dropped v (by omega)
      fun listed => gone (List.mem_append_left _ listed)

theorem look_objects (objects : s.Objects) : s.look.Objects := by
  have hand := objects.hand
  have pooled := objects.pooled
  unfold look
  split
  · rename_i v rest found at'
    rw [at'] at hand pooled
    have others : v ∉ rest ++ found.toList ∧ (rest ++ found.toList).Nodup := List.nodup_cons.mp hand
    split
    · -- what was found before is let go
      have alone : (v :: rest).Nodup :=
        List.nodup_cons.mpr ⟨fun listed => others.1 (List.mem_append_left _ listed),
          others.2.sublist (List.sublist_append_left rest _)⟩
      have same := List.perm_append_singleton v rest
      refine objects.reach (same.nodup_iff.mpr alone) fun u held => ?_
      rcases List.mem_cons.mp (same.mem_iff.mp held) with rfl | listed
      · exact pooled u (.head _)
      · exact pooled u (.tail _ (List.mem_append_left _ listed))
    · exact objects.reach hand pooled
  · rename_i v rest found at'
    split
    · rename_i told
      exact objects.drop at' told
    · rw [at'] at hand pooled
      refine objects.reach (List.nodup_cons.mp hand).2 fun u held => ?_
      exact pooled u (List.mem_cons_of_mem v held)
  · rename_i v at'
    rw [at'] at hand pooled
    exact objects.reach hand pooled
  · exact objects.create
  · exact objects

theorem next_objects {step : PoolStep τ} (objects : s.Objects) (enabled : s.Enabled step) :
    (s.next step).Objects := by
  cases step with
  | push c task =>
      exact ⟨objects.unmade, objects.nodup, objects.made, objects.hand, objects.pooled,
        objects.exit, objects.dropped⟩
  | setEvent c =>
      exact ⟨objects.unmade, objects.nodup, objects.made, objects.hand, objects.pooled,
        objects.exit, objects.dropped⟩
  | dispatch =>
      have all : inHand (.scan s.pool none) = s.pool := List.append_nil _
      refine ⟨objects.unmade, objects.nodup, objects.made, ?_, ?_, objects.exit, objects.dropped⟩
      · show (inHand (.scan s.pool none)).Nodup
        rw [all]
        exact objects.nodup
      · intro w held
        exact all ▸ held
  | dispatchTimeout => exact objects
  | look => exact look_objects objects
  | wakeup =>
      simp only [next]
      split
      · rename_i w at'
        have pooled : w ∈ s.pool := objects.pooled w (by rw [at']; exact .head _)
        have woken : ({ s.setWorker w { s.workers w with event := true } with
            tasks := s.tasks } : ThreadPool τ).Objects :=
          objects.setWorker s.tasks (objects.made w pooled) (objects.exit w) id
        exact woken.reach List.nodup_nil fun v held => by cases held
      · exact objects
  | work w =>
      obtain ⟨made, running, -⟩ := enabled
      exact objects.setWorker _ made (runnable_exit s.tasks (objects.exit w))
        fun left => absurd left running
  | timeout w =>
      obtain ⟨made, waits, -⟩ := enabled
      refine objects.setWorker s.tasks made (fun told => ?_) fun left => ?_
      · have left := objects.exit w told
        rw [waits] at left
        cases left
      · rw [waits] at left
        cases left

/-- **A worker's object outlives its thread.** In every run of the pool, a worker whose last
pointer is gone has left `Runnable` and takes no step any more, and no worker that the
dispatcher still looks at or wakes has lost its last pointer. -/
theorem destroyed_worker_done
    (run : ReflTransGen (fun s t => ∃ step, s.Enabled step ∧ t = s.next step) (start τ) s) :
    (∀ w, s.Destroyed w → (s.workers w).point = .exited ∧ ¬ s.Enabled (.work w) ∧
      ¬ s.Enabled (.timeout w)) ∧
      ∀ w ∈ inHand s.dispatch, w ∈ s.pool ∧ w < s.created := by
  have objects : s.Objects := by
    refine Simulation.invariant (P := Objects) ?_ run start_objects
    rintro s _ ⟨step, enabled, rfl⟩ objects
    exact next_objects objects enabled
  refine ⟨?_, fun w held => ⟨objects.pooled w held, objects.made w (objects.pooled w held)⟩⟩
  rintro w ⟨made, gone, -⟩
  have left := objects.dropped w made gone
  exact ⟨left, fun enabled => enabled.2.1 left, fun enabled => by
    have waits := enabled.2.1
    rw [left] at waits
    cases waits⟩

/-! ## Tasks -/

variable {steps : List (PoolStep τ)}

/-- The list is a queue along every run. -/
theorem run_fifo (allowed : Simulation.Allowed Enabled next s steps) :
    Run fifo s.tasks (showing showsTasks next s steps) (steps.foldl next s).tasks := by
  have answer : ∀ ⦃s : ThreadPool τ⦄ ⦃act t queue⦄, driven Enabled showsTasks next s act t →
      queue = s.tasks → ∃ rest, Run fifo queue act.toList rest ∧ rest = t.tasks := by
    rintro s _ _ _ ⟨step, -, rfl, rfl⟩ rfl
    exact ⟨_, next_fifo step, rfl⟩
  obtain ⟨_, run, rfl⟩ := (Run.driven Enabled showsTasks next allowed).simulate
    (R := fun s queue => queue = s.tasks) answer rfl
  exact run

/-- A worker that has in hand what it had. -/
theorem inHand_setWorker (same : worker.inHand = (s.workers w).inHand) (v : Nat) :
    ((s.setWorker w worker).workers v).inHand = (s.workers v).inHand :=
  forall_setWorker (P := fun v worker => worker.inHand = (s.workers v).inHand) same
    (fun _ _ => rfl) v

theorem look_inHand (objects : s.Objects) (w : Nat) :
    (s.look.workers w).inHand = (s.workers w).inHand := by
  unfold look
  split
  · split <;> rfl
  · rfl
  · rfl
  · refine inHand_setWorker ?_ w
    rw [ThreadWork.inHand, ThreadWork.inHand, (objects.unmade s.created (Nat.le_refl _)).1]
    rfl
  · rfl

/-- A step is one of the worker's hand that shows the same. -/
theorem next_hand (objects : s.Objects) (w : Nat) {step : PoolStep τ} (enabled : s.Enabled step) :
    Run fifo (s.workers w).inHand (s.showsWork w step).toList ((s.next step).workers w).inHand := by
  cases step with
  | push c task => exact .refl
  | setEvent c => exact .refl
  | dispatch => exact .refl
  | dispatchTimeout => exact .refl
  | look =>
      show Run fifo _ [] (s.look.workers w).inHand
      rw [look_inHand objects]
      exact .refl
  | wakeup =>
      have same : ((s.next .wakeup).workers w).inHand = (s.workers w).inHand := by
        simp only [next]
        split
        · exact inHand_setWorker (by rfl) w
        · rfl
      rw [same]
      exact .refl
  | timeout v =>
      have waits : (s.workers v).point = .wait := enabled.2.1
      have same : ((s.next (.timeout v)).workers w).inHand = (s.workers w).inHand := by
        refine inHand_setWorker ?_ w
        rw [ThreadWork.inHand, ThreadWork.inHand, waits]
        rfl
      rw [same]
      exact .refl
  | work v =>
      by_cases here : v = w
      · subst here
        simp only [showsWork, next, setWorker_self, if_true]
        cases at' : (s.workers v).point with
        | pop =>
            cases tasks : s.tasks with
            | nil => simpa [runnable, ThreadWork.inHand, at'] using Run.refl
            | cons task rest =>
                simpa [runnable, ThreadWork.inHand, at'] using Run.shows (fifo.push [] task)
        | handling =>
            cases carried : (s.workers v).ptrTask with
            | none => simpa [runnable, ThreadWork.inHand, at', carried] using Run.refl
            | some task =>
                simpa [runnable, ThreadWork.inHand, at', carried] using
                  Run.shows (fifo.take [] task)
        | loopTest =>
            cases exit : (s.workers v).bExit <;>
              simpa [runnable, ThreadWork.inHand, at', exit] using Run.refl
        | _ => simpa [runnable, ThreadWork.inHand, at'] using Run.refl
      · simp only [showsWork, next, here, if_false, setWorker_of_ne s (Ne.symm here)]
        exact .refl

/-- The hand of a worker is a queue along every run. -/
theorem run_hand (objects : s.Objects) (allowed : Simulation.Allowed Enabled next s steps)
    (w : Nat) :
    Run fifo (s.workers w).inHand (showing (showsWork w) next s steps)
      ((steps.foldl next s).workers w).inHand := by
  have answer : ∀ ⦃s : ThreadPool τ⦄ ⦃act t hand⦄, driven Enabled (showsWork w) next s act t →
      s.Objects ∧ hand = (s.workers w).inHand →
        ∃ hand', Run fifo hand act.toList hand' ∧ t.Objects ∧ hand' = (t.workers w).inHand := by
    rintro s _ _ _ ⟨step, enabled, rfl, rfl⟩ ⟨objects, rfl⟩
    exact ⟨_, next_hand objects w enabled, next_objects objects enabled, rfl⟩
  obtain ⟨_, run, -, rfl⟩ := (Run.driven Enabled (showsWork w) next allowed).simulate
    (R := fun s hand => s.Objects ∧ hand = (s.workers w).inHand) answer ⟨objects, rfl⟩
  exact run

/-- **Every task is taken once, in order, and handled by the worker that took it.** In every
run of the pool the tasks popped are the first of those added, the others are still in the
list, and a worker has called the handler on the tasks it popped, each once and in order, except
the one it has in hand. -/
theorem tasks_taken_once (allowed : Simulation.Allowed Enabled next (start τ) steps) :
    pushed (showing showsTasks next (start τ) steps) =
        taken (showing showsTasks next (start τ) steps) ++ (steps.foldl next (start τ)).tasks ∧
      ∀ w, pushed (showing (showsWork w) next (start τ) steps) =
        taken (showing (showsWork w) next (start τ) steps) ++
          ((steps.foldl next (start τ)).workers w).inHand :=
  ⟨fifo_run (run_fifo allowed), fun w => fifo_run (run_hand start_objects allowed w)⟩

end Objects

end ThreadPool

theorem tasks_taken_once_worn :
    pushed (showing ThreadPool.showsTasks ThreadPool.next (.start Nat) secondTask) =
        taken (showing ThreadPool.showsTasks ThreadPool.next (.start Nat) secondTask) ++ [101] ∧
      pushed (showing (ThreadPool.showsWork 0) ThreadPool.next (.start Nat) secondTask) =
        taken (showing (ThreadPool.showsWork 0) ThreadPool.next (.start Nat) secondTask) ++ [] := by
  have allowed : Simulation.Allowed ThreadPool.Enabled ThreadPool.next (.start Nat) secondTask := by
    decide +kernel
  have left : (secondTask.foldl ThreadPool.next (.start Nat)).tasks = [101] := by decide +kernel
  have free : ((secondTask.foldl ThreadPool.next (.start Nat)).workers 0).inHand = [] := by
    decide +kernel
  obtain ⟨list, hands⟩ := ThreadPool.tasks_taken_once allowed
  have hand := hands 0
  rw [left] at list
  rw [free] at hand
  exact ⟨list, hand⟩

/-- The worn worker leaves, and the dispatcher drops it when it looks for one. -/
def wornOut : List (PoolStep Nat) :=
  secondTask ++ [.push 0 102, .setEvent 0, .dispatch, .look, .look]

theorem destroyed_worker_done_wornOut :
    ((wornOut.foldl ThreadPool.next (.start Nat)).workers 0).point = .exited := by
  have allowed : Simulation.Allowed ThreadPool.Enabled ThreadPool.next (.start Nat) wornOut := by
    decide +kernel
  have destroyed : (wornOut.foldl ThreadPool.next (.start Nat)).Destroyed 0 := by
    refine ⟨?_, ?_, ?_⟩ <;> decide +kernel
  exact ((ThreadPool.destroyed_worker_done allowed.run).1 0 destroyed).1

end Teadfs
