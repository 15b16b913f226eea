/-
# Lib.Traces — what can be seen of a run

A machine takes steps that show something or nothing. `Run` is a run with what it has
shown, oldest first. One machine implements another when whatever it shows the other can
show too; `Run.simulate` gets this from a relation between their states that every step of
the first keeps, where the other takes as many steps as it needs. `Run.simulateBack` goes from
the end of the run to its start.

Where a machine shows the steps that a part of it takes, the part has a run of its own
(`allowed_part`).

`fifo` is the queue as such a machine: what it has shown to come out is, in that order, the
front of what it has shown to go in (`fifo_run`). `closable` is a queue that may be closed, with
a loss at its end only (`closable_run`).
-/
import Mathlib.Data.List.Basic
import Teadfs.Lib.Simulation

namespace Traces

set_option autoImplicit false

universe u v w

variable {σ : Type u} {τ : Type v} {ι : Type w}

/-- How a machine gets from one state to another, and what it shows. -/
abbrev Machine (σ : Type u) (ι : Type w) := σ → Option ι → σ → Prop

/-- A run, and what it has shown. -/
inductive Run (machine : Machine σ ι) (s : σ) : List ι → σ → Prop where
  | refl : Run machine s [] s
  | tail {shown : List ι} {t u : σ} {act : Option ι} (run : Run machine s shown t)
      (step : machine t act u) : Run machine s (shown ++ act.toList) u

namespace Run

variable {machine : Machine σ ι} {s t u : σ} {shown more : List ι}

theorem silent (step : machine s none t) : Run machine s [] t := tail refl step

theorem shows {act : ι} (step : machine s (some act) t) : Run machine s [act] t := tail refl step

theorem trans (first : Run machine s shown t) (second : Run machine t more u) :
    Run machine s (shown ++ more) u := by
  induction second with
  | refl => simpa using first
  | tail _ step ih => simpa using ih.tail step

/-- What the start has and every step keeps, the end has. -/
theorem invariant {P : σ → Prop} (keep : ∀ ⦃s act t⦄, machine s act t → P s → P t)
    (run : Run machine s shown t) (start : P s) : P t := by
  induction run with
  | refl => exact start
  | tail _ step ih => exact keep step ih

/-- A property of what was shown and of the state, kept by every step. -/
theorem shown_invariant {P : List ι → σ → Prop}
    (keep : ∀ ⦃shown s act t⦄, machine s act t → P shown s → P (shown ++ act.toList) t)
    (run : Run machine s shown t) (start : P [] s) : P shown t := by
  induction run with
  | refl => exact start
  | tail _ step ih => exact keep step ih

/-- **Forward simulation.** Where each step of a machine is answered by a run of another that
shows the same, the other has a run for every run. -/
theorem simulate {other : Machine τ ι} {R : σ → τ → Prop}
    (answer : ∀ ⦃s act t a⦄, machine s act t → R s a → ∃ b, Run other a act.toList b ∧ R t b)
    (run : Run machine s shown t) {a : τ} (start : R s a) :
    ∃ b, Run other a shown b ∧ R t b := by
  induction run with
  | refl => exact ⟨a, refl, start⟩
  | tail _ step ih =>
      obtain ⟨b, before, related⟩ := ih
      obtain ⟨c, last, still⟩ := answer step related
      exact ⟨c, before.trans last, still⟩

/-- **Backward simulation.** The other machine's run is put together from its end: where each
step to a state related to `b` is answered by a run to `b` from a state related to the one
before. What the other machine did can so depend on what comes later. -/
theorem simulateBack {other : Machine τ ι} {R : σ → τ → Prop} {P : σ → Prop}
    (keep : ∀ ⦃s act t⦄, machine s act t → P s → P t)
    (answer : ∀ ⦃s act t b⦄, machine s act t → P s → R t b →
      ∃ a, Run other a act.toList b ∧ R s a)
    (run : Run machine s shown t) (start : P s) {b : τ} (related : R t b) :
    ∃ a, Run other a shown b ∧ R s a := by
  induction run generalizing b with
  | refl => exact ⟨b, refl, related⟩
  | tail before step ih =>
      obtain ⟨c, last, still⟩ := answer step (before.invariant keep start) related
      obtain ⟨a, first, begins⟩ := ih still
      exact ⟨a, first.trans last, begins⟩

end Run

/-! ## Machines that are driven -/

section Driven

variable {κ : Type v} (enabled : σ → κ → Prop) (shows : σ → κ → Option ι) (next : σ → κ → σ)

/-- The machine that takes any step that is enabled. -/
def driven : Machine σ ι := fun s act t =>
  ∃ step, enabled s step ∧ act = shows s step ∧ t = next s step

/-- What the steps show, one after the other. -/
def showing : σ → List κ → List ι
  | _, [] => []
  | s, step :: steps => (shows s step).toList ++ showing (next s step) steps

theorem Run.driven {steps : List κ} {s : σ} (allowed : Simulation.Allowed enabled next s steps) :
    Run (driven enabled shows next) s (showing shows next s steps) (steps.foldl next s) := by
  induction steps generalizing s with
  | nil => exact .refl
  | cons step steps ih =>
      have first : Run (Traces.driven enabled shows next) s ([] ++ (shows s step).toList)
          (next s step) := .tail .refl ⟨step, allowed.1, rfl, rfl⟩
      exact first.trans (ih allowed.2)

/-! A part of the machine takes the steps that the whole shows. -/

section Part

variable {τ : Type v} {part : σ → τ} {guard : τ → ι → Prop} {move : τ → ι → τ} {P : σ → Prop}

/-- Where what a step shows is a step of the part that its guard allows, and the part does just
that, the part has a run of its own. -/
theorem allowed_part (keep : ∀ s step, enabled s step → P s → P (next s step))
    (allows : ∀ s step call, enabled s step → P s → shows s step = some call →
      guard (part s) call)
    (moves : ∀ s step, part (next s step) = (shows s step).toList.foldl move (part s)) {s : σ}
    {steps : List κ} (allowed : Simulation.Allowed enabled next s steps) (start : P s) :
    Simulation.Allowed guard move (part s) (showing shows next s steps) ∧
      part (steps.foldl next s) = (showing shows next s steps).foldl move (part s) := by
  induction steps generalizing s with
  | nil => exact ⟨trivial, rfl⟩
  | cons step steps ih =>
      obtain ⟨rest, same⟩ := ih allowed.2 (keep s step allowed.1 start)
      have first : Simulation.Allowed guard move (part s) (shows s step).toList := by
        cases call : shows s step with
        | none => exact trivial
        | some call' => exact ⟨allows s step call' allowed.1 start call, trivial⟩
      rw [moves] at rest same
      simp only [showing, List.foldl_cons, List.foldl_append]
      exact ⟨Simulation.Allowed.append_iff.mpr ⟨first, rest⟩, same⟩

end Part

end Driven

/-! ## The queue -/

inductive QueueAct (α : Type w) where
  | push (a : α)
  | take (a : α)

/-- First in, first out. -/
inductive fifo {α : Type w} : Machine (List α) (QueueAct α) where
  | push (queue : List α) (a : α) : fifo queue (some (.push a)) (queue ++ [a])
  | take (queue : List α) (a : α) : fifo (a :: queue) (some (.take a)) queue

def pushed {α : Type w} (shown : List (QueueAct α)) : List α :=
  shown.filterMap fun
    | .push a => some a
    | .take _ => none

def taken {α : Type w} (shown : List (QueueAct α)) : List α :=
  shown.filterMap fun
    | .push _ => none
    | .take a => some a

/-- What was there and what went in is what came out and what is there now. -/
theorem fifo_conserves {α : Type w} {queue queue' : List α} {shown : List (QueueAct α)}
    (run : Run fifo queue shown queue') : queue ++ pushed shown = taken shown ++ queue' := by
  refine run.shown_invariant
    (P := fun shown queue' => queue ++ pushed shown = taken shown ++ queue') ?_
    (List.append_nil _)
  intro shown now act next step same
  cases step with
  | push _ a =>
      have sums : queue ++ (pushed shown ++ [a]) = taken shown ++ (now ++ [a]) := by
        rw [← List.append_assoc, same, List.append_assoc]
      simpa [pushed, taken] using sums
  | take _ a => simpa [pushed, taken] using same

/-- What came out is the front of what went in, and the rest is still there. -/
theorem fifo_run {α : Type w} {queue : List α} {shown : List (QueueAct α)}
    (run : Run fifo [] shown queue) : pushed shown = taken shown ++ queue :=
  fifo_conserves run

/-- A queue that is closed once: then its end is dropped, and nothing comes in any more. -/
inductive closable {α : Type w} : Machine (List α × Bool) (QueueAct α) where
  | push (queue : List α) (a : α) :
      closable (queue, true) (some (.push a)) (queue ++ [a], true)
  | take (queue : List α) (a : α) (isOpen : Bool) :
      closable (a :: queue, isOpen) (some (.take a)) (queue, isOpen)
  | close (kept dropped : List α) : closable (kept ++ dropped, true) none (kept, false)

/-- What came out is the front of what went in, and behind it is what is still there; what is
missing at the end was dropped by closing. -/
theorem closable_run {α : Type w} {q : List α × Bool} {shown : List (QueueAct α)}
    (run : Run closable ([], true) shown q) :
    ∃ lost, pushed shown = taken shown ++ q.1 ++ lost ∧ (q.2 = true → lost = []) := by
  refine run.shown_invariant (P := fun shown (q : List α × Bool) =>
    ∃ lost, pushed shown = taken shown ++ q.1 ++ lost ∧ (q.2 = true → lost = [])) ?_
    ⟨[], rfl, fun _ => rfl⟩
  rintro shown q act q' step ⟨lost, same, none⟩
  cases step with
  | push queue a =>
      obtain rfl := none rfl
      exact ⟨[], by simp_all [pushed, taken], fun _ => rfl⟩
  | take queue a isOpen => exact ⟨lost, by simp_all [pushed, taken], none⟩
  | close kept dropped => exact ⟨dropped ++ lost, by simp_all, fun still => (by cases still)⟩

end Traces
