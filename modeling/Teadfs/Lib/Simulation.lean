/-
# Lib.Simulation — invariants of runs, and runs on two levels at once

A run is the reflexive-transitive closure of a step relation, so a statement about
every state of a run is a statement about every reachable state. `invariant` is the
induction rule. `Joint` drives an implementation and its specification with the
same actions, each action taken only where a guard allows it; `Joint.simulates`
turns one step's preservation of a relation into that of a whole run. `Allowed` is a
list of actions each of which the guard allows where it is taken.
-/
import Mathlib.Logic.Relation

namespace Simulation

set_option autoImplicit false

open Relation

variable {σ τ ι : Type*}

/-- What one step preserves, a run preserves. -/
theorem invariant {step : σ → σ → Prop} {P : σ → Prop}
    (keep : ∀ ⦃s t⦄, step s t → P s → P t) {s t : σ} (run : ReflTransGen step s t)
    (start : P s) : P t := by
  induction run with
  | refl => exact start
  | tail _ step ih => exact keep step ih

/-- One action taken on both levels, where the guard allows it. -/
def Joint (guard : σ × τ → ι → Prop) (impl : ι → σ → σ) (spec : ι → τ → τ) :
    σ × τ → σ × τ → Prop :=
  fun s t => ∃ a, guard s a ∧ t = (impl a s.1, spec a s.2)

theorem Joint.step {guard : σ × τ → ι → Prop} (impl : ι → σ → σ) (spec : ι → τ → τ) {s : σ × τ}
    (a : ι) (allowed : guard s a) : Joint guard impl spec s (impl a s.1, spec a s.2) :=
  ⟨a, allowed, rfl⟩

theorem Joint.simulates {guard : σ × τ → ι → Prop} {impl : ι → σ → σ} {spec : ι → τ → τ}
    {R : σ → τ → Prop}
    (keep : ∀ s t a, guard (s, t) a → R s t → R (impl a s) (spec a t)) {p q : σ × τ}
    (run : ReflTransGen (Joint guard impl spec) p q) (start : R p.1 p.2) : R q.1 q.2 := by
  refine invariant (P := fun s => R s.1 s.2) ?_ run start
  rintro ⟨s, t⟩ _ ⟨a, allowed, rfl⟩ related
  exact keep s t a allowed related

/-- The actions can be taken one after the other. -/
def Allowed (guard : σ → ι → Prop) (next : σ → ι → σ) : σ → List ι → Prop
  | _, [] => True
  | s, a :: actions => guard s a ∧ Allowed guard next (next s a) actions

instance Allowed.decidable (guard : σ → ι → Prop) (next : σ → ι → σ)
    [decide : ∀ s a, Decidable (guard s a)] :
    ∀ s actions, Decidable (Allowed guard next s actions)
  | _, [] => .isTrue trivial
  | s, a :: actions =>
      haveI := Allowed.decidable guard next (next s a) actions
      inferInstanceAs (Decidable (guard s a ∧ Allowed guard next (next s a) actions))

theorem Allowed.run {guard : σ → ι → Prop} {next : σ → ι → σ} {s : σ} {actions : List ι}
    (allowed : Allowed guard next s actions) :
    ReflTransGen (fun s t => ∃ a, guard s a ∧ t = next s a) s (actions.foldl next s) := by
  induction actions generalizing s with
  | nil => exact .refl
  | cons a actions ih => exact .head ⟨a, allowed.1, rfl⟩ (ih allowed.2)

theorem Allowed.append_iff {guard : σ → ι → Prop} {next : σ → ι → σ} {s : σ}
    {first second : List ι} :
    Allowed guard next s (first ++ second) ↔
      Allowed guard next s first ∧ Allowed guard next (first.foldl next s) second := by
  induction first generalizing s with
  | nil => exact ⟨fun allowed => ⟨trivial, allowed⟩, And.right⟩
  | cons a first ih =>
      rw [List.cons_append, Allowed, Allowed, ih, and_assoc]
      rfl

end Simulation
