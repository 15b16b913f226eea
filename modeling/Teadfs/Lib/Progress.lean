/-
# Lib.Progress — mutexes, and runs that come to an end

`Held` says that a mutex has the owner it says: whoever is in a section that needs it, and
nobody else. It is kept by a step that stays inside or outside, by one that takes the free
mutex, and by one that gives it up.

`Allowed.bounded` bounds the length of a run by a potential. A step lowers it, or it is paid
for: then the potential may rise, and the run is as much longer.
-/
import Mathlib.Algebra.GroupWithZero.Nat
import Teadfs.Lib.Simulation

namespace Progress

set_option autoImplicit false

universe u v

section Mutex

variable {α : Type u} {owner : Option α} {P Q : α → Prop} {a b : α}

/-- The owner is the one that is inside. -/
def Held (owner : Option α) (P : α → Prop) : Prop := ∀ a, owner = some a ↔ P a

theorem Held.unique (held : Held owner P) (first : P a) (second : P b) : a = b :=
  Option.some.inj (((held a).mpr first).symm.trans ((held b).mpr second))

theorem Held.outside (held : Held owner P) (free : owner = none) (a : α) : ¬ P a := by
  intro inside
  have owned := (held a).mpr inside
  rw [free] at owned
  cases owned

/-- Somebody is inside, or the mutex is free. -/
theorem Held.cases (held : Held owner P) : owner = none ∨ ∃ a, owner = some a ∧ P a := by
  cases same : owner with
  | none => exact .inl rfl
  | some a => exact .inr ⟨a, rfl, (held a).mp same⟩

/-- Somebody stays where he is, inside or outside. -/
theorem Held.stay (held : Held owner P) (here : Q a ↔ P a)
    (others : ∀ b, b ≠ a → (Q b ↔ P b)) : Held owner Q := by
  intro b
  by_cases this : b = a
  · rw [this, here, held]
  · rw [others b this, held]

theorem Held.take (held : Held owner P) (free : owner = none) (inside : Q a)
    (others : ∀ b, b ≠ a → (Q b ↔ P b)) : Held (some a) Q := by
  intro b
  by_cases here : b = a
  · subst here
    exact ⟨fun _ => inside, fun _ => rfl⟩
  · refine ⟨fun same => absurd (Option.some.inj same).symm here, fun other => ?_⟩
    exact absurd ((others b here).mp other) (held.outside free b)

theorem Held.give (held : Held owner P) (inside : P a) (left : ¬ Q a)
    (others : ∀ b, b ≠ a → (Q b ↔ P b)) : Held none Q := by
  intro b
  refine ⟨nofun, fun still => ?_⟩
  by_cases here : b = a
  · exact absurd (here ▸ still) left
  · exact absurd (held.unique ((others b here).mp still) inside) here

end Mutex

section Bound

variable {σ : Type u} {ι : Type v} {guard : σ → ι → Prop} {next : σ → ι → σ} {P : σ → Prop}
  {l : σ → Nat} {r : ι → Nat}

/-- A run is no longer than the potential `l` it starts with and what is paid, `r`, for its
steps. -/
theorem Allowed.bounded (keep : ∀ s a, guard s a → P s → P (next s a))
    (lower : ∀ s a, guard s a → P s → l (next s a) + 1 ≤ l s + r a) {s : σ}
    {actions : List ι} (allowed : Simulation.Allowed guard next s actions) (start : P s) :
    P (actions.foldl next s) ∧
      actions.length + l (actions.foldl next s) ≤ l s + (actions.map r).sum := by
  induction actions generalizing s with
  | nil => exact ⟨start, by simp⟩
  | cons a actions ih =>
      obtain ⟨kept, bound⟩ := ih allowed.2 (keep s a allowed.1 start)
      have first := lower s a allowed.1 start
      refine ⟨kept, ?_⟩
      simp only [List.length_cons, List.foldl_cons, List.map_cons, List.sum_cons]
      omega

end Bound

end Progress
