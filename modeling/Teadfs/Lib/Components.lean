/-
# Lib.Components — a client and the components it calls

`composed` is a machine made of a client and a family of components, all of one kind. The client
goes on by itself, a component goes on by itself, or they take a step together that the
component shows, a call or a return. Only what the client does by itself is seen from
outside.

Where every step of a component is answered by a specification, the components can be replaced
by it (`replace`): to know what the client does one need not look into them any more.
-/
import Mathlib.Logic.Function.Basic
import Teadfs.Lib.Traces

namespace Traces

set_option autoImplicit false

universe u v w

variable {σ : Type u} {ε δ : Type v} {ι α κ : Type w} [DecidableEq κ]

/-- The client `client`, which `link` ties to its components. -/
inductive composed (client : Machine σ ι) (link : σ → κ → α → σ → Prop)
    (component : Machine ε α) : Machine (σ × (κ → ε)) ι where
  | own {s t : σ} {act : Option ι} {parts : κ → ε} (step : client s act t) :
      composed client link component (s, parts) act (t, parts)
  | silent {s : σ} {parts : κ → ε} {k : κ} {e : ε} (step : component (parts k) none e) :
      composed client link component (s, parts) none (s, Function.update parts k e)
  | linked {s t : σ} {parts : κ → ε} {k : κ} {a : α} {e : ε} (tie : link s k a t)
      (step : component (parts k) (some a) e) :
      composed client link component (s, parts) none (t, Function.update parts k e)

/-- A run that shows one thing shows it in one of its steps. -/
theorem Run.single {machine : Machine σ ι} {s t : σ} {act : ι} (run : Run machine s [act] t) :
    ∃ u v, Run machine s [] u ∧ machine u (some act) v ∧ Run machine v [] t := by
  generalize same : [act] = shown at run
  induction run with
  | refl => cases same
  | @tail shown t u last run step ih =>
      cases last with
      | none =>
          rw [Option.toList_none, List.append_nil] at same
          obtain ⟨before, behind, first, shows, rest⟩ := ih same
          exact ⟨before, behind, first, shows, rest.trans (.silent step)⟩
      | some last =>
          cases shown with
          | nil =>
              obtain rfl : act = last := by simpa using same
              exact ⟨t, u, run, step, .refl⟩
          | cons _ _ => simp at same

section Composed

variable {client : Machine σ ι} {link : σ → κ → α → σ → Prop} {component : Machine ε α}
  {spec : Machine δ α} {s t : σ} {parts : κ → δ} {k : κ} {d : δ}

/-- What the client does by itself is a run of the whole. -/
theorem composed_own {shown : List ι} (run : Run client s shown t) (parts : κ → δ) :
    Run (composed client link spec) (s, parts) shown (t, parts) := by
  induction run with
  | refl => exact .refl
  | tail _ step ih => exact ih.tail (.own step)

/-- A component's run that is not seen is one of the whole. -/
theorem composed_silent (run : Run spec (parts k) [] d) :
    Run (composed client link spec) (s, parts) [] (s, Function.update parts k d) := by
  generalize unseen : [] = shown at run
  induction run with
  | refl =>
      rw [Function.update_eq_self]
      exact .refl
  | @tail shown e e' act run step ih =>
      obtain ⟨rfl, nothing⟩ := List.append_eq_nil_iff.mp unseen.symm
      cases act with
      | some act => cases nothing
      | none =>
          have last : composed client link spec (s, Function.update parts k e) none
              (s, Function.update (Function.update parts k e) k e') :=
            .silent (by rwa [Function.update_self])
          rw [Function.update_idem] at last
          exact (ih rfl).trans (.silent last)

theorem composed_linked {a : α} (tie : link s k a t) (run : Run spec (parts k) [a] d) :
    Run (composed client link spec) (s, parts) [] (t, Function.update parts k d) := by
  obtain ⟨e, e', before, step, behind⟩ := run.single
  have here : composed client link spec (s, Function.update parts k e) none
      (t, Function.update (Function.update parts k e) k e') :=
    .linked tie (by rwa [Function.update_self])
  have after : Run (composed client link spec) (t, Function.update parts k e') []
      (t, Function.update (Function.update parts k e') k d) :=
    composed_silent (by rwa [Function.update_self])
  rw [Function.update_idem] at here after
  exact (composed_silent before).trans ((Run.silent here).trans after)

theorem forall_update {P : ε → Prop} {parts : κ → ε} {k : κ} {e : ε} (others : ∀ j, P (parts j))
    (here : P e) (j : κ) : P (Function.update parts k e j) := by
  by_cases same : j = k
  · subst same
    rwa [Function.update_self]
  · rw [Function.update_of_ne same]
    exact others j

/-- **Replacing the components.** Where a specification answers every step of a component, the
client shows nothing with the components that it would not show with the specification. -/
theorem Run.replace {f : ε → δ} {P : ε → Prop}
    (keep : ∀ ⦃e act e'⦄, component e act e' → P e → P e')
    (answer : ∀ ⦃e act e'⦄, component e act e' → P e → Run spec (f e) act.toList (f e'))
    {shown : List ι} {s t : σ × (κ → ε)} (run : Run (composed client link component) s shown t)
    (start : ∀ k, P (s.2 k)) :
    Run (composed client link spec) (s.1, f ∘ s.2) shown (t.1, f ∘ t.2) ∧ ∀ k, P (t.2 k) := by
  induction run with
  | refl => exact ⟨.refl, start⟩
  | tail _ step ih =>
      obtain ⟨before, holds⟩ := ih
      cases step with
      | own step => exact ⟨before.tail (.own step), holds⟩
      | @silent s parts k e step =>
          have unseen : Run (composed client link spec) (s, f ∘ parts) []
              (s, Function.update (f ∘ parts) k (f e)) :=
            composed_silent (answer step (holds k))
          rw [← Function.comp_update] at unseen
          exact ⟨before.trans unseen, forall_update holds (keep step (holds k))⟩
      | @linked s t parts k a e tie step =>
          have unseen : Run (composed client link spec) (s, f ∘ parts) []
              (t, Function.update (f ∘ parts) k (f e)) :=
            composed_linked tie (answer step (holds k))
          rw [← Function.comp_update] at unseen
          exact ⟨before.trans unseen, forall_update holds (keep step (holds k))⟩

end Composed

end Traces
