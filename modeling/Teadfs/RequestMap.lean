/-
# Teadfs.RequestMap — which handler a response is given to

The client library's own requests: `SendHello` draws an id, stores its handler under it,
and sends; `ResponseMsg` takes the handler of the id out of the map and calls it. Any
number of threads do either. A step is one atomic operation of `get_next_msg_id`, one
section under `s_mutex`, or the call of a handler.

`get_next_msg_id` adds to the counter and then loads it. Two calls that add before either
loads get the same id, and `emplace` drops the second handler (`same_id_twice`). Where no
call adds between another's add and its load, ids are distinct, and each response goes to
the handler of its request (`matched_run`).
-/
import Mathlib.Algebra.Group.Nat.Defs
import Mathlib.Logic.Function.Basic
import Mathlib.Data.List.Basic
import Teadfs.Lib.Simulation

namespace Teadfs

set_option autoImplicit false

open Relation

/-- Where a call of `SendHello` is. -/
inductive CallPoint where
  | idle
  /-- Between the `fetch_add` and the `load`. -/
  | added
  /-- The id loaded was zero. -/
  | zero
  /-- Between the second `fetch_add` and the second `load`. -/
  | addedAgain
  /-- Before the section that stores the handler. -/
  | drawn (id : Nat)
  | registered (id : Nat)
  deriving DecidableEq

namespace CallPoint

/-- The id the call has drawn. -/
def id : CallPoint → Option Nat
  | .drawn id => some id
  | .registered id => some id
  | _ => none

/-- The call has added and not yet loaded. -/
def adding : CallPoint → Bool
  | .added => true
  | .addedAgain => true
  | _ => false

end CallPoint

/-- The requests of the library. A call is named by a number, and so is its handler; a
thread in `ResponseMsg` is named by a number too. -/
structure Requests where
  /-- `g_next_id`. -/
  nextId : Nat
  call : Nat → CallPoint
  /-- `s_map`. -/
  map : Nat → Option Nat
  /-- The handler a thread in `ResponseMsg` has taken, and the id of its response. -/
  hand : Nat → Option (Nat × Nat)
  /-- History: how often `g_next_id` was added to. -/
  adds : Nat
  /-- History: a response with the id of the call came after the call was registered. -/
  seen : Nat → Bool
  /-- History: the handlers called, with the id of the response. -/
  invoked : List (Nat × Nat)

inductive RequestStep where
  | fetchAdd (r : Nat)
  | load (r : Nat)
  | emplace (r : Nat)
  /-- Thread `k` looks up the id of a response, and takes its handler out. -/
  | find (k id : Nat)
  /-- Thread `k` calls the handler it has taken. -/
  | invoke (k : Nat)

namespace Requests

def setCall (s : Requests) (r : Nat) (point : CallPoint) : Requests :=
  { s with call := Function.update s.call r point }

/-- When a step can be taken. -/
def Enabled (s : Requests) : RequestStep → Prop
  | .fetchAdd r => s.call r = .idle ∨ s.call r = .zero
  | .load r => (s.call r).adding = true
  | .emplace r => ∃ id, s.call r = .drawn id
  | .find k _ => s.hand k = none
  | .invoke k => s.hand k ≠ none

/-- The step, where `given` tells the calls that pass a handler from those that pass
`nullptr`. -/
def next (given : Nat → Bool) (s : Requests) : RequestStep → Requests
  | .fetchAdd r =>
      { s.setCall r (if s.call r = .zero then .addedAgain else .added) with
        nextId := (s.nextId + 1) % 2 ^ 64
        adds := s.adds + 1 }
  | .load r =>
      if s.call r = .added ∧ s.nextId = 0 then s.setCall r .zero
      else s.setCall r (.drawn s.nextId)
  | .emplace r =>
      match s.call r with
      | .drawn id =>
          { s.setCall r (.registered id) with
            map := if s.map id = none then Function.update s.map id (some r) else s.map }
      | _ => s
  | .find k id =>
      let met := { s with seen := fun r => s.seen r || decide (s.call r = .registered id) }
      match s.map id with
      | none => met
      | some r =>
          { met with
            map := Function.update s.map id none
            hand := Function.update s.hand k (some (r, id)) }
  | .invoke k =>
      match s.hand k with
      | none => s
      | some (r, id) =>
          { s with
            hand := Function.update s.hand k none
            invoked := if given r then (r, id) :: s.invoked else s.invoked }

/-- No id is drawn and no handler stored. -/
def start : Requests where
  nextId := 0
  call := fun _ => .idle
  map := fun _ => none
  hand := fun _ => none
  adds := 0
  seen := fun _ => false
  invoked := []

/-- No call adds between another's add and its load. -/
def Alone (s : Requests) : RequestStep → Prop
  | .fetchAdd _ => ∀ r, (s.call r).adding = false
  | _ => True

/-- Requests and responses match: the ids drawn are not zero and differ; a handler is
called once at most, with a response to its own request; and the first response to a
registered request is given to its handler. -/
structure Matched (given : Nat → Bool) (s : Requests) : Prop where
  nonzero : ∀ r id, (s.call r).id = some id → id ≠ 0
  distinct : ∀ r r' id, (s.call r).id = some id → (s.call r').id = some id → r = r'
  once : (s.invoked.map Prod.fst).Nodup
  own : ∀ r id, (r, id) ∈ s.invoked → s.call r = .registered id
  first : ∀ r id, s.call r = .registered id → s.seen r = false → ∀ k, s.hand k = none →
    (s.next given (.find k id)).hand k = some (r, id)
  called : ∀ r id, s.call r = .registered id → s.seen r = true → given r = true →
    (∃ k, s.hand k = some (r, id)) ∨ (r, id) ∈ s.invoked

/-! ## Ids -/

/-- The ids drawn, as long as the counter has not wrapped. A call that has added and not
yet loaded is the last to have added, so no id is as large as the counter. -/
structure Drawn (s : Requests) : Prop where
  counter : s.nextId = s.adds
  unwrapped : ∀ r, s.call r ≠ .zero ∧ s.call r ≠ .addedAgain
  last : ∀ r r', (s.call r).adding = true → (s.call r').adding = true → r = r'
  positive : ∀ r, (s.call r).adding = true → 0 < s.adds
  range : ∀ r id, (s.call r).id = some id → 0 < id ∧ id ≤ s.adds
  below : ∀ r r' id, (s.call r).adding = true → (s.call r').id = some id → id < s.adds
  distinct : ∀ r r' id, (s.call r).id = some id → (s.call r').id = some id → r = r'

variable {s : Requests} {given : Nat → Bool}

@[simp] theorem setCall_self (s : Requests) (r : Nat) (point : CallPoint) :
    (s.setCall r point).call r = point :=
  Function.update_self ..

theorem setCall_of_ne (s : Requests) {r r' : Nat} (other : r' ≠ r) (point : CallPoint) :
    (s.setCall r point).call r' = s.call r' :=
  Function.update_of_ne other ..

theorem start_drawn : start.Drawn :=
  ⟨rfl, fun _ => ⟨nofun, nofun⟩, nofun, nofun, nofun, nofun, nofun⟩

theorem drawn_of_call {t : Requests} (drawn : s.Drawn) (nextId : t.nextId = s.nextId)
    (adds : t.adds = s.adds) (call : t.call = s.call) : t.Drawn := by
  obtain ⟨counter, unwrapped, last, positive, range, below, distinct⟩ := drawn
  refine ⟨?_, ?_, ?_, ?_, ?_, ?_, ?_⟩
  · rw [nextId, adds, counter]
  · rwa [call]
  · rwa [call]
  · rwa [call, adds]
  · rwa [call, adds]
  · rwa [call, adds]
  · rwa [call]

theorem fetchAdd_drawn (drawn : s.Drawn) {r : Nat} (enabled : s.Enabled (.fetchAdd r))
    (alone : s.Alone (.fetchAdd r)) (few : s.adds + 1 < 2 ^ 64) :
    (s.next given (.fetchAdd r)).Drawn := by
  have idle : s.call r = .idle := enabled.resolve_right (drawn.unwrapped r).1
  have call : (s.next given (.fetchAdd r)).call = Function.update s.call r .added := by
    simp [next, idle, setCall]
  have others : ∀ r', (Function.update s.call r .added r').adding = true → r' = r := by
    intro r' adding
    by_contra other
    rw [Function.update_of_ne other, alone r'] at adding
    cases adding
  have ids : ∀ r' id, (Function.update s.call r CallPoint.added r').id = some id →
      (s.call r').id = some id := by
    intro r' id found
    by_cases here : r' = r
    · subst here
      rw [Function.update_self] at found
      cases found
    · rwa [Function.update_of_ne here] at found
  constructor
  · show (s.nextId + 1) % 2 ^ 64 = s.adds + 1
    rw [drawn.counter, Nat.mod_eq_of_lt few]
  · intro r'
    rw [call]
    by_cases here : r' = r
    · subst here
      rw [Function.update_self]
      exact ⟨nofun, nofun⟩
    · rw [Function.update_of_ne here]
      exact drawn.unwrapped r'
  · intro r₁ r₂ first second
    rw [call] at first second
    rw [others r₁ first, others r₂ second]
  · exact fun _ _ => Nat.succ_pos _
  · intro r' id found
    rw [call] at found
    obtain ⟨positive, le⟩ := drawn.range r' id (ids r' id found)
    exact ⟨positive, Nat.le_succ_of_le le⟩
  · intro r₁ r₂ id _ found
    rw [call] at found
    exact Nat.lt_succ_of_le (drawn.range r₂ id (ids r₂ id found)).2
  · intro r₁ r₂ id first second
    rw [call] at first second
    exact drawn.distinct r₁ r₂ id (ids r₁ id first) (ids r₂ id second)

/-- The load gives the call that has added last an id that no other has. -/
theorem load_drawn (drawn : s.Drawn) {r : Nat} (enabled : s.Enabled (.load r)) :
    s.next given (.load r) = s.setCall r (.drawn s.adds) ∧
      (s.setCall r (.drawn s.adds)).Drawn := by
  have adding : (s.call r).adding = true := enabled
  have positive := drawn.positive r adding
  have counter := drawn.counter
  have nonzero : ¬ (s.call r = .added ∧ s.nextId = 0) := by
    rintro ⟨-, zero⟩
    omega
  have step : s.next given (.load r) = s.setCall r (.drawn s.adds) := by
    rw [next, if_neg nonzero, counter]
  -- the others are where they were, and none of them is adding
  have others : ∀ r', ((s.setCall r (.drawn s.adds)).call r').adding = false := by
    intro r'
    by_cases here : r' = r
    · subst here
      rw [setCall_self]
      rfl
    · rw [setCall_of_ne s here]
      by_contra also
      exact here (drawn.last r' r (by simpa using also) adding)
  have ids : ∀ r' id, ((s.setCall r (.drawn s.adds)).call r').id = some id →
      r' = r ∧ id = s.adds ∨ r' ≠ r ∧ (s.call r').id = some id := by
    intro r' id found
    by_cases here : r' = r
    · subst here
      rw [setCall_self] at found
      cases found
      exact .inl ⟨rfl, rfl⟩
    · rw [setCall_of_ne s here] at found
      exact .inr ⟨here, found⟩
  refine ⟨step, counter, ?_, ?_, ?_, ?_, ?_, ?_⟩
  · intro r'
    by_cases here : r' = r
    · subst here
      rw [setCall_self]
      exact ⟨nofun, nofun⟩
    · rw [setCall_of_ne s here]
      exact drawn.unwrapped r'
  · intro r₁ r₂ first
    rw [others r₁] at first
    cases first
  · intro r' now
    rw [others r'] at now
    cases now
  · intro r' id found
    rcases ids r' id found with ⟨-, rfl⟩ | ⟨-, old⟩
    · exact ⟨positive, Nat.le_refl _⟩
    · exact drawn.range r' id old
  · intro r₁ r₂ id now
    rw [others r₁] at now
    cases now
  · intro r₁ r₂ id first second
    rcases ids r₁ id first with ⟨rfl, rfl⟩ | ⟨-, old₁⟩
    · rcases ids r₂ _ second with ⟨rfl, -⟩ | ⟨-, old₂⟩
      · rfl
      · exact absurd (drawn.below r₁ r₂ _ adding old₂) (Nat.lt_irrefl _)
    · rcases ids r₂ id second with ⟨rfl, rfl⟩ | ⟨-, old₂⟩
      · exact absurd (drawn.below r₂ r₁ _ adding old₁) (Nat.lt_irrefl _)
      · exact drawn.distinct r₁ r₂ id old₁ old₂

/-- Registering a call leaves every id as it is. -/
theorem registered_drawn (drawn : s.Drawn) {t : Requests} {r id : Nat} (at' : s.call r = .drawn id)
    (nextId : t.nextId = s.nextId) (adds : t.adds = s.adds)
    (call : t.call = Function.update s.call r (.registered id)) : t.Drawn := by
  have ids : ∀ r', (t.call r').id = (s.call r').id := by
    intro r'
    rw [call]
    by_cases here : r' = r
    · subst here
      rw [Function.update_self, at']
      rfl
    · rw [Function.update_of_ne here]
  have adding : ∀ r', (t.call r').adding = (s.call r').adding := by
    intro r'
    rw [call]
    by_cases here : r' = r
    · subst here
      rw [Function.update_self, at']
      rfl
    · rw [Function.update_of_ne here]
  refine ⟨?_, ?_, ?_, ?_, ?_, ?_, ?_⟩
  · rw [nextId, adds, drawn.counter]
  · intro r'
    rw [call]
    by_cases here : r' = r
    · subst here
      rw [Function.update_self]
      exact ⟨nofun, nofun⟩
    · rw [Function.update_of_ne here]
      exact drawn.unwrapped r'
  · intro r₁ r₂
    rw [adding, adding]
    exact drawn.last r₁ r₂
  · intro r'
    rw [adding, adds]
    exact drawn.positive r'
  · intro r' id'
    rw [ids, adds]
    exact drawn.range r' id'
  · intro r₁ r₂ id'
    rw [adding, ids, adds]
    exact drawn.below r₁ r₂ id'
  · intro r₁ r₂ id'
    rw [ids, ids]
    exact drawn.distinct r₁ r₂ id'

/-! ## Handlers -/

/-- Where the handlers are: in the map until a response with their id comes, then in the
hand of a thread, and called in the end. -/
structure Stored (given : Nat → Bool) (s : Requests) : Prop where
  map : ∀ r id, s.map id = some r ↔ s.call r = .registered id ∧ s.seen r = false
  seen : ∀ r, s.seen r = true → ∃ id, s.call r = .registered id
  hand : ∀ k r id, s.hand k = some (r, id) →
    s.call r = .registered id ∧ s.seen r = true ∧ r ∉ s.invoked.map Prod.fst
  apart : ∀ k k' r id id', s.hand k = some (r, id) → s.hand k' = some (r, id') → k = k'
  invoked : ∀ r id, (r, id) ∈ s.invoked → s.call r = .registered id ∧ s.seen r = true
  once : (s.invoked.map Prod.fst).Nodup
  called : ∀ r id, s.call r = .registered id → s.seen r = true → given r = true →
    (∃ k, s.hand k = some (r, id)) ∨ (r, id) ∈ s.invoked

theorem start_stored : start.Stored given :=
  ⟨fun _ _ => ⟨nofun, fun both => nomatch both.1⟩, nofun, nofun, nofun, nofun, .nil, nofun⟩

/-- A step of a call that is not registered before or after. -/
theorem stored_of_call (stored : s.Stored given) {t : Requests} {r : Nat} {point : CallPoint}
    (call : t.call = Function.update s.call r point) (map : t.map = s.map) (seen : t.seen = s.seen)
    (hand : t.hand = s.hand) (invoked : t.invoked = s.invoked)
    (before : ∀ id, s.call r ≠ .registered id) (after : ∀ id, point ≠ .registered id) :
    t.Stored given := by
  have registered : ∀ r' id, t.call r' = .registered id ↔ s.call r' = .registered id := by
    intro r' id
    rw [call]
    by_cases here : r' = r
    · subst here
      rw [Function.update_self]
      exact ⟨fun now => absurd now (after id), fun old => absurd old (before id)⟩
    · rw [Function.update_of_ne here]
  refine ⟨?_, ?_, ?_, ?_, ?_, ?_, ?_⟩
  · intro r' id
    rw [map, seen, registered]
    exact stored.map r' id
  · intro r' met
    rw [seen] at met
    obtain ⟨id, at'⟩ := stored.seen r' met
    exact ⟨id, (registered r' id).mpr at'⟩
  · intro k r' id
    rw [hand, registered, seen, invoked]
    exact stored.hand k r' id
  · intro k k' r' id id'
    rw [hand]
    exact stored.apart k k' r' id id'
  · intro r' id
    rw [invoked, registered, seen]
    exact stored.invoked r' id
  · rw [invoked]
    exact stored.once
  · intro r' id
    rw [registered, seen, hand, invoked]
    exact stored.called r' id

/-- A call that is being registered finds no other handler under its id. -/
theorem emplace_stored (drawn : s.Drawn) (stored : s.Stored given) {r id : Nat}
    (at' : s.call r = .drawn id) :
    s.next given (.emplace r) =
        { s.setCall r (.registered id) with map := Function.update s.map id (some r) } ∧
      (s.next given (.emplace r)).Stored given := by
  have free : s.map id = none := by
    rw [Option.eq_none_iff_forall_not_mem]
    intro r' there
    have old := ((stored.map r' id).mp there).1
    have same := drawn.distinct r r' id (by rw [at']; rfl) (by rw [old]; rfl)
    subst same
    rw [at'] at old
    cases old
  have unseen : s.seen r = false := by
    by_contra met
    obtain ⟨id', old⟩ := stored.seen r (by simpa using met)
    rw [at'] at old
    cases old
  have step : s.next given (.emplace r) =
      { s.setCall r (.registered id) with map := Function.update s.map id (some r) } := by
    simp only [next, at', free, if_true]
  have registered : ∀ r' id', (s.setCall r (.registered id)).call r' = .registered id' ↔
      r' = r ∧ id' = id ∨ r' ≠ r ∧ s.call r' = .registered id' := by
    intro r' id'
    by_cases here : r' = r
    · subst here
      rw [setCall_self]
      simp [eq_comm]
    · rw [setCall_of_ne s here]
      simp [here]
  have kept : ∀ {r' id'}, s.call r' = .registered id' →
      (s.setCall r (.registered id)).call r' = .registered id' := by
    intro r' id' old
    refine (registered r' id').mpr (.inr ⟨?_, old⟩)
    rintro rfl
    rw [at'] at old
    cases old
  rw [step]
  refine ⟨rfl, ?_, ?_, ?_, stored.apart, ?_, stored.once, ?_⟩
  · intro r' id'
    show Function.update s.map id (some r) id' = some r' ↔
      (s.setCall r (.registered id)).call r' = .registered id' ∧ s.seen r' = false
    rw [registered]
    by_cases same : id' = id
    · subst same
      rw [Function.update_self]
      constructor
      · rintro ⟨⟩
        exact ⟨.inl ⟨rfl, rfl⟩, unseen⟩
      · rintro ⟨⟨rfl, -⟩ | ⟨-, old⟩, new⟩
        · rfl
        · have there := (stored.map r' id').mpr ⟨old, new⟩
          rw [free] at there
          cases there
    · rw [Function.update_of_ne same, stored.map r' id']
      constructor
      · rintro ⟨old, new⟩
        exact ⟨(registered r' id').mp (kept old), new⟩
      · rintro ⟨⟨-, same'⟩ | ⟨-, old⟩, new⟩
        · exact absurd same' same
        · exact ⟨old, new⟩
  · intro r' met
    obtain ⟨id', old⟩ := stored.seen r' met
    exact ⟨id', kept old⟩
  · intro k r' id' holds
    obtain ⟨old, rest⟩ := stored.hand k r' id' holds
    exact ⟨kept old, rest⟩
  · intro r' id' was
    obtain ⟨old, met⟩ := stored.invoked r' id' was
    exact ⟨kept old, met⟩
  · intro r' id' now met
    rcases (registered r' id').mp now with ⟨rfl, -⟩ | ⟨-, old⟩
    · have met' : s.seen r' = true := met
      rw [unseen] at met'
      cases met'
    · exact stored.called r' id' old met

/-- A thread takes the handler of `r`, the only call registered under `id`. -/
theorem taken_stored (stored : s.Stored given) {t : Requests} {k r id : Nat}
    (at' : s.call r = .registered id) (unseen : s.seen r = false)
    (only : ∀ r', s.call r' = .registered id → r' = r) (free : s.hand k = none)
    (call : t.call = s.call) (map : t.map = Function.update s.map id none)
    (hand : t.hand = Function.update s.hand k (some (r, id)))
    (seen : ∀ r', t.seen r' = if r' = r then true else s.seen r')
    (invoked : t.invoked = s.invoked) : t.Stored given := by
  have met : ∀ r', s.seen r' = true → t.seen r' = true := by
    intro r' before
    rw [seen]
    split
    · rfl
    · exact before
  have noHand : ∀ k' id', s.hand k' ≠ some (r, id') := by
    intro k' id' holds
    have before := (stored.hand k' r id' holds).2.1
    rw [unseen] at before
    cases before
  refine ⟨?_, ?_, ?_, ?_, ?_, ?_, ?_⟩
  · intro r' id'
    rw [map, call, seen]
    by_cases same : id' = id
    · subst same
      rw [Function.update_self]
      constructor
      · nofun
      · rintro ⟨now, new⟩
        rw [if_pos (only r' now)] at new
        cases new
    · rw [Function.update_of_ne same, stored.map r' id']
      refine and_congr_right fun now => ?_
      have other : r' ≠ r := by
        rintro rfl
        rw [at'] at now
        cases now
        exact same rfl
      rw [if_neg other]
  · intro r' now
    rw [call]
    rw [seen] at now
    by_cases here : r' = r
    · subst here
      exact ⟨id, at'⟩
    · rw [if_neg here] at now
      exact stored.seen r' now
  · intro k' r' id' holds
    rw [call, invoked]
    rw [hand] at holds
    by_cases thread : k' = k
    · subst thread
      rw [Function.update_self] at holds
      cases holds
      refine ⟨at', by rw [seen, if_pos rfl], fun called => ?_⟩
      obtain ⟨⟨_, _⟩, was, rfl⟩ := List.mem_map.mp called
      have before := (stored.invoked _ _ was).2
      rw [unseen] at before
      cases before
    · rw [Function.update_of_ne thread] at holds
      obtain ⟨now, before, fresh⟩ := stored.hand k' r' id' holds
      exact ⟨now, met r' before, fresh⟩
  · intro k₁ k₂ r' id₁ id₂ first second
    rw [hand] at first second
    by_cases one : k₁ = k
    · subst one
      rw [Function.update_self] at first
      cases first
      by_contra two
      rw [Function.update_of_ne (Ne.symm two)] at second
      exact noHand k₂ id₂ second
    · rw [Function.update_of_ne one] at first
      by_cases two : k₂ = k
      · subst two
        rw [Function.update_self] at second
        cases second
        exact absurd first (noHand k₁ id₁)
      · rw [Function.update_of_ne two] at second
        exact stored.apart k₁ k₂ r' id₁ id₂ first second
  · intro r' id' was
    rw [invoked] at was
    obtain ⟨now, before⟩ := stored.invoked r' id' was
    exact ⟨by rw [call, now], met r' before⟩
  · rw [invoked]
    exact stored.once
  · intro r' id' now after wanted
    rw [call] at now
    rw [seen] at after
    rw [hand, invoked]
    by_cases here : r' = r
    · subst here
      rw [at'] at now
      cases now
      exact .inl ⟨k, Function.update_self ..⟩
    · rw [if_neg here] at after
      rcases stored.called r' id' now after wanted with ⟨k', holds⟩ | was
      · refine .inl ⟨k', ?_⟩
        rw [Function.update_of_ne _, holds]
        rintro rfl
        rw [free] at holds
        cases holds
      · exact .inr was

/-- A response takes the handler of the one request it can be for, or finds nothing new. -/
theorem find_stored (drawn : s.Drawn) (stored : s.Stored given) {k id : Nat}
    (enabled : s.Enabled (.find k id)) : (s.next given (.find k id)).Stored given := by
  cases there : s.map id with
  | none =>
      -- whoever is registered under the id has met a response before
      have same : (fun r => s.seen r || decide (s.call r = .registered id)) = s.seen := by
        funext r
        by_cases at' : s.call r = .registered id
        · cases met : s.seen r with
          | true => rfl
          | false =>
              rw [(stored.map r id).mpr ⟨at', met⟩] at there
              cases there
        · simp [at']
      simp only [next, there, same]
      exact stored
  | some r =>
      obtain ⟨at', unseen⟩ := (stored.map r id).mp there
      have only : ∀ r', s.call r' = .registered id → r' = r := fun r' also =>
        drawn.distinct r' r id (by rw [also]; rfl) (by rw [at']; rfl)
      have met : ∀ r', (s.seen r' || decide (s.call r' = .registered id)) =
          if r' = r then true else s.seen r' := by
        intro r'
        by_cases here : r' = r
        · subst here
          simp [at']
        · have other : s.call r' ≠ .registered id := fun also => here (only r' also)
          simp [here, other]
      simp only [next, there]
      exact taken_stored stored at' unseen only enabled rfl rfl rfl met rfl

/-- The handler a thread has in hand is called, if there is one. -/
theorem invoke_stored (stored : s.Stored given) {k : Nat} :
    (s.next given (.invoke k)).Stored given := by
  cases held : s.hand k with
  | none =>
      simp only [next, held]
      exact stored
  | some pair =>
      obtain ⟨r, id⟩ := pair
      obtain ⟨at', met, fresh⟩ := stored.hand k r id held
      have others : ∀ k' r' id', Function.update s.hand k none k' = some (r', id') →
          k' ≠ k ∧ s.hand k' = some (r', id') := by
        intro k' r' id' holds
        by_cases thread : k' = k
        · subst thread
          rw [Function.update_self] at holds
          cases holds
        · rw [Function.update_of_ne thread] at holds
          exact ⟨thread, holds⟩
      have listed : ∀ p, p ∈ (if given r then (r, id) :: s.invoked else s.invoked) →
          p = (r, id) ∨ p ∈ s.invoked := by
        intro p
        split
        · exact List.mem_cons.mp
        · exact .inr
      simp only [next, held]
      refine ⟨stored.map, stored.seen, ?_, ?_, ?_, ?_, ?_⟩
      · intro k' r' id' holds
        obtain ⟨thread, before⟩ := others k' r' id' holds
        obtain ⟨now, met', fresh'⟩ := stored.hand k' r' id' before
        refine ⟨now, met', fun called => ?_⟩
        obtain ⟨p, was, rfl⟩ := List.mem_map.mp called
        rcases listed p was with rfl | old
        · exact thread (stored.apart k' k r id' id before held)
        · exact fresh' (List.mem_map_of_mem old)
      · intro k₁ k₂ r' id₁ id₂ first second
        exact stored.apart k₁ k₂ r' id₁ id₂ (others k₁ r' id₁ first).2 (others k₂ r' id₂ second).2
      · intro r' id' was
        rcases listed (r', id') was with same | old
        · cases same
          exact ⟨at', met⟩
        · exact stored.invoked r' id' old
      · split
        · exact List.nodup_cons.mpr ⟨fresh, stored.once⟩
        · exact stored.once
      · intro r' id' now met' wanted
        rcases stored.called r' id' now met' wanted with ⟨k', holds⟩ | was
        · by_cases thread : k' = k
          · subst thread
            rw [held] at holds
            cases holds
            exact .inr (by rw [if_pos wanted]; exact .head _)
          · exact .inl ⟨k', by rw [← holds]; exact Function.update_of_ne thread ..⟩
        · refine .inr ?_
          split
          · exact .tail _ was
          · exact was

/-! ## Runs -/

theorem adds_le_next (s : Requests) (step : RequestStep) : s.adds ≤ (s.next given step).adds := by
  cases step with
  | fetchAdd r => exact Nat.le_succ _
  | load r =>
      simp only [next]
      split <;> exact Nat.le_refl _
  | emplace r =>
      simp only [next]
      split <;> exact Nat.le_refl _
  | find k id =>
      simp only [next]
      split <;> exact Nat.le_refl _
  | invoke k =>
      simp only [next]
      split <;> exact Nat.le_refl _

theorem next_kept {step : RequestStep} (drawn : s.Drawn) (stored : s.Stored given)
    (enabled : s.Enabled step) (alone : s.Alone step)
    (few : (s.next given step).adds < 2 ^ 64 - 1) :
    (s.next given step).Drawn ∧ (s.next given step).Stored given := by
  cases step with
  | fetchAdd r =>
      have room : s.adds + 1 < 2 ^ 64 := by
        have : s.adds + 1 < 2 ^ 64 - 1 := few
        omega
      have idle : s.call r = .idle := enabled.resolve_right (drawn.unwrapped r).1
      refine ⟨fetchAdd_drawn drawn enabled alone room, ?_⟩
      refine stored_of_call stored rfl rfl rfl rfl rfl (by rw [idle]; nofun) ?_
      rw [idle]
      nofun
  | load r =>
      have adding : (s.call r).adding = true := enabled
      have loaded : s.next given (.load r) = _ ∧ _ := load_drawn drawn enabled
      rw [loaded.1]
      refine ⟨loaded.2, stored_of_call stored rfl rfl rfl rfl rfl ?_ nofun⟩
      intro id at'
      rw [at'] at adding
      cases adding
  | emplace r =>
      obtain ⟨id, at'⟩ := enabled
      obtain ⟨step, after⟩ := emplace_stored drawn stored at'
      refine ⟨?_, after⟩
      rw [step]
      exact registered_drawn drawn at' rfl rfl rfl
  | find k id =>
      refine ⟨?_, find_stored drawn stored enabled⟩
      simp only [next]
      split <;> exact drawn_of_call drawn rfl rfl rfl
  | invoke k =>
      refine ⟨?_, invoke_stored stored⟩
      simp only [next]
      split <;> exact drawn_of_call drawn rfl rfl rfl

/-- **Responses go to their requests where ids are drawn one at a time.** In every run of
calls and responses, in any order and with any ids, in which no call adds to the counter
between another's add and its load, requests and responses match, for fewer than
`2 ^ 64 - 1` draws. -/
theorem matched_run
    (run : ReflTransGen (fun s t => ∃ step, (s.Enabled step ∧ s.Alone step) ∧ t = s.next given step)
      start s) (few : s.adds < 2 ^ 64 - 1) : s.Matched given := by
  have kept : s.adds < 2 ^ 64 - 1 → s.Drawn ∧ s.Stored given := by
    refine Simulation.invariant
      (P := fun s => s.adds < 2 ^ 64 - 1 → s.Drawn ∧ s.Stored given) ?_ run
      fun _ => ⟨start_drawn, start_stored⟩
    rintro s _ ⟨step, ⟨enabled, alone⟩, rfl⟩ kept few
    obtain ⟨drawn, stored⟩ := kept (Nat.lt_of_le_of_lt (adds_le_next s step) few)
    exact next_kept drawn stored enabled alone few
  obtain ⟨drawn, stored⟩ := kept few
  refine ⟨?_, drawn.distinct, stored.once, fun r id was => (stored.invoked r id was).1, ?_,
    stored.called⟩
  · intro r id found
    exact Nat.ne_of_gt (drawn.range r id found).1
  · intro r id at' unseen k _
    simp only [next, (stored.map r id).mpr ⟨at', unseen⟩]
    exact Function.update_self ..

end Requests

/-- Two calls draw their ids in turn and store their handlers. The responses come the other
way round, to two threads; a second response to the first call finds nothing. -/
def hellosAnswered : List RequestStep :=
  [.fetchAdd 0, .load 0, .fetchAdd 1, .load 1, .emplace 1, .emplace 0, .find 0 2, .find 1 1,
    .find 2 1, .invoke 1, .invoke 0]

theorem hello_answered_matched :
    (hellosAnswered.foldl (Requests.next fun _ => true) Requests.start).invoked =
        [(1, 2), (0, 1)] ∧
      (hellosAnswered.foldl (Requests.next fun _ => true) Requests.start).Matched
        fun _ => true := by
  have allowed : Simulation.Allowed (fun s step => Requests.Enabled s step ∧ Requests.Alone s step)
      (Requests.next fun _ => true) Requests.start hellosAnswered := by
    refine ⟨⟨.inl rfl, fun _ => rfl⟩, ⟨rfl, trivial⟩, ⟨.inl rfl, fun r => ?_⟩, ⟨rfl, trivial⟩,
      ⟨⟨2, rfl⟩, trivial⟩, ⟨⟨1, rfl⟩, trivial⟩, ⟨rfl, trivial⟩, ⟨rfl, trivial⟩, ⟨rfl, trivial⟩,
      ⟨nofun, trivial⟩, ⟨nofun, trivial⟩, trivial⟩
    -- the first call has loaded before the second adds
    cases r <;> rfl
  exact ⟨rfl, Requests.matched_run allowed.run (by decide)⟩

/-- Two calls add before either loads. -/
def crossedDraws : List RequestStep := [.fetchAdd 0, .fetchAdd 1, .load 0, .load 1]

/-- Both get the id 2. -/
theorem same_id_twice :
    ¬ ∀ (given : Nat → Bool) (s : Requests),
      ReflTransGen (fun s t => ∃ step, s.Enabled step ∧ t = s.next given step) Requests.start s →
      s.adds < 2 ^ 64 - 1 → s.Matched given := by
  intro matched
  have allowed : Simulation.Allowed Requests.Enabled (Requests.next fun _ => true) Requests.start
      crossedDraws :=
    ⟨.inl rfl, .inl rfl, rfl, rfl, trivial⟩
  have wrong := (matched _ _ allowed.run (by decide)).distinct 0 1 2 rfl rfl
  cases wrong

end Teadfs
