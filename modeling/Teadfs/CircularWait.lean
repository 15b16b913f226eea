/-
# Teadfs.CircularWait — who waits for whom

`lower_file_mutex` is taken in three places: by `teadfs_open` to write `file_decrypt`, by
`teadfs_get_lower_file` around the lower open, and by `teadfs_put_lower_file`, through
`atomic_dec_and_mutex_lock`, when the last counted handle goes. The last of these sends
the release upcall with the mutex held. The other two exempt the client; `teadfs_open`
does not, so a client that opens the file named in a release upcall through the mount
waits for the process that waits for it.

A step is the code of one thread between two of the points where another thread can come
in: the mutex, the count, and an upcall. Threads of processes and of the client interleave
in any order, and a timeout comes at any time.
-/
import Teadfs.Lib.Simulation
import Teadfs.Protocol

namespace Teadfs

set_option autoImplicit false

open Protocol Relation

/-- A thread of a process, or one of the client's. `kpid` is zero for the latter. -/
inductive Thread where
  | process (q : Nat)
  | client (c : Nat)
  deriving DecidableEq, Repr

/-- An upcall as it is sent: by which thread, and about which file. -/
structure Asked where
  id : Nat
  proc : Nat
  type : MsgType
  file : Nat
  deriving DecidableEq

/-- Where a thread is. -/
inductive Point where
  /-- Outside the module. -/
  | user
  /-- Before the `mutex_lock` of `teadfs_open`. -/
  | openLock (f : Nat)
  /-- With the mutex, before `file_decrypt` is written. -/
  | openFlag (f : Nat)
  /-- Before `teadfs_request_open_file`. -/
  | openAsk (f : Nat)
  | openWait (f id : Nat)
  /-- Before the `mutex_lock` of `teadfs_get_lower_file`, or the lower open of the client. -/
  | getLower (f : Nat)
  /-- With the mutex, the count having been raised to `count`, before the lower open. -/
  | getHeld (f : Nat) (count : Int)
  | readWait (f id : Nat)
  /-- Before the decrement of `atomic_dec_and_mutex_lock`. -/
  | putDec (f : Nat)
  /-- Before its `mutex_lock`. -/
  | putLock (f : Nat)
  /-- With the mutex, before the second decrement. -/
  | putHeld (f : Nat)
  /-- With the mutex and a count of zero, before `teadfs_request_release`. -/
  | putAsk (f : Nat)
  | putWait (f id : Nat)
  /-- With the mutex, before the `mutex_unlock` of `teadfs_put_lower_file`. -/
  | putUnlock (f : Nat)
  deriving DecidableEq

namespace Point

/-- The file whose mutex a thread at the point holds. -/
def holds : Point → Option Nat
  | .openFlag f => some f
  | .getHeld f _ => some f
  | .putHeld f => some f
  | .putAsk f => some f
  | .putWait f _ => some f
  | .putUnlock f => some f
  | _ => none

/-- The file whose mutex the thread's next step takes. -/
def wants : Thread → Point → Option Nat
  | _, .openLock f => some f
  | .process _, .getLower f => some f
  | _, .putLock f => some f
  | _, _ => none

/-- The upcall whose reply a process waits for. -/
def awaits (q : Nat) : Point → Option Asked
  | .openWait f id => some ⟨id, q, .open, f⟩
  | .readWait f id => some ⟨id, q, .read, f⟩
  | .putWait f id => some ⟨id, q, .release, f⟩
  | _ => none

/-- Where a wait goes on, with the verdict of an open. A wait that timed out gives no
verdict, and nothing is prohibited. -/
def woken (prohibit : Bool) : Point → Point
  | .openWait f _ => if prohibit then .user else .getLower f
  | .readWait _ _ => .user
  | .putWait f _ => .putUnlock f
  | point => point

end Point

structure Locks where
  /-- `lower_file_mutex` of each inode. -/
  owner : Nat → Option Thread
  /-- `lower_file_count` of each inode. -/
  count : Nat → Int
  point : Thread → Point
  /-- The files of the handles each thread has open. -/
  opened : Thread → List Nat
  /-- The upcalls that were sent and not yet taken up. -/
  sent : List Asked
  /-- The upcall whose callback a thread of the client is running. -/
  serving : Nat → Option Asked
  uniqueId : Nat

inductive LockStep where
  | enterOpen (t : Thread) (f : Nat)
  | lock (t : Thread)
  | setFlag (t : Thread)
  | ask (q : Nat)
  /-- No upcall is sent: there is no client, no memory, or it is the client that asks. -/
  | skip (t : Thread)
  | openLower (t : Thread) (succeeds : Bool)
  | read (t : Thread) (f : Nat)
  /-- The release of the `k`-th handle of the thread. -/
  | enterRelease (t : Thread) (k : Nat)
  | decUnlessOne (q : Nat)
  | decAndTest (q : Nat)
  | unlock (q : Nat)
  /-- A thread of the client takes up the `k`-th upcall. -/
  | receive (c k : Nat)
  /-- The callback returns and its result is sent. -/
  | reply (c : Nat) (prohibit : Bool)
  | timeout (q : Nat)

namespace Locks

def move (s : Locks) (t : Thread) (point : Point) : Locks :=
  { s with point := Function.update s.point t point }

def setOwner (s : Locks) (f : Nat) (owner : Option Thread) : Locks :=
  { s with owner := Function.update s.owner f owner }

def setCount (s : Locks) (f : Nat) (count : Int) : Locks :=
  { s with count := Function.update s.count f count }

def setOpened (s : Locks) (t : Thread) (opened : List Nat) : Locks :=
  { s with opened := Function.update s.opened t opened }

/-- The upcall goes out, and the process waits at `point`. -/
def send (s : Locks) (q : Nat) (point : Point) : Locks :=
  { s.move (.process q) point with
    sent := s.sent ++ (point.awaits q).toList
    uniqueId := s.uniqueId + 1 }

/-- When a step can be taken. -/
def Enabled (s : Locks) : LockStep → Prop
  | .enterOpen t _ => s.point t = .user
  | .lock t => ∃ f, (s.point t).wants t = some f ∧ s.owner f = none
  | .setFlag t => ∃ f, s.point t = .openFlag f
  | .ask q => ∃ f, s.point (.process q) = .openAsk f ∨ s.point (.process q) = .putAsk f
  | .skip t => ∃ f, s.point t = .openAsk f ∨ s.point t = .putAsk f
  | .openLower t _ => 
      (∃ f count, s.point t = .getHeld f count) ∨ ∃ f c, t = .client c ∧ s.point t = .getLower f
  | .read t _ => s.point t = .user
  | .enterRelease t k => s.point t = .user ∧ k < (s.opened t).length
  | .decUnlessOne q => ∃ f, s.point (.process q) = .putDec f
  | .decAndTest q => ∃ f, s.point (.process q) = .putHeld f
  | .unlock q => ∃ f, s.point (.process q) = .putUnlock f
  | .receive c k => s.point (.client c) = .user ∧ s.serving c = none ∧ k < s.sent.length
  | .reply c _ => s.point (.client c) = .user ∧ s.serving c ≠ none
  | .timeout q => (s.point (.process q)).awaits q ≠ none

def next (s : Locks) : LockStep → Locks
  | .enterOpen t f => s.move t (.openLock f)
  | .lock t =>
      match s.point t with
      | .openLock f => (s.move t (.openFlag f)).setOwner f (some t)
      | .getLower f =>
          ((s.move t (.getHeld f (s.count f + 1))).setOwner f (some t)).setCount f (s.count f + 1)
      | .putLock f => (s.move t (.putHeld f)).setOwner f (some t)
      | _ => s
  | .setFlag t =>
      match s.point t with
      | .openFlag f => (s.move t (.openAsk f)).setOwner f none
      | _ => s
  | .ask q =>
      match s.point (.process q) with
      | .openAsk f => s.send q (.openWait f s.uniqueId)
      | .putAsk f => s.send q (.putWait f s.uniqueId)
      | _ => s
  | .skip t =>
      match s.point t with
      | .openAsk f => s.move t (.getLower f)
      | .putAsk f => s.move t (.putUnlock f)
      | _ => s
  | .openLower t succeeds =>
      match s.point t with
      | .getHeld f count =>
          -- a count below one is refused, a lower open that fails sets it to zero
          let held := (s.move t .user).setOwner f none
          if count < 1 then held
          else if succeeds then held.setOpened t (f :: s.opened t)
          else held.setCount f 0
      | .getLower f =>
          if succeeds then (s.move t .user).setOpened t (f :: s.opened t) else s.move t .user
      | _ => s
  | .read (.client _) _ => s
  | .read (.process q) f => s.send q (.readWait f s.uniqueId)
  | .enterRelease t k =>
      match (s.opened t)[k]? with
      | none => s
      | some f =>
          let left := s.setOpened t ((s.opened t).eraseIdx k)
          match t with
          | .client _ => left
          | .process q => left.move (.process q) (.putDec f)
  | .decUnlessOne q =>
      match s.point (.process q) with
      | .putDec f =>
          if s.count f = 1 then s.move (.process q) (.putLock f)
          else (s.move (.process q) .user).setCount f (s.count f - 1)
      | _ => s
  | .decAndTest q =>
      match s.point (.process q) with
      | .putHeld f =>
          if s.count f = 1 then (s.move (.process q) (.putAsk f)).setCount f 0
          else ((s.move (.process q) .user).setOwner f none).setCount f (s.count f - 1)
      | _ => s
  | .unlock q =>
      match s.point (.process q) with
      | .putUnlock f => (s.move (.process q) .user).setOwner f none
      | _ => s
  | .receive c k =>
      match s.sent[k]? with
      | none => s
      | some u =>
          { s with
            sent := s.sent.eraseIdx k
            serving := Function.update s.serving c (some u) }
  | .reply c prohibit =>
      match s.serving c with
      | none => s
      | some u =>
          let answered := { s with serving := Function.update s.serving c none }
          if (s.point (.process u.proc)).awaits u.proc = some u then
            answered.move (.process u.proc) ((s.point (.process u.proc)).woken prohibit)
          else answered
  | .timeout q => s.move (.process q) ((s.point (.process q)).woken false)

/-- Nothing is open, and every thread is outside the module. -/
def start : Locks where
  owner := fun _ => none
  count := fun _ => 0
  point := fun _ => .user
  opened := fun _ => []
  sent := []
  serving := fun _ => none
  uniqueId := 1

/-- A thread of the client that serves an upcall waits for a mutex whose holder waits for
the reply to that upcall. -/
def CircularWait (s : Locks) : Prop :=
  ∃ c u f, s.serving c = some u ∧ (s.point (.client c)).wants (.client c) = some f ∧
    s.owner f = some (.process u.proc) ∧ (s.point (.process u.proc)).awaits u.proc = some u

/-! ## Mutexes -/

/-- The threads that hold a mutex are those at a point where they should. -/
def Owned (s : Locks) : Prop := ∀ f t, s.owner f = some t ↔ (s.point t).holds = some f

/-- What a step does to the mutexes: one thread moves, and keeps, takes or gives up one. -/
inductive Moves (s t : Locks) (thread : Thread) (point : Point) : Prop where
  | keeps (moved : t.point = Function.update s.point thread point) (same : t.owner = s.owner)
      (holds : point.holds = (s.point thread).holds)
  | takes (f : Nat) (moved : t.point = Function.update s.point thread point)
      (free : s.owner f = none) (before : (s.point thread).holds = none)
      (owner : t.owner = Function.update s.owner f (some thread)) (holds : point.holds = some f)
  | gives (f : Nat) (moved : t.point = Function.update s.point thread point)
      (before : (s.point thread).holds = some f)
      (owner : t.owner = Function.update s.owner f none) (holds : point.holds = none)

theorem Moves.owned {s t : Locks} {thread : Thread} {point : Point}
    (moves : Moves s t thread point) (owned : s.Owned) : t.Owned := by
  intro g other
  cases moves with
  | keeps moved same holds =>
      rw [moved, same, owned]
      by_cases here : other = thread
      · subst here
        rw [Function.update_self, holds]
      · rw [Function.update_of_ne here]
  | takes f moved free before owner holds =>
      rw [moved, owner]
      by_cases here : other = thread
      · subst here
        rw [Function.update_self, holds]
        by_cases file : g = f
        · subst file
          simp
        · rw [Function.update_of_ne file, owned, before]
          simp [Ne.symm file]
      · rw [Function.update_of_ne here]
        by_cases file : g = f
        · subst file
          rw [Function.update_self, ← owned, free]
          simp [Ne.symm here]
        · rw [Function.update_of_ne file, owned]
  | gives f moved before owner holds =>
      have holder := (owned f thread).mpr before
      rw [moved, owner]
      by_cases here : other = thread
      · subst here
        rw [Function.update_self, holds]
        by_cases file : g = f
        · subst file
          simp
        · rw [Function.update_of_ne file, owned, before]
          simp [Ne.symm file]
      · rw [Function.update_of_ne here]
        by_cases file : g = f
        · subst file
          rw [Function.update_self, ← owned, holder]
          simp [Ne.symm here]
        · rw [Function.update_of_ne file, owned]

theorem Moves.stays {s t : Locks} (thread : Thread) (moved : t.point = s.point)
    (same : t.owner = s.owner) : Moves s t thread (s.point thread) :=
  .keeps (by rw [Function.update_eq_self, moved]) same rfl

theorem holds_of_awaits {q : Nat} {point : Point} {prohibit : Bool} (waits : point.awaits q ≠ none) :
    (point.woken prohibit).holds = point.holds := by
  cases point with
  | openWait f id => cases prohibit <;> rfl
  | readWait f id => rfl
  | putWait f id => rfl
  | _ => exact absurd rfl waits

theorem next_moves {s : Locks} {step : LockStep} (enabled : s.Enabled step) :
    ∃ thread point, Moves s (s.next step) thread point ∧
      ∀ c, thread = .client c → (∀ f, step ≠ .enterOpen (.client c) f) →
        point.wants (.client c) = none ∨ point = s.point thread := by
  cases step with
  | enterOpen t f =>
      have at' : s.point t = .user := enabled
      exact ⟨t, .openLock f, .keeps rfl rfl (by rw [at']; rfl),
        fun c same other => absurd (by rw [same]) (other f)⟩
  | lock t =>
      obtain ⟨f, wants, free⟩ := enabled
      simp only [next]
      cases at' : s.point t with
      | openLock g =>
          rw [at'] at wants
          cases wants
          exact ⟨t, .openFlag f, .takes f rfl free (by rw [at']; rfl) rfl rfl, fun _ _ _ => .inl rfl⟩
      | getLower g =>
          rw [at'] at wants
          cases t with
          | client c => cases wants
          | process q =>
              cases wants
              exact ⟨_, .getHeld f _, .takes f rfl free (by rw [at']; rfl) rfl rfl,
                fun _ _ _ => .inl rfl⟩
      | putLock g =>
          rw [at'] at wants
          cases wants
          exact ⟨t, .putHeld f, .takes f rfl free (by rw [at']; rfl) rfl rfl, fun _ _ _ => .inl rfl⟩
      | _ =>
          exact ⟨t, _, .stays t rfl rfl, fun _ _ _ => .inr rfl⟩
  | setFlag t =>
      obtain ⟨f, at'⟩ := enabled
      simp only [next, at']
      exact ⟨t, .openAsk f, .gives f rfl (by rw [at']; rfl) rfl rfl, fun _ _ _ => .inl rfl⟩
  | ask q =>
      obtain ⟨f, at' | at'⟩ := enabled <;> simp only [next, at']
      · exact ⟨_, .openWait f s.uniqueId, .keeps rfl rfl (by rw [at']; rfl), fun _ _ _ => .inl rfl⟩
      · exact ⟨_, .putWait f s.uniqueId, .keeps rfl rfl (by rw [at']; rfl), fun _ _ _ => .inl rfl⟩
  | skip t =>
      obtain ⟨f, at' | at'⟩ := enabled <;> simp only [next, at']
      · exact ⟨t, .getLower f, .keeps rfl rfl (by rw [at']; rfl), fun _ _ _ => .inl rfl⟩
      · exact ⟨t, .putUnlock f, .keeps rfl rfl (by rw [at']; rfl), fun _ _ _ => .inl rfl⟩
  | openLower t succeeds =>
      rcases enabled with ⟨f, count, at'⟩ | ⟨f, c, -, at'⟩ <;> simp only [next, at']
      · refine ⟨t, .user, .gives f ?_ (by rw [at']; rfl) ?_ rfl, fun _ _ _ => .inl rfl⟩ <;>
          split_ifs <;> rfl
      · refine ⟨t, .user, .keeps ?_ ?_ (by rw [at']; rfl), fun _ _ _ => .inl rfl⟩ <;>
          split_ifs <;> rfl
  | read t f =>
      have at' : s.point t = .user := enabled
      cases t with
      | client c => exact ⟨_, _, .stays (.client c) rfl rfl, fun _ _ _ => .inr rfl⟩
      | process q =>
          exact ⟨_, .readWait f s.uniqueId, .keeps rfl rfl (by rw [at']; rfl),
            fun _ _ _ => .inl rfl⟩
  | enterRelease t k =>
      have at' : s.point t = .user := enabled.1
      simp only [next]
      cases held : (s.opened t)[k]? with
      | none => exact ⟨t, _, .stays t rfl rfl, fun _ _ _ => .inr rfl⟩
      | some f =>
          cases t with
          | client c => exact ⟨_, _, .stays (.client c) rfl rfl, fun _ _ _ => .inr rfl⟩
          | process q =>
              exact ⟨_, .putDec f, .keeps rfl rfl (by rw [at']; rfl), fun _ _ _ => .inl rfl⟩
  | decUnlessOne q =>
      obtain ⟨f, at'⟩ := enabled
      simp only [next, at']
      split_ifs
      · exact ⟨_, .putLock f, .keeps rfl rfl (by rw [at']; rfl), nofun⟩
      · exact ⟨_, .user, .keeps rfl rfl (by rw [at']; rfl), fun _ _ _ => .inl rfl⟩
  | decAndTest q =>
      obtain ⟨f, at'⟩ := enabled
      simp only [next, at']
      split_ifs
      · exact ⟨_, .putAsk f, .keeps rfl rfl (by rw [at']; rfl), fun _ _ _ => .inl rfl⟩
      · exact ⟨_, .user, .gives f rfl (by rw [at']; rfl) rfl rfl, fun _ _ _ => .inl rfl⟩
  | unlock q =>
      obtain ⟨f, at'⟩ := enabled
      simp only [next, at']
      exact ⟨_, .user, .gives f rfl (by rw [at']; rfl) rfl rfl, fun _ _ _ => .inl rfl⟩
  | receive c k =>
      simp only [next]
      split <;> exact ⟨_, _, .stays (.client c) rfl rfl, fun _ _ _ => .inr rfl⟩
  | reply c prohibit =>
      simp only [next]
      split
      · exact ⟨_, _, .stays (.client c) rfl rfl, fun _ _ _ => .inr rfl⟩
      · rename_i u serves
        split_ifs with waits
        · exact ⟨_, _, .keeps rfl rfl (holds_of_awaits (by rw [waits]; nofun)), nofun⟩
        · exact ⟨_, _, .stays (.client c) rfl rfl, fun _ _ _ => .inr rfl⟩
  | timeout q => exact ⟨_, _, .keeps rfl rfl (holds_of_awaits enabled), nofun⟩

/-- Only the release upcall is waited for with a mutex held: that of its file. -/
theorem release_of_holds {q f : Nat} {u : Asked} {point : Point} (holds : point.holds = some f)
    (waits : point.awaits q = some u) : u.type = .release ∧ u.file = f := by
  cases point with
  | putWait g id =>
      cases holds
      cases waits
      exact ⟨rfl, rfl⟩
  | openWait g id => cases holds
  | readWait g id => cases holds
  | _ => cases waits

/-! ## Callbacks that leave the file alone -/

/-- A callback for a release does not open the file it is called for. -/
def Considerate (s : Locks) : LockStep → Prop
  | .enterOpen (.client c) f => ∀ u, s.serving c = some u → u.type = .release → f ≠ u.file
  | _ => True

/-- No thread of the client is at a mutex of the file whose release it serves. -/
def Apart (s : Locks) : Prop :=
  ∀ c u f, s.serving c = some u → u.type = .release →
    (s.point (.client c)).wants (.client c) = some f → f ≠ u.file

theorem next_serving_eq {s : Locks} {step : LockStep} (notReceive : ∀ c k, step ≠ .receive c k)
    (notReply : ∀ c b, step ≠ .reply c b) : (s.next step).serving = s.serving := by
  cases step with
  | receive c k => exact absurd rfl (notReceive c k)
  | reply c prohibit => exact absurd rfl (notReply c prohibit)
  | read t f => cases t <;> rfl
  | enterRelease t k =>
      simp only [next]
      split
      · rfl
      · split <;> rfl
  | enterOpen t f => rfl
  | timeout q => rfl
  | _ =>
      simp only [next]
      split <;> first | rfl | split_ifs <;> rfl

/-- A thread of the client takes up an upcall outside the module. -/
theorem next_serving {s : Locks} {step : LockStep} (enabled : s.Enabled step) {c : Nat} {u : Asked}
    (serves : (s.next step).serving c = some u) :
    s.serving c = some u ∨ (s.next step).point (.client c) = .user := by
  by_cases receives : ∃ d k, step = .receive d k
  · obtain ⟨d, k, rfl⟩ := receives
    have idle : s.point (.client d) = .user := enabled.1
    simp only [next] at serves ⊢
    split at serves
    · exact .inl serves
    · rename_i taken _
      have now : Function.update s.serving d (some taken) c = some u := serves
      by_cases here : c = d
      · subst here
        exact .inr idle
      · rw [Function.update_of_ne here] at now
        exact .inl now
  by_cases replies : ∃ d prohibit, step = .reply d prohibit
  · obtain ⟨d, prohibit, rfl⟩ := replies
    simp only [next] at serves
    split at serves
    · exact .inl serves
    · have now : Function.update s.serving d none c = some u := by
        split_ifs at serves <;> exact serves
      by_cases here : c = d
      · subst here
        rw [Function.update_self] at now
        cases now
      · rw [Function.update_of_ne here] at now
        exact .inl now
  · rw [next_serving_eq (fun d k same => receives ⟨d, k, same⟩)
      fun d prohibit same => replies ⟨d, prohibit, same⟩] at serves
    exact .inl serves

theorem Moves.moved {s t : Locks} {thread : Thread} {point : Point}
    (moves : Moves s t thread point) : t.point = Function.update s.point thread point := by
  cases moves with
  | keeps moved _ _ => exact moved
  | takes _ moved _ _ _ _ => exact moved
  | gives _ moved _ _ _ => exact moved

theorem next_apart {s : Locks} {step : LockStep} (apart : s.Apart) (enabled : s.Enabled step)
    (considerate : s.Considerate step) : (s.next step).Apart := by
  intro c u f serves release wants
  obtain ⟨thread, point, moves, quiet⟩ := next_moves enabled
  by_cases opens : ∃ g, step = .enterOpen (.client c) g
  · obtain ⟨g, rfl⟩ := opens
    have at' : (s.next (.enterOpen (.client c) g)).point (.client c) = .openLock g :=
      Function.update_self ..
    rw [at'] at wants
    cases wants
    exact considerate u serves release
  -- its point is the old one, or one where it wants nothing
  rcases next_serving enabled serves with served | idle
  · rw [moves.moved] at wants
    by_cases here : .client c = thread
    · subst here
      rw [Function.update_self] at wants
      rcases quiet c rfl fun g same => opens ⟨g, same⟩ with none | same
      · rw [none] at wants
        cases wants
      · rw [same] at wants
        exact apart c u f served release wants
    · rw [Function.update_of_ne here] at wants
      exact apart c u f served release wants
  · rw [idle] at wants
    cases wants

/-- **No circular wait where release callbacks leave the file alone.** In every run of
processes opening, reading and closing files, and of a client whose callbacks do too, in
which no callback for a release opens the file it is called for, no thread of the client
waits for a mutex whose holder waits for it. -/
theorem no_circularWait {s : Locks}
    (run : ReflTransGen (fun s t => ∃ step, (s.Enabled step ∧ s.Considerate step) ∧ t = s.next step)
      start s) : ¬ s.CircularWait := by
  have kept : s.Owned ∧ s.Apart := by
    refine Simulation.invariant (P := fun s => s.Owned ∧ s.Apart) ?_ run ⟨?_, nofun⟩
    · rintro s _ ⟨step, ⟨enabled, considerate⟩, rfl⟩ ⟨owned, apart⟩
      obtain ⟨thread, point, moves, -⟩ := next_moves enabled
      exact ⟨moves.owned owned, next_apart apart enabled considerate⟩
    · intro f t
      exact ⟨nofun, nofun⟩
  rintro ⟨c, u, f, serves, wants, owner, waits⟩
  obtain ⟨release, file⟩ := release_of_holds ((kept.1 f _).mp owner) waits
  exact kept.2 c u f serves release wants file.symm

end Locks

/-- Process 7 opens file 0 and closes it, and the client takes up the release upcall. -/
def closing : List LockStep :=
  [.enterOpen (.process 7) 0, .lock (.process 7), .setFlag (.process 7), .ask 7,
    .receive 0 0, .reply 0 false, .lock (.process 7), .openLower (.process 7) true,
    .enterRelease (.process 7) 0, .decUnlessOne 7, .lock (.process 7), .decAndTest 7, .ask 7,
    .receive 0 0]

theorem closing_enabled :
    Simulation.Allowed (fun s step => Locks.Enabled s step ∧ Locks.Considerate s step) Locks.next
      Locks.start closing := by
  refine ⟨⟨rfl, trivial⟩, ⟨⟨0, rfl, rfl⟩, trivial⟩, ⟨⟨0, rfl⟩, trivial⟩, ⟨⟨0, .inl rfl⟩, trivial⟩,
    ⟨⟨rfl, rfl, by decide⟩, trivial⟩, ⟨⟨rfl, nofun⟩, trivial⟩, ⟨⟨0, rfl, rfl⟩, trivial⟩,
    ⟨.inl ⟨0, 1, rfl⟩, trivial⟩, ⟨⟨rfl, by decide⟩, trivial⟩, ⟨⟨0, rfl⟩, trivial⟩,
    ⟨⟨0, rfl, rfl⟩, trivial⟩, ⟨⟨0, rfl⟩, trivial⟩, ⟨⟨0, .inr rfl⟩, trivial⟩,
    ⟨⟨rfl, rfl, by decide⟩, trivial⟩, trivial⟩

/-- The process waits with the mutex, the client serves it, and neither waits in vain. -/
theorem closing_no_circularWait :
    (closing.foldl Locks.next Locks.start).owner 0 = some (.process 7) ∧
      (closing.foldl Locks.next Locks.start).serving 0 = some ⟨2, 7, .release, 0⟩ ∧
      ¬ (closing.foldl Locks.next Locks.start).CircularWait :=
  ⟨rfl, rfl, Locks.no_circularWait closing_enabled.run⟩

/-- A callback that then opens the file through the mount waits for process 7. -/
theorem release_callback_waits :
    ¬ ∀ s : Locks, ReflTransGen (fun s t => ∃ step, s.Enabled step ∧ t = s.next step)
      Locks.start s → ¬ s.CircularWait := by
  intro free
  have reached : ReflTransGen (fun s t => ∃ step, Locks.Enabled s step ∧ t = s.next step)
      Locks.start (closing.foldl Locks.next Locks.start) :=
    closing_enabled.run.lift id fun _ _ ⟨step, both, same⟩ => ⟨step, both.1, same⟩
  refine free _ (reached.tail ⟨.enterOpen (.client 0) 0, rfl, rfl⟩) ?_
  exact ⟨0, ⟨2, 7, .release, 0⟩, 0, rfl, rfl, rfl, rfl⟩

end Teadfs
