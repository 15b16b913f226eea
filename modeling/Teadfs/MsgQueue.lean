/-
# Teadfs.MsgQueue — which reply a request gets

`teadfs_request_send`, `teadfs_request_wait_answer` and `teadfs_netlink_receive`, with
any number of requests in flight. A step is one of the sections the code runs under a
mutex, or the code of one request between two of them: drawing an id, putting the
context on the queue, leaving the wait (the context is DONE, or the timeout's section
makes it so), reading the result, taking the context off the queue; and the netlink
handler, whose walk of the queue is one section. Requests interleave in any order, and
datagrams arrive at any time, with any id.

Reading the result is one section here though no mutex guards it: `teadfs_request_send` loads
the size and the pointer one after the other, and a handler may store in between. What becomes
of a reply then is the subject of `HandOff`, which takes the accesses one by one; here it is
which datagram a request gets.

Each request carries its own context, so what has to be shown is that the walk of the
queue finds the right one: the queue holds exactly the contexts of the requests between
their enqueue and their removal, and ids repeat only after `2 ^ 64 - 1` draws
(`msgIdAt_injOn`).
-/
import Teadfs.Lib.Simulation
import Teadfs.UserCom

namespace Teadfs

set_option autoImplicit false

open Protocol Relation

/-- A reply datagram of the client. -/
structure Datagram where
  bytes : List UInt8
  wellFormed : sizeofPacketInfo ≤ bytes.length

/-- `header.msg_id`. -/
def Datagram.msgId (d : Datagram) : Nat := LittleEndian.field 8 8 d.bytes

/-- The states a context is given. `NO_REPLY` is tested for and never set. -/
inductive CtxState where
  | pending
  | done
  deriving DecidableEq, Repr

/-- `struct teadfs_msg_ctx`, as far as replies are concerned. -/
structure MsgCtx where
  state : CtxState
  msgId : Nat
  responseSize : Nat
  response : Option (List UInt8)

/-- How far a request has come. -/
inductive Phase where
  | idle
  /-- The packet has its id. -/
  | drawn
  /-- There was no memory for the context: `-ENOMEM`. -/
  | noCtx
  /-- In `teadfs_request_wait_answer`, the context on the queue. -/
  | waiting
  | answered
  /-- The result is read, the context still on the queue. -/
  | read (size : Nat) (response : Option (List UInt8))
  | returned (size : Nat) (response : Option (List UInt8))

/-- The context is on the queue. -/
def Phase.queued : Phase → Bool
  | .waiting => true
  | .answered => true
  | .read _ _ => true
  | _ => false

/-- The id is drawn and the context not yet taken off the queue. -/
def Phase.inFlight : Phase → Bool
  | .drawn => true
  | phase => phase.queued

/-- The size and the response the request has read. -/
def Phase.result : Phase → Option (Nat × Option (List UInt8))
  | .read size response => some (size, response)
  | .returned size response => some (size, response)
  | _ => none

structure Request where
  phase : Phase
  msgId : Nat
  ctx : MsgCtx
  /-- History: how many ids had been drawn before its own. -/
  drawAt : Nat

structure Exchanges where
  uniqueId : Nat
  requests : Nat → Request
  /-- `msg_ctx_queue`, each context by its request. -/
  queue : List Nat
  /-- History: the ids drawn so far, and the datagrams received. -/
  draws : Nat
  received : List Datagram

inductive Section where
  | draw (r : Nat)
  | allocFails (r : Nat)
  | enqueue (r : Nat)
  | seeDone (r : Nat)
  /-- The section of the timeout, which is that of `NO_REPLY` too. -/
  | giveUp (r : Nat)
  | readResult (r : Nat)
  | listDel (r : Nat)
  | receive (d : Datagram) (allocated : Bool)

namespace Exchanges

def set (s : Exchanges) (r : Nat) (request : Request) : Exchanges :=
  { s with requests := Function.update s.requests r request }

/-- The handler's store into the context it found. -/
def store (d : Datagram) (allocated : Bool) (ctx : MsgCtx) : MsgCtx :=
  if allocated then
    { ctx with
      state := .done
      response := some d.bytes
      responseSize := d.bytes.length }
  else
    { ctx with
      state := .done
      response := none }

/-- When a section can run. A timeout comes at any time. -/
def Enabled (s : Exchanges) : Section → Prop
  | .draw r => (s.requests r).phase = .idle
  | .allocFails r => (s.requests r).phase = .drawn
  | .enqueue r => (s.requests r).phase = .drawn
  | .seeDone r => (s.requests r).phase = .waiting ∧ (s.requests r).ctx.state = .done
  | .giveUp r => (s.requests r).phase = .waiting
  | .readResult r => (s.requests r).phase = .answered
  | .listDel r => ∃ size response, (s.requests r).phase = .read size response
  | .receive _ _ => True

def next (s : Exchanges) : Section → Exchanges
  | .draw r =>
      let msgId := nextMsgId s.uniqueId
      { s.set r
          { s.requests r with
            phase := .drawn
            msgId := msgId
            drawAt := s.draws } with
        uniqueId := msgId
        draws := s.draws + 1 }
  | .allocFails r => s.set r { s.requests r with phase := .noCtx }
  | .enqueue r =>
      { s.set r
          { s.requests r with
            phase := .waiting
            ctx := ⟨.pending, (s.requests r).msgId, 0, none⟩ } with
        queue := s.queue ++ [r] }
  | .seeDone r => s.set r { s.requests r with phase := .answered }
  | .giveUp r =>
      s.set r
        { s.requests r with
          phase := .answered
          ctx := ⟨.done, (s.requests r).ctx.msgId, 0, none⟩ }
  | .readResult r =>
      s.set r
        { s.requests r with
          phase := .read (s.requests r).ctx.responseSize (s.requests r).ctx.response }
  | .listDel r =>
      match (s.requests r).phase with
      | .read size response =>
          { s.set r { s.requests r with phase := .returned size response } with
            queue := s.queue.erase r }
      | _ => s
  | .receive d allocated =>
      let s := { s with received := s.received ++ [d] }
      match s.queue.find? fun r => (s.requests r).ctx.msgId = d.msgId with
      | none => s
      | some r =>
          s.set r { s.requests r with ctx := store d allocated (s.requests r).ctx }

/-- Nothing requested yet, and any counter. -/
def start (uniqueId : Nat) : Exchanges where
  uniqueId := uniqueId
  requests := fun _ => ⟨.idle, 0, ⟨.pending, 0, 0, none⟩, 0⟩
  queue := []
  draws := 0
  received := []

end Exchanges

/-! ## Ids -/

/-- Zero is skipped, so this many draws give different ids. -/
def msgIdPeriod : Nat := 2 ^ 64 - 1

/-- The id of draw number `k`, from a counter that starts at `uniqueId`. -/
def msgIdAt (uniqueId k : Nat) : Nat := (uniqueId + k) % msgIdPeriod + 1

theorem nextMsgId_eq {uniqueId : Nat} (word : uniqueId < 2 ^ 64) :
    nextMsgId uniqueId = uniqueId % msgIdPeriod + 1 := by
  simp only [nextMsgId, msgIdPeriod]
  split <;> omega

theorem nextMsgId_msgIdAt (uniqueId k : Nat) :
    nextMsgId (msgIdAt uniqueId k) = msgIdAt uniqueId (k + 1) := by
  have bound : msgIdAt uniqueId k < 2 ^ 64 := by
    simp only [msgIdAt, msgIdPeriod]
    omega
  rw [nextMsgId_eq bound]
  simp only [msgIdAt, msgIdPeriod]
  omega

/-- Draws less than a period apart give different ids. -/
theorem msgIdAt_injOn {uniqueId j k : Nat} (before : j < k) (near : k < j + msgIdPeriod) :
    msgIdAt uniqueId j ≠ msgIdAt uniqueId k := by
  simp only [msgIdAt, msgIdPeriod] at near ⊢
  omega

/-- `teadfs_init_global_param`, which leaves the client alone. Zero is no id. -/
def teadfsInitGlobalParam (glob : GlobalParam) : GlobalParam := { glob with uniqueId := 1 }

/-- `teadfs_get_next_msg_id`, under the mutex. -/
def teadfsGetNextMsgId (glob : GlobalParam) : Nat × GlobalParam :=
  (nextMsgId glob.uniqueId, { glob with uniqueId := nextMsgId glob.uniqueId })

/-- What the calls one after the other return, from number 0 on. -/
def msgIdOfCall (glob : GlobalParam) : Nat → Nat
  | 0 => (teadfsGetNextMsgId glob).1
  | k + 1 => msgIdOfCall (teadfsGetNextMsgId glob).2 k

/-- The calls draw what `msgIdAt` says. -/
theorem msgIdOfCall_eq {glob : GlobalParam} {uniqueId j : Nat}
    (counter : nextMsgId glob.uniqueId = msgIdAt uniqueId j) (k : Nat) :
    msgIdOfCall glob k = msgIdAt uniqueId (j + k) := by
  induction k generalizing glob j with
  | zero => exact counter
  | succ k ih =>
      have drawn : nextMsgId (teadfsGetNextMsgId glob).2.uniqueId = msgIdAt uniqueId (j + 1) := by
        rw [← nextMsgId_msgIdAt, ← counter]
        rfl
      rw [msgIdOfCall, ih drawn]
      congr 1
      omega

/-- The periods of the ids are the multiples of `msgIdPeriod`. -/
theorem msgIdAt_periodic_iff (uniqueId p : Nat) :
    (∀ k, msgIdAt uniqueId (k + p) = msgIdAt uniqueId k) ↔ msgIdPeriod ∣ p := by
  constructor
  · intro periodic
    have same := periodic 0
    simp only [msgIdAt, msgIdPeriod] at same ⊢
    omega
  · rintro ⟨n, rfl⟩ k
    rw [msgIdAt, msgIdAt, ← Nat.add_assoc, Nat.add_mul_mod_self_left]

/-- **Ids do not repeat across the wrap.** From `teadfs_init_global_param` on no call returns
zero, any `2 ^ 64 - 1` calls in a row return different ids, and the ids have the period
`2 ^ 64 - 1` and no other than its multiples. -/
theorem msg_ids_across_wrap (glob : GlobalParam) :
    (∀ k, msgIdOfCall (teadfsInitGlobalParam glob) k ≠ 0) ∧
      (∀ first j k, first ≤ j → j < k → k < first + (2 ^ 64 - 1) →
        msgIdOfCall (teadfsInitGlobalParam glob) j ≠ msgIdOfCall (teadfsInitGlobalParam glob) k) ∧
      ∀ p, (∀ k, msgIdOfCall (teadfsInitGlobalParam glob) (k + p) =
        msgIdOfCall (teadfsInitGlobalParam glob) k) ↔ 2 ^ 64 - 1 ∣ p := by
  have calls : ∀ k, msgIdOfCall (teadfsInitGlobalParam glob) k = msgIdAt 1 k := by
    intro k
    have counter : nextMsgId (teadfsInitGlobalParam glob).uniqueId = msgIdAt 1 0 :=
      nextMsgId_eq (show 1 < 2 ^ 64 by decide)
    rw [msgIdOfCall_eq counter, Nat.zero_add]
  simp only [calls]
  refine ⟨fun k => Nat.succ_ne_zero _, ?_, msgIdAt_periodic_iff 1⟩
  intro first j k inside before near
  refine msgIdAt_injOn before ?_
  rw [msgIdPeriod]
  omega

/-! ## The invariant -/

/-- Absent, or the whole of a received datagram with the given id. -/
def OwnReply (received : List Datagram) (msgId size : Nat) (response : Option (List UInt8)) : Prop :=
  response = none ∨
    ∃ d ∈ received, d.msgId = msgId ∧ response = some d.bytes ∧ size = d.bytes.length

theorem OwnReply.mono {received received' : List Datagram} {msgId size : Nat}
    {response : Option (List UInt8)} (grow : received ⊆ received')
    (own : OwnReply received msgId size response) : OwnReply received' msgId size response := by
  rcases own with absent | ⟨d, member, rest⟩
  · exact .inl absent
  · exact .inr ⟨d, grow member, rest⟩

/-- What is kept of one request: its id is that of its draw; while its context is on the
queue, the context has its id and an own reply; and so does the result it has read. -/
structure Request.Good (uniqueId draws : Nat) (received : List Datagram) (q : Request) : Prop where
  drawn : q.phase ≠ .idle → q.drawAt < draws ∧ q.msgId = msgIdAt uniqueId q.drawAt
  queued : q.phase.queued = true →
    q.ctx.msgId = q.msgId ∧ OwnReply received q.msgId q.ctx.responseSize q.ctx.response
  result : ∀ size response, q.phase.result = some (size, response) →
    OwnReply received q.msgId size response

theorem Request.Good.mono {uniqueId draws draws' : Nat} {received received' : List Datagram}
    {q : Request} (more : draws ≤ draws') (grow : received ⊆ received')
    (good : q.Good uniqueId draws received) : q.Good uniqueId draws' received' where
  drawn busy := ⟨(good.drawn busy).1.trans_le more, (good.drawn busy).2⟩
  queued on := ⟨(good.queued on).1, (good.queued on).2.mono grow⟩
  result size response has := (good.result size response has).mono grow

structure Exchanges.Correlated (uniqueId : Nat) (s : Exchanges) : Prop where
  counter : nextMsgId s.uniqueId = msgIdAt uniqueId s.draws
  requests : ∀ r, (s.requests r).Good uniqueId s.draws s.received
  drawAt : ∀ r r', (s.requests r).phase ≠ .idle → (s.requests r').phase ≠ .idle →
    (s.requests r).drawAt = (s.requests r').drawAt → r = r'
  nodup : s.queue.Nodup
  queue : ∀ r, r ∈ s.queue ↔ (s.requests r).phase.queued = true

namespace Exchanges

variable {uniqueId : Nat} {s : Exchanges}

theorem start_correlated (word : uniqueId < 2 ^ 64) : (start uniqueId).Correlated uniqueId where
  counter := nextMsgId_eq word
  requests _ := ⟨fun busy => absurd rfl busy, nofun, nofun⟩
  drawAt _ _ busy := absurd rfl busy
  nodup := List.nodup_nil
  queue _ := by simp [start, Phase.queued]

/-- A request that keeps its draw, and is on the new queue as its phase says. -/
theorem Correlated.setQueue (correlated : s.Correlated uniqueId) {r : Nat} {q : Request}
    {queue : List Nat} (busy : (s.requests r).phase ≠ .idle)
    (same : q.drawAt = (s.requests r).drawAt) (good : q.Good uniqueId s.draws s.received)
    (nodup : queue.Nodup) (here : r ∈ queue ↔ q.phase.queued = true)
    (others : ∀ r', r' ≠ r → (r' ∈ queue ↔ r' ∈ s.queue)) :
    ({ s.set r q with queue := queue } : Exchanges).Correlated uniqueId where
  counter := correlated.counter
  requests := by
    intro r'
    by_cases this : r' = r
    · subst this
      simpa [Exchanges.set] using good
    · simpa [Exchanges.set, this] using correlated.requests r'
  drawAt := by
    -- the request was busy before, so its draw is compared as before
    have old : ∀ r', ((s.set r q).requests r').phase ≠ .idle → (s.requests r').phase ≠ .idle ∧
        ((s.set r q).requests r').drawAt = (s.requests r').drawAt := by
      intro r' busy'
      by_cases this : r' = r
      · subst this
        exact ⟨busy, by simp [Exchanges.set, same]⟩
      · simpa [Exchanges.set, this] using busy'
    intro a b busyA busyB equal
    obtain ⟨oldA, drawA⟩ := old a busyA
    obtain ⟨oldB, drawB⟩ := old b busyB
    exact correlated.drawAt a b oldA oldB (drawA.symm.trans (equal.trans drawB))
  nodup := nodup
  queue := by
    intro r'
    by_cases this : r' = r
    · subst this
      simpa [Exchanges.set] using here
    · simpa [Exchanges.set, this, others r' this] using correlated.queue r'

/-- A request that stays on or off the queue. -/
theorem Correlated.set (correlated : s.Correlated uniqueId) {r : Nat} {q : Request}
    (busy : (s.requests r).phase ≠ .idle) (same : q.drawAt = (s.requests r).drawAt)
    (stays : q.phase.queued = (s.requests r).phase.queued)
    (good : q.Good uniqueId s.draws s.received) : (s.set r q).Correlated uniqueId :=
  correlated.setQueue busy same good correlated.nodup (by rw [stays]; exact correlated.queue r)
    fun _ _ => Iff.rfl

theorem Correlated.draw (correlated : s.Correlated uniqueId) {r : Nat}
    (idle : (s.requests r).phase = .idle) : (s.next (.draw r)).Correlated uniqueId where
  counter := by
    show nextMsgId (nextMsgId s.uniqueId) = msgIdAt uniqueId (s.draws + 1)
    rw [correlated.counter, nextMsgId_msgIdAt]
  requests := by
    intro r'
    by_cases this : r' = r
    · subst this
      simp only [next, Exchanges.set, Function.update_self]
      exact ⟨fun _ => ⟨Nat.lt_succ_self _, correlated.counter⟩, nofun, nofun⟩
    · simp only [next, Exchanges.set, Function.update_of_ne this]
      exact (correlated.requests r').mono (Nat.le_succ _) fun _ member => member
  drawAt := by
    -- every earlier draw has a smaller number
    have older : ∀ r', r' ≠ r → (s.requests r').phase ≠ .idle → (s.requests r').drawAt < s.draws :=
      fun r' _ busy => ((correlated.requests r').drawn busy).1
    intro a b busyA busyB equal
    simp only [next, Exchanges.set] at busyA busyB equal
    by_cases hereA : a = r <;> by_cases hereB : b = r
    · rw [hereA, hereB]
    · subst hereA
      rw [Function.update_of_ne hereB] at busyB equal
      rw [Function.update_self] at equal
      exact absurd equal (older b hereB busyB).ne'
    · subst hereB
      rw [Function.update_of_ne hereA] at busyA equal
      rw [Function.update_self] at equal
      exact absurd equal (older a hereA busyA).ne
    · rw [Function.update_of_ne hereA] at busyA equal
      rw [Function.update_of_ne hereB] at busyB equal
      exact correlated.drawAt a b busyA busyB equal
  nodup := correlated.nodup
  queue := by
    intro r'
    rw [show (s.next (.draw r)).queue = s.queue from rfl, correlated.queue r']
    by_cases this : r' = r
    · subst this
      simp [next, Exchanges.set, idle, Phase.queued]
    · simp [next, Exchanges.set, this]

/-- The handler stores into the context it finds the whole datagram, or nothing. -/
theorem Correlated.receive (correlated : s.Correlated uniqueId) (d : Datagram) (allocated : Bool) :
    (s.next (.receive d allocated)).Correlated uniqueId := by
  have grown : ({ s with received := s.received ++ [d] } : Exchanges).Correlated uniqueId :=
    ⟨correlated.counter, fun r => (correlated.requests r).mono (Nat.le_refl _)
      (List.subset_append_left _ _), correlated.drawAt, correlated.nodup, correlated.queue⟩
  simp only [next]
  split
  · exact grown
  · rename_i r found
    have member : r ∈ s.queue := List.mem_of_find?_eq_some found
    have matching : (s.requests r).ctx.msgId = d.msgId := by
      simpa using List.find?_some found
    have on := (correlated.queue r).mp member
    have busy : (s.requests r).phase ≠ .idle := by
      intro idle
      rw [idle] at on
      cases on
    have good := grown.requests r
    obtain ⟨own, -⟩ := good.queued on
    refine grown.set busy rfl rfl ⟨good.drawn, fun _ => ?_, good.result⟩
    unfold store
    split
    · refine ⟨own, .inr ⟨d, List.mem_append_right _ (List.mem_singleton_self d), ?_, rfl, rfl⟩⟩
      rw [← matching, own]
    · exact ⟨own, .inl rfl⟩

/-- Every section keeps the invariant. -/
theorem next_correlated (correlated : s.Correlated uniqueId) {a : Section}
    (enabled : s.Enabled a) : (s.next a).Correlated uniqueId := by
  cases a with
  | draw r => exact correlated.draw enabled
  | allocFails r =>
      have phase : (s.requests r).phase = .drawn := enabled
      have good := correlated.requests r
      exact correlated.set (by simp [phase]) rfl (by simp [phase, Phase.queued])
        ⟨fun _ => good.drawn (by simp [phase]), nofun, nofun⟩
  | enqueue r =>
      have phase : (s.requests r).phase = .drawn := enabled
      have good := correlated.requests r
      have off : r ∉ s.queue := by
        intro member
        have on := (correlated.queue r).mp member
        rw [phase] at on
        cases on
      refine correlated.setQueue (by simp [phase]) rfl
        ⟨fun _ => good.drawn (by simp [phase]), fun _ => ⟨rfl, .inl rfl⟩, nofun⟩
        (List.nodup_append.mpr ⟨correlated.nodup, List.nodup_singleton r, ?_⟩)
        (by simp [Phase.queued]) (by intro r' other; simp [other])
      intro a member b single same
      rw [List.mem_singleton.mp single] at same
      exact off (same ▸ member)
  | seeDone r =>
      have phase : (s.requests r).phase = .waiting := enabled.1
      have good := correlated.requests r
      exact correlated.set (by simp [phase]) rfl (by simp [phase, Phase.queued])
        ⟨fun _ => good.drawn (by simp [phase]), fun _ => good.queued (by simp [phase, Phase.queued]),
          nofun⟩
  | giveUp r =>
      have phase : (s.requests r).phase = .waiting := enabled
      have good := correlated.requests r
      exact correlated.set (by simp [phase]) rfl (by simp [phase, Phase.queued])
        ⟨fun _ => good.drawn (by simp [phase]),
          fun _ => ⟨(good.queued (by simp [phase, Phase.queued])).1, .inl rfl⟩, nofun⟩
  | readResult r =>
      have phase : (s.requests r).phase = .answered := enabled
      have good := correlated.requests r
      have queued := good.queued (by simp [phase, Phase.queued])
      refine correlated.set (by simp [phase]) rfl (by simp [phase, Phase.queued])
        ⟨fun _ => good.drawn (by simp [phase]), fun _ => queued, ?_⟩
      rintro size response ⟨⟩
      exact queued.2
  | listDel r =>
      obtain ⟨size, response, phase⟩ := enabled
      have good := correlated.requests r
      simp only [next, phase]
      refine correlated.setQueue (by simp [phase]) rfl
        ⟨fun _ => good.drawn (by simp [phase]), nofun, ?_⟩ (correlated.nodup.erase r) ?_ ?_
      · rintro size' response' ⟨⟩
        exact good.result size response (by rw [phase]; rfl)
      · simp [Phase.queued, correlated.nodup.mem_erase_iff]
      · intro r' other
        simp [correlated.nodup.mem_erase_iff, other]
  | receive d allocated => exact correlated.receive d allocated

/-! ## Every run -/

/-- Fewer than `2 ^ 64 - 1` ids have been drawn since each request in flight drew its own. -/
def Window (s : Exchanges) : Prop :=
  ∀ r, (s.requests r).phase.inFlight = true → s.draws ≤ (s.requests r).drawAt + msgIdPeriod

/-- One section of anyone. -/
def Step (s t : Exchanges) : Prop := ∃ a, s.Enabled a ∧ t = s.next a ∧ t.Window

theorem window_of_draws (few : s.draws ≤ msgIdPeriod) : s.Window :=
  fun _ _ => few.trans (Nat.le_add_left _ _)

/-- Sections that can run one after the other, few of them draws. -/
theorem run_sections {sections : List Section}
    (allowed : Simulation.Allowed (fun s (a : Section) => s.Enabled a ∧
      (s.next a).draws ≤ msgIdPeriod) next s sections) :
    ReflTransGen Step s (sections.foldl next s) := by
  refine ReflTransGen.mono ?_ _ _ allowed.run
  rintro s _ ⟨a, ⟨enabled, few⟩, rfl⟩
  exact ⟨a, enabled, rfl, window_of_draws few⟩

/-- Two contexts on the queue have different ids. -/
theorem Correlated.ctx_msgId_inj (correlated : s.Correlated uniqueId) (window : s.Window) {r r' : Nat}
    (member : r ∈ s.queue) (member' : r' ∈ s.queue)
    (same : (s.requests r).ctx.msgId = (s.requests r').ctx.msgId) : r = r' := by
  have facts : ∀ r ∈ s.queue, (s.requests r).phase ≠ .idle ∧
      (s.requests r).drawAt < s.draws ∧ s.draws ≤ (s.requests r).drawAt + msgIdPeriod ∧
      (s.requests r).ctx.msgId = msgIdAt uniqueId (s.requests r).drawAt := by
    intro r member
    have on := (correlated.queue r).mp member
    have good := correlated.requests r
    have busy : (s.requests r).phase ≠ .idle := by
      intro idle
      rw [idle] at on
      cases on
    have flying : (s.requests r).phase.inFlight = true := by
      cases phase : (s.requests r).phase with
      | drawn => rfl
      | _ => rw [phase] at on; exact on
    obtain ⟨before, id⟩ := good.drawn busy
    exact ⟨busy, before, window r flying, (good.queued on).1.trans id⟩
  obtain ⟨busy, before, near, id⟩ := facts r member
  obtain ⟨busy', before', near', id'⟩ := facts r' member'
  rw [id, id'] at same
  rcases Nat.lt_trichotomy (s.requests r).drawAt (s.requests r').drawAt with less | equal | more
  · exact absurd same (msgIdAt_injOn less (by omega))
  · exact correlated.drawAt r r' busy busy' equal
  · exact absurd same.symm (msgIdAt_injOn more (by omega))

/-- **Replies are correlated.** In every run: a request returns no response, or the whole
of a received datagram with the request's own id; a datagram whose id no queued context
has changes no context and no queue; the queue holds one context for each request
between its enqueue and its removal, no other, and their ids differ. -/
theorem replies_correlated (word : uniqueId < 2 ^ 64)
    (run : ReflTransGen Step (start uniqueId) s) :
    (∀ r size response, (s.requests r).phase = .returned size response →
      OwnReply s.received (s.requests r).msgId size response) ∧
    (∀ d allocated, (∀ r ∈ s.queue, (s.requests r).ctx.msgId ≠ d.msgId) →
      (s.next (.receive d allocated)).requests = s.requests ∧
        (s.next (.receive d allocated)).queue = s.queue) ∧
    (∀ r, s.queue.count r = if (s.requests r).phase.queued then 1 else 0) ∧
    (s.queue.map fun r => (s.requests r).ctx.msgId).Nodup := by
  have holds : s.Correlated uniqueId ∧ s.Window := by
    refine Simulation.invariant (P := fun s => s.Correlated uniqueId ∧ s.Window) ?_ run
      ⟨start_correlated word, fun _ flying => by cases flying⟩
    rintro s _ ⟨a, enabled, rfl, window⟩ ⟨correlated, -⟩
    exact ⟨next_correlated correlated enabled, window⟩
  obtain ⟨correlated, window⟩ := holds
  refine ⟨?_, ?_, ?_, ?_⟩
  · intro r size response phase
    exact (correlated.requests r).result size response (by rw [phase]; rfl)
  · intro d allocated unknown
    have none : s.queue.find? (fun r => (s.requests r).ctx.msgId = d.msgId) = none := by
      rw [List.find?_eq_none]
      intro r member
      simpa using unknown r member
    simp only [next, none, and_self]
  · intro r
    rw [correlated.nodup.count]
    simp only [correlated.queue r]
  · refine correlated.nodup.map_on ?_
    intro r member r' member' same
    exact correlated.ctx_msgId_inj window member member' same

end Exchanges

/-- A reply of one packet. -/
def datagramOf (msgId : UInt8) : Datagram where
  bytes := List.replicate 8 0 ++ msgId :: List.replicate 47 0
  wellFormed := by simp [sizeofPacketInfo]

/-- The reply to the first request. -/
def exampleDatagram : Datagram := datagramOf 1

/-- Two requests are in flight. The second is answered first, and twice; a second answer to the
first comes when it has left the queue. -/
def crossedReplies : List Section :=
  [.draw 0, .draw 1, .enqueue 1, .enqueue 0, .receive (datagramOf 2) true,
    .receive (datagramOf 2) true, .receive exampleDatagram true, .seeDone 1, .seeDone 0,
    .readResult 0, .listDel 0, .receive exampleDatagram true, .readResult 1, .listDel 1]

/-- Both have returned. -/
def bothAnswered : Exchanges := crossedReplies.foldl Exchanges.next (Exchanges.start 0)

theorem crossed_replies_answered :
    (bothAnswered.requests 0).phase = .returned 56 (some exampleDatagram.bytes) ∧
      (bothAnswered.requests 1).phase = .returned 56 (some (datagramOf 2).bytes) ∧
      OwnReply bothAnswered.received 1 56 (some exampleDatagram.bytes) ∧
      OwnReply bothAnswered.received 2 56 (some (datagramOf 2).bytes) := by
  have allowed : Simulation.Allowed
      (fun s (a : Section) => s.Enabled a ∧ (s.next a).draws ≤ msgIdPeriod) Exchanges.next
      (Exchanges.start 0) crossedReplies := by
    refine ⟨⟨rfl, ?_⟩, ⟨rfl, ?_⟩, ⟨rfl, ?_⟩, ⟨rfl, ?_⟩, ⟨trivial, ?_⟩, ⟨trivial, ?_⟩,
      ⟨trivial, ?_⟩, ⟨⟨rfl, rfl⟩, ?_⟩, ⟨⟨rfl, rfl⟩, ?_⟩, ⟨rfl, ?_⟩, ⟨⟨_, _, rfl⟩, ?_⟩,
      ⟨trivial, ?_⟩, ⟨rfl, ?_⟩, ⟨⟨_, _, rfl⟩, ?_⟩, trivial⟩
    all_goals decide
  have first : (bothAnswered.requests 0).phase =
      .returned 56 (some exampleDatagram.bytes) := rfl
  have second : (bothAnswered.requests 1).phase =
      .returned 56 (some (datagramOf 2).bytes) := rfl
  obtain ⟨own, -⟩ := Exchanges.replies_correlated (by decide) (Exchanges.run_sections allowed)
  exact ⟨first, second, own 0 56 _ first, own 1 56 _ second⟩

end Teadfs
