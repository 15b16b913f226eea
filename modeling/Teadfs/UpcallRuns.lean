/-
# Teadfs.UpcallRuns — what the callbacks said is what the requests get

An upcall passes the queue of contexts, two datagrams and the client's pool. `MsgQueue` has
any number of them in flight and datagrams that say anything; `WireFormat` has the bytes of
one. Here the datagrams are those that the client library makes of the packets it has been
sent, each any number of times, late, or never, in any order; and every request that comes
back with a response has the answer of the callback to its own packet (`upcalls_answered`).

What has to be added is that an answer does not find the wrong context. The ids in flight
differ, so this is a matter of how late an answer can be: its id is not drawn again before
`2 ^ 64 - 1` other draws, and no datagram is taken to be older than that.

The sections are those of `MsgQueue`, and so the reading of a result is one here too, and the
handler's search and store another. Between the two loads of a result that no mutex guards, a
late handler could make it no reply with a length, or the other way round (`HandOff`).
-/
import Teadfs.MsgQueue
import Teadfs.WireFormat

namespace Teadfs

set_option autoImplicit false

open Protocol Relation

/-- What one request is made for, and by whom. -/
structure Query where
  proc : Nat
  ask : Ask
  pid : proc < 2 ^ 31
  fits : ask.Fits

namespace Query

/-- The packet the request functions build, with the id they have drawn. -/
def packet (asked : Query) (msgId : Nat) : Packet :=
  ⟨teadfsPacketHeader msgId (sizeofPacketInfo + asked.ask.payload.length) asked.ask.type
    asked.proc, asked.ask.data, asked.ask.payload⟩

/-- The bytes of the reply to it. -/
def answer (cb : WireCb) (asked : Query) (msgId : Nat) : List UInt8 :=
  dealTeadfsMsg cb.dealCb (asked.packet msgId)

/-- The reply says what the callback said: its code, or its block if the request has room for
it. -/
def Says (cb : WireCb) (asked : Query) (reply : Reply) : Prop :=
  match asked.ask with
  | .open fileId path => reply.errorCode = cb.onOpen fileId asked.proc path
  | .release fileId path => reply.errorCode = cb.onRelease fileId asked.proc path
  | .read offset src => ∀ dstSize < 2 ^ 31, (cb.onRead offset src).1.length ≤ dstSize →
      decodeBlock reply dstSize = some (cb.onRead offset src)
  | .write offset src => ∀ dstSize < 2 ^ 31, (cb.onWrite offset src).1.length ≤ dstSize →
      decodeBlock reply dstSize = some (cb.onWrite offset src)

theorem says_answer (cb : WireCb) (asked : Query) (msgId : Nat) (beyond : Nat → UInt8) :
    asked.Says cb ⟨asked.answer cb msgId, beyond⟩ := by
  obtain ⟨proc, ask, pid, fits⟩ := asked
  cases ask with
  | «open» fileId path =>
      have code := (cb.onOpen fileId proc path).2
      exact errorCode_codeReply _ beyond code.1 code.2
  | release fileId path =>
      have code := (cb.onRelease fileId proc path).2
      exact errorCode_codeReply _ beyond code.1 code.2
  | read offset src =>
      intro dstSize word room
      exact decodeBlock_blockReply _ beyond room (Nat.lt_trans word (by decide))
  | write offset src =>
      intro dstSize word room
      exact decodeBlock_blockReply _ beyond room (Nat.lt_trans word (by decide))

theorem sizeofPacketInfo_le_answer (cb : WireCb) (asked : Query) (msgId : Nat) :
    sizeofPacketInfo ≤ (asked.answer cb msgId).length :=
  sizeofPacketInfo_le_dealTeadfsMsg cb.dealCb (asked.packet msgId)

end Query

/-- A world whose next id is `msgId`; nothing else of it matters. -/
def drawing (msgId : Nat) : World where
  inode := ⟨[], 0, fun _ _ => ⟨false, fun _ => 0⟩, true, 0, false, ⟨[], false⟩⟩
  chan := ⟨⟨msgId - 1, 0, true⟩, 0, []⟩

theorem packet_drawing (asked : Query) {msgId : Nat} (nonzero : msgId ≠ 0)
    (word : msgId < 2 ^ 64) :
    asked.ask.packet asked.proc (drawing msgId) = asked.packet msgId := by
  have next : nextMsgId (msgId - 1) = msgId := by
    unfold nextMsgId
    dsimp only
    split <;> omega
  rw [Ask.packet, requestPacket, Query.packet]
  simp only [drawing, next]

/-- The datagram is one the client library makes of the packet: the kernel's frame, received
by `ThreadRcv`, dealt with, and framed by `SendMsg`. -/
def FromClient (cb : WireCb) (packet : Packet) (d : Datagram) : Prop :=
  ∃ clientPid type seq memory beyondMsg,
    let msg := wireMsg clientPid memory packet
    teadfsNetlinkReceive (sendMsg type seq (dealResponse cb msg (threadPoolCbFunc beyondMsg msg))) =
      some (d.msgId, d.bytes)

/-- Then it is the answer, under the id of the packet. -/
theorem FromClient.eq {cb : WireCb} {asked : Query} {msgId : Nat} {d : Datagram}
    (nonzero : msgId ≠ 0) (word : msgId < 2 ^ 64)
    (client : FromClient cb (asked.packet msgId) d) :
    d.msgId = msgId ∧ d.bytes = asked.answer cb msgId := by
  obtain ⟨clientPid, type, seq, memory, beyondMsg, received⟩ := client
  rw [← packet_drawing asked nonzero word] at received
  dsimp only at received
  rw [wire_call asked.fits asked.pid, wire_reply asked.fits] at received
  obtain ⟨id, bytes⟩ := Prod.mk.inj (Option.some.inj received)
  rw [packet_drawing asked nonzero word] at id bytes
  exact ⟨id.symm, bytes.symm⟩

/-- The answer to a packet, as a datagram. -/
def Query.datagram (cb : WireCb) (asked : Query) (msgId : Nat) : Datagram :=
  ⟨asked.answer cb msgId, asked.sizeofPacketInfo_le_answer cb msgId⟩

/-- The answer to every packet is one the client library makes. -/
theorem fromClient_datagram (cb : WireCb) (asked : Query) {msgId : Nat} (nonzero : msgId ≠ 0)
    (word : msgId < 2 ^ 64) :
    FromClient cb (asked.packet msgId) (asked.datagram cb msgId) := by
  refine ⟨0, 0, 0, fun _ => 0, fun _ => 0, ?_⟩
  obtain ⟨rest, header⟩ := dealTeadfsMsg_header cb.dealCb (asked.packet msgId)
  have id : (asked.datagram cb msgId).msgId = msgId := by
    show LittleEndian.field 8 8 (dealTeadfsMsg cb.dealCb (asked.packet msgId)) = msgId
    rw [header]
    exact field_msgId _ _ word
  rw [id, ← packet_drawing asked nonzero word]
  dsimp only
  rw [wire_call asked.fits asked.pid, wire_reply asked.fits, packet_drawing asked nonzero word]
  rfl

/-! ## Runs -/

/-- The packet has been sent. -/
def Phase.sent : Phase → Bool
  | .returned _ _ => true
  | phase => phase.queued

/-- No response, or the answer, and its length. -/
def AnswerOf (cb : WireCb) (asked : Query) (msgId size : Nat) (response : Option (List UInt8)) :
    Prop :=
  response = none ∨ response = some (asked.answer cb msgId) ∧ size = (asked.answer cb msgId).length

/-- What the context and the result of a request may hold. -/
structure Request.Served (cb : WireCb) (asked : Query) (q : Request) : Prop where
  queued : q.phase.queued = true → AnswerOf cb asked q.msgId q.ctx.responseSize q.ctx.response
  result : ∀ size response, q.phase.result = some (size, response) →
    AnswerOf cb asked q.msgId size response

/-- A request without a result. -/
theorem Request.Served.of_none {cb : WireCb} {asked : Query} {q : Request}
    (queued : q.phase.queued = true → AnswerOf cb asked q.msgId q.ctx.responseSize q.ctx.response)
    (none : q.phase.result = none) : q.Served cb asked where
  queued := queued
  result size response result := by
    rw [none] at result
    cases result

namespace Exchanges

variable {uniqueId : Nat} {cb : WireCb} {asked : Nat → Query} {s t : Exchanges}

/-- A datagram that can come in: made of the packet of a request that has sent it, and not
older than a period of the ids. -/
def Arrives (cb : WireCb) (asked : Nat → Query) (s : Exchanges) (d : Datagram) : Prop :=
  ∃ r, (s.requests r).phase.sent = true ∧
    s.draws ≤ (s.requests r).drawAt + msgIdPeriod ∧
    FromClient cb ((asked r).packet (s.requests r).msgId) d

/-- One section of anyone, where the datagrams are the client's. -/
def ClientStep (cb : WireCb) (asked : Nat → Query) (s t : Exchanges) : Prop :=
  ∃ a, s.Enabled a ∧ (∀ d allocated, a = .receive d allocated → s.Arrives cb asked d) ∧
    t = s.next a ∧ t.Window

/-- All requests are served, each with its own answer. -/
def Served (cb : WireCb) (asked : Nat → Query) (s : Exchanges) : Prop :=
  ∀ r, (s.requests r).Served cb (asked r)

theorem start_served (cb : WireCb) (asked : Nat → Query) (uniqueId : Nat) :
    (start uniqueId).Served cb asked :=
  fun _ => .of_none (fun queued => by cases queued) rfl

theorem Served.set (served : s.Served cb asked) {r : Nat} {q : Request}
    (here : q.Served cb (asked r)) : (s.set r q).Served cb asked := by
  intro r'
  by_cases this : r' = r
  · subst this
    simpa [Exchanges.set] using here
  · simpa [Exchanges.set, this] using served r'

theorem Correlated.busy_of_queued (correlated : s.Correlated uniqueId) {r : Nat}
    (member : r ∈ s.queue) :
    (s.requests r).phase ≠ .idle ∧ (s.requests r).phase.inFlight = true := by
  have on := (correlated.queue r).mp member
  cases phase : (s.requests r).phase <;> simp_all [Phase.queued, Phase.inFlight]

theorem sent_busy {r : Nat} (sent : (s.requests r).phase.sent = true) :
    (s.requests r).phase ≠ .idle := by
  intro idle
  rw [idle] at sent
  cases sent

/-- A request whose packet is not too old, and a queued context with its id, are of one
request. -/
theorem Correlated.owner (correlated : s.Correlated uniqueId) (window : s.Window) {r r' : Nat}
    (member : r ∈ s.queue) (sent : (s.requests r').phase.sent = true)
    (recent : s.draws ≤ (s.requests r').drawAt + msgIdPeriod)
    (same : (s.requests r).ctx.msgId = (s.requests r').msgId) : r = r' := by
  obtain ⟨busy, flying⟩ := correlated.busy_of_queued member
  have busy' := sent_busy sent
  obtain ⟨before, id⟩ := (correlated.requests r).drawn busy
  obtain ⟨before', id'⟩ := (correlated.requests r').drawn busy'
  have own := ((correlated.requests r).queued ((correlated.queue r).mp member)).1
  have near := window r flying
  rw [own, id, id'] at same
  rcases Nat.lt_trichotomy (s.requests r).drawAt (s.requests r').drawAt with less | equal | more
  · exact absurd same (msgIdAt_injOn less (by omega))
  · exact correlated.drawAt r r' busy busy' equal
  · exact absurd same.symm (msgIdAt_injOn more (by omega))

theorem msgIdAt_word (uniqueId k : Nat) : msgIdAt uniqueId k ≠ 0 ∧ msgIdAt uniqueId k < 2 ^ 64 := by
  simp only [msgIdAt, msgIdPeriod]
  omega

/-- The context the handler finds is that of the request the datagram answers. -/
theorem Served.receive (served : s.Served cb asked) (correlated : s.Correlated uniqueId)
    (window : s.Window) {d : Datagram} (arrives : s.Arrives cb asked d) (allocated : Bool) :
    (s.next (.receive d allocated)).Served cb asked := by
  obtain ⟨r', sent, recent, client⟩ := arrives
  have id := ((correlated.requests r').drawn (sent_busy sent)).2
  have word := msgIdAt_word uniqueId (s.requests r').drawAt
  rw [← id] at word
  obtain ⟨address, bytes⟩ := client.eq word.1 word.2
  have grown : ({ s with received := s.received ++ [d] } : Exchanges).Served cb asked := served
  simp only [next]
  split
  · exact grown
  · rename_i r found
    have member : r ∈ s.queue := List.mem_of_find?_eq_some found
    have matching : (s.requests r).ctx.msgId = d.msgId := by
      simpa using List.find?_some found
    obtain rfl := correlated.owner window member sent recent (matching.trans address)
    refine grown.set ⟨fun _ => ?_, (served r).result⟩
    unfold store
    split
    · exact .inr ⟨by rw [bytes], by rw [bytes]⟩
    · exact .inl rfl

/-- Every section keeps it. -/
theorem Served.next (served : s.Served cb asked) (correlated : s.Correlated uniqueId)
    (window : s.Window) {a : Section} (enabled : s.Enabled a)
    (arrives : ∀ d allocated, a = .receive d allocated → s.Arrives cb asked d) :
    (s.next a).Served cb asked := by
  cases a with
  | draw r => exact served.set (r := r) (.of_none (fun queued => by cases queued) rfl)
  | allocFails r => exact served.set (r := r) (.of_none (fun queued => by cases queued) rfl)
  | enqueue r => exact served.set (r := r) (.of_none (fun _ => .inl rfl) rfl)
  | seeDone r =>
      have queued := (served r).queued (by rw [enabled.1]; rfl)
      exact served.set (r := r) (.of_none (fun _ => queued) rfl)
  | giveUp r => exact served.set (r := r) (.of_none (fun _ => .inl rfl) rfl)
  | readResult r =>
      have phase : (s.requests r).phase = .answered := enabled
      have queued := (served r).queued (by rw [phase]; rfl)
      refine served.set (r := r) ⟨fun _ => queued, ?_⟩
      rintro size response ⟨⟩
      exact queued
  | listDel r =>
      obtain ⟨size, response, phase⟩ := enabled
      have result := (served r).result size response (by rw [phase]; rfl)
      simp only [Exchanges.next, phase]
      refine served.set (r := r) ⟨fun queued => (by cases queued), ?_⟩
      rintro size' response' ⟨⟩
      exact result
  | receive d allocated =>
      exact served.receive correlated window (arrives d allocated rfl) allocated

/-- What holds in every run with the client's datagrams. -/
theorem served_of_run (word : uniqueId < 2 ^ 64)
    (run : ReflTransGen (ClientStep cb asked) (start uniqueId) s) : s.Served cb asked := by
  have holds : s.Correlated uniqueId ∧ s.Window ∧ s.Served cb asked := by
    refine Simulation.invariant
      (P := fun s : Exchanges => s.Correlated uniqueId ∧ s.Window ∧ s.Served cb asked) ?_ run
      ⟨start_correlated word, window_of_draws (Nat.zero_le _), start_served cb asked uniqueId⟩
    rintro s _ ⟨a, enabled, arrives, rfl, window⟩ ⟨correlated, before, served⟩
    exact ⟨next_correlated correlated enabled, window,
      served.next correlated before enabled arrives⟩
  exact holds.2.2

/-- **Every answer is the callback's.** Any number of requests in flight, the client's
datagrams delivered in any order, repeatedly, late or never, waits that time out and stores
that find no memory: a request returns no response, or the whole of one that is long enough to
be read and says what the callback said to this request. -/
theorem upcalls_answered (word : uniqueId < 2 ^ 64)
    (run : ReflTransGen (ClientStep cb asked) (start uniqueId) s) {r size : Nat}
    {response : Option (List UInt8)} (phase : (s.requests r).phase = .returned size response) :
    response = none ∨ ∃ bytes, response = some bytes ∧ size = bytes.length ∧
      sizeofPacketInfo ≤ size ∧ ∀ beyond, (asked r).Says cb ⟨bytes, beyond⟩ := by
  have result := (served_of_run word run r).result size response (by rw [phase]; rfl)
  rcases result with none | ⟨answer, length⟩
  · exact .inl none
  · refine .inr ⟨_, answer, length, ?_, (asked r).says_answer cb (s.requests r).msgId⟩
    rw [length]
    exact (asked r).sizeofPacketInfo_le_answer cb (s.requests r).msgId

/-- Sections that can run one after the other, few of them draws. -/
theorem run_clientSections {sections : List Section}
    (allowed : Simulation.Allowed (fun s (a : Section) => (s.Enabled a ∧
      ∀ d allocated, a = .receive d allocated → s.Arrives cb asked d) ∧
        (s.next a).draws ≤ msgIdPeriod) next s sections) :
    ReflTransGen (ClientStep cb asked) s (sections.foldl next s) := by
  refine ReflTransGen.mono ?_ _ _ allowed.run
  rintro s _ ⟨a, ⟨⟨enabled, arrives⟩, few⟩, rfl⟩
  exact ⟨a, enabled, arrives, rfl, window_of_draws few⟩

end Exchanges

/-- Process 7 opens a file. -/
def askedOpen : Query := ⟨7, .open 5 [0x2f, 0x74], by decide, by decide, by decide⟩

/-- Process 8 releases another. -/
def askedRelease : Query := ⟨8, .release 6 [0x2f, 0x75], by decide, by decide, by decide⟩

/-- The first request opens, the others release. -/
def openThenRelease : Nat → Query
  | 0 => askedOpen
  | _ => askedRelease

/-- Two requests in flight. The second is answered first, and twice. -/
def crossedAnswers : List Section :=
  [.draw 0, .draw 1, .enqueue 0, .enqueue 1, .receive (askedRelease.datagram xorWireCb 2) true,
    .receive (askedRelease.datagram xorWireCb 2) true,
    .receive (askedOpen.datagram xorWireCb 1) true, .seeDone 0, .readResult 0, .listDel 0,
    .seeDone 1, .readResult 1, .listDel 1]

/-- Both have returned. -/
def bothServed : Exchanges := crossedAnswers.foldl Exchanges.next (Exchanges.start 0)

theorem crossed_answers_told_apart :
    (∃ bytes, (bothServed.requests 0).phase = .returned 56 (some bytes) ∧
        ∀ beyond, Reply.errorCode ⟨bytes, beyond⟩ = 4) ∧
      ∃ bytes, (bothServed.requests 1).phase = .returned 56 (some bytes) ∧
        ∀ beyond, Reply.errorCode ⟨bytes, beyond⟩ = 1 := by
  have opened : FromClient xorWireCb (askedOpen.packet 1) (askedOpen.datagram xorWireCb 1) :=
    fromClient_datagram xorWireCb askedOpen (by decide) (by decide)
  have released : FromClient xorWireCb (askedRelease.packet 2)
      (askedRelease.datagram xorWireCb 2) :=
    fromClient_datagram xorWireCb askedRelease (by decide) (by decide)
  have allowed : Simulation.Allowed (fun s (a : Section) => (s.Enabled a ∧
      ∀ d allocated, a = .receive d allocated →
        s.Arrives xorWireCb openThenRelease d) ∧ (s.next a).draws ≤ msgIdPeriod) Exchanges.next
      (Exchanges.start 0) crossedAnswers := by
    refine ⟨⟨⟨rfl, nofun⟩, ?_⟩, ⟨⟨rfl, nofun⟩, ?_⟩, ⟨⟨rfl, nofun⟩, ?_⟩, ⟨⟨rfl, nofun⟩, ?_⟩,
      ⟨⟨trivial, ?_⟩, ?_⟩, ⟨⟨trivial, ?_⟩, ?_⟩, ⟨⟨trivial, ?_⟩, ?_⟩, ⟨⟨⟨rfl, rfl⟩, nofun⟩, ?_⟩,
      ⟨⟨rfl, nofun⟩, ?_⟩, ⟨⟨⟨_, _, rfl⟩, nofun⟩, ?_⟩, ⟨⟨⟨rfl, rfl⟩, nofun⟩, ?_⟩,
      ⟨⟨rfl, nofun⟩, ?_⟩, ⟨⟨⟨_, _, rfl⟩, nofun⟩, ?_⟩, trivial⟩
    all_goals first
      | decide
      | rintro _ _ ⟨⟩
    · exact ⟨1, rfl, by decide, released⟩
    · exact ⟨1, rfl, by decide, released⟩
    · exact ⟨0, rfl, by decide, opened⟩
  have first : (bothServed.requests 0).phase =
      .returned 56 (some (askedOpen.answer xorWireCb 1)) := rfl
  have second : (bothServed.requests 1).phase =
      .returned 56 (some (askedRelease.answer xorWireCb 2)) := rfl
  have run := Exchanges.run_clientSections allowed
  constructor
  · rcases Exchanges.upcalls_answered (by decide) run first with none | ⟨bytes, answer, -, -, code⟩
    · cases none
    · cases answer
      exact ⟨_, first, code⟩
  · rcases Exchanges.upcalls_answered (by decide) run second with
      none | ⟨bytes, answer, -, -, code⟩
    · cases none
    · cases answer
      exact ⟨_, second, code⟩

end Teadfs
