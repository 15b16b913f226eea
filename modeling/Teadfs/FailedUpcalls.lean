/-
# Teadfs.FailedUpcalls — what an operation makes of an upcall that failed

Three operations of an `OFR_DECRYPT` handle make upcalls: filling a page, one pass of a
write, and a size change. Whatever goes wrong in an upcall (`requestBlock_failed_iff`),
its request function returns a negative number, and the callers do three things with it.
A failed write upcall becomes `-EIO` before anything is written. A failed read upcall
is not seen: the page keeps the lower bytes and becomes Uptodate. A failed open upcall
becomes the access of `teadfs_write`, which is then neither `OFR_DECRYPT` nor
`OFR_ENCRYPT`, and the zeros go down as they are.

So an operation with a failed upcall comes to no harm exactly when no open upcall failed
or let raw bytes down, the read upcall's block covers what was read (a failed one covers
nothing, so nothing was read), and something did stop the operation (`Contained`).
-/
import Teadfs.UpcallOffsets

namespace Teadfs

set_option autoImplicit false

open Protocol FileContent Frame

/-! ## The ways an upcall fails -/

/-- No reply of a packet's size comes of an exchange. -/
inductive Unanswered (env : Env) (proc : Nat) (type : MsgType) (data : PacketData)
    (payload : List UInt8) (w : World) : Prop where
  | disconnected (gone : w.chan.glob.connect = false)
  | ownAccess (self : proc = w.chan.glob.pid)
  | noPacket (failed : env.packetAlloc w.chan.clock = false)
  | noCtx (failed : env.send w.chan.clock (requestPacket proc type data payload w) = .noCtx)
  | noReply (failed : env.send w.chan.clock (requestPacket proc type data payload w) = .noReply)
  | tooShort (reply : Reply)
      (sent : env.send w.chan.clock (requestPacket proc type data payload w) = .reply reply)
      (short : reply.bytes.length < sizeofPacketInfo)

theorem exchange_reply_eq_none_iff (env : Env) (proc : Nat) (type : MsgType) (data : PacketData)
    (payload : List UInt8) (w : World) :
    (exchange env proc type data payload w).reply = none ↔
      Unanswered env proc type data payload w := by
  constructor
  · intro none
    by_cases gone : w.chan.glob.connect = false
    · exact .disconnected gone
    by_cases self : proc = w.chan.glob.pid
    · exact .ownAccess self
    by_cases failed : env.packetAlloc w.chan.clock = false
    · exact .noPacket failed
    simp only [exchange, gone, self, failed, if_false] at none
    cases sent : env.send w.chan.clock (requestPacket proc type data payload w) with
    | noCtx => exact .noCtx sent
    | noReply => exact .noReply sent
    | reply reply =>
        simp only [requestPacket] at sent
        by_cases short : reply.bytes.length < sizeofPacketInfo
        · exact .tooShort reply sent short
        · simp only [sent, short, if_false] at none
          cases none
  · intro unanswered
    unfold exchange
    cases unanswered with
    | disconnected gone => rw [if_pos gone]
    | ownAccess self => split_ifs <;> rfl
    | noPacket failed => split_ifs <;> rfl
    | noCtx failed =>
        simp only [requestPacket] at failed
        simp only [failed]
        split_ifs <;> rfl
    | noReply failed =>
        simp only [requestPacket] at failed
        simp only [failed]
        split_ifs <;> rfl
    | tooShort reply sent short =>
        simp only [requestPacket] at sent
        simp only [sent, if_pos short]
        split_ifs <;> rfl

theorem decodeBlock_eq_none_iff (reply : Reply) (dstSize : Nat) :
    decodeBlock reply dstSize = none ↔
      reply.errorCode ≠ 0 ∨ reply.bytes.length ≠ sizeofPacketInfo + reply.blockSize ∨
        dstSize < reply.blockSize := by
  unfold decodeBlock
  split_ifs with code size fits
  · exact ⟨fun _ => .inl code, fun _ => rfl⟩
  · exact ⟨fun _ => .inr (.inl size), fun _ => rfl⟩
  · exact ⟨fun _ => .inr (.inr fits), fun _ => rfl⟩
  · refine ⟨nofun, ?_⟩
    rintro (other | other | other)
    · exact absurd other code
    · exact absurd other size
    · exact absurd other fits

/-- A read or write upcall fails where no reply comes, or one with a code that is not
zero, or a block whose size is not that of the reply or does not fit. -/
theorem requestBlock_failed_iff (env : Env) (proc : Nat) (type : MsgType) (data : PacketData)
    (src : List UInt8) (dstSize : Nat) (w : World) :
    (requestBlock env proc type data src dstSize w).1 < 0 ↔
      Unanswered env proc type data src w ∨
        ∃ reply, (exchange env proc type data src w).reply = some reply ∧
          (reply.errorCode ≠ 0 ∨ reply.bytes.length ≠ sizeofPacketInfo + reply.blockSize ∨
            dstSize < reply.blockSize) := by
  have decoded : (requestBlock env proc type data src dstSize w).1 < 0 ↔
      (exchange env proc type data src w).reply.bind (decodeBlock · dstSize) = none := by
    unfold requestBlock
    dsimp only
    split
    · rename_i none
      simp only [none, iff_true]
      decide
    · rename_i block copied
      simp only [copied, reduceCtorEq, iff_false, Int.not_lt]
      exact Int.natCast_nonneg _
  rw [decoded, ← exchange_reply_eq_none_iff, Option.bind_eq_none_iff]
  constructor
  · intro none
    cases answer : (exchange env proc type data src w).reply with
    | none => exact .inl rfl
    | some reply =>
        exact .inr ⟨reply, rfl, (decodeBlock_eq_none_iff reply dstSize).mp (none reply answer)⟩
  · rintro (silent | ⟨reply, answer, wrong⟩) reply' answer'
    · rw [silent] at answer'
      cases answer'
    · rw [answer] at answer'
      cases answer'
      exact (decodeBlock_eq_none_iff reply dstSize).mpr wrong

/-- An open upcall for a lower path fails where no buffer or no reply comes, or the
client's code is negative. -/
theorem teadfsRequestOpenPath_failed_iff (env : Env) (proc : Nat) (dentry : Dentry) (w : World) :
    (teadfsRequestOpenPath env proc dentry w).1 < 0 ↔
      env.pathAlloc w.chan.clock = false ∨ env.pathAlloc w.chan.clock = true ∧
        (Unanswered env proc .open (.open 0 ⟨dentry.lowerPath.length, sizeofPacketInfo⟩)
            dentry.lowerPath w.tick ∨
          ∃ reply, (exchange env proc .open (.open 0 ⟨dentry.lowerPath.length, sizeofPacketInfo⟩)
            dentry.lowerPath w.tick).reply = some reply ∧ reply.errorCode < 0) := by
  rw [← exchange_reply_eq_none_iff]
  have failed : enomem < 0 := by decide
  unfold teadfsRequestOpenPath teadfsRequestOpen
  cases env.pathAlloc w.chan.clock with
  | false => simpa using failed
  | true =>
      cases answer : (exchange env proc .open (.open 0 ⟨dentry.lowerPath.length, sizeofPacketInfo⟩)
        dentry.lowerPath w.tick).reply with
      | none => simpa [answer] using failed
      | some reply => simp [answer]

/-! ## What a log says -/

/-- An upcall came back with an error. -/
def Failed (events : List Event) : Prop :=
  ∃ type packet rc block, .upcall type packet rc block ∈ events ∧ rc < 0

/-- No access asked for lets bytes down as they are. A failed open upcall's does. -/
def Verdicts (events : List Event) : Prop :=
  ∀ packet rc block, .upcall .open packet rc block ∈ events →
    OpenFileResult.ofCode rc = .decrypt ∨ OpenFileResult.ofCode rc = .encrypt

/-- A write upcall failed, or the access was `OFR_ENCRYPT`. -/
def Stopped (events : List Event) : Prop :=
  (∃ packet rc block, .upcall .write packet rc block ∈ events ∧ rc < 0) ∨
    ∃ packet rc block, .upcall .open packet rc block ∈ events ∧
      OpenFileResult.ofCode rc = .encrypt

/-- Every block that reached the lower file is the one the write callback had just
produced, or the beginning of it. -/
def Produced (events : List Event) : Prop :=
  ∀ before offset sent after, events = before ++ .lowerWrite offset sent :: after → sent ≠ [] →
    ∃ earlier packet rc block,
      before = earlier ++ [.upcall .write packet rc block] ∧ 0 ≤ rc ∧ sent <+: block

/-- Bytes went down right after a verdict. -/
def Bare (events : List Event) : Prop :=
  ∃ before packet rc block offset sent after,
    events = before ++ .upcall .open packet rc block :: .lowerWrite offset sent :: after ∧
      sent ≠ []

theorem Bare.not_produced {events : List Event} (bare : Bare events) : ¬ Produced events := by
  obtain ⟨before, packet, rc, block, offset, sent, after, rfl, some⟩ := bare
  intro produced
  obtain ⟨earlier, packet', rc', block', last, -⟩ := produced
    (before ++ [.upcall .open packet rc block]) offset sent after (by simp) some
  have same := congrArg List.getLast? last
  simp at same

theorem Bare.append {first second : List Event} (bare : Bare first ∨ Bare second) :
    Bare (first ++ second) := by
  rcases bare with ⟨before, packet, rc, block, offset, sent, after, rfl, some⟩ |
    ⟨before, packet, rc, block, offset, sent, after, rfl, some⟩
  · exact ⟨before, packet, rc, block, offset, sent, after ++ second, by simp, some⟩
  · exact ⟨first ++ before, packet, rc, block, offset, sent, after, by simp, some⟩

theorem Produced.append {first second : List Event} (produced : Produced first)
    (produced' : Produced second) : Produced (first ++ second) := by
  intro before offset sent after split some
  rcases List.append_eq_append_iff.mp split with ⟨front, rfl, here⟩ | ⟨back, rfl, here⟩
  · obtain ⟨earlier, packet, rc, block, rfl, facts⟩ := produced' front offset sent after here some
    exact ⟨first ++ earlier, packet, rc, block, by simp, facts⟩
  · cases back with
    | nil =>
        obtain ⟨earlier, packet, rc, block, empty, -⟩ := produced' [] offset sent after
          (by simpa using here.symm) some
        simp at empty
    | cons event back =>
        obtain ⟨rfl, rest⟩ := List.cons.inj here
        exact produced before offset sent back rfl some

/-- Where nothing went down, nothing else did. -/
theorem Produced.of_upcalls {events : List Event}
    (upcalls : ∀ offset sent, .lowerWrite offset sent ∉ events) : Produced events := by
  rintro before offset sent after rfl -
  exact absurd (by simp) (upcalls offset sent)

/-! ## The way down -/

/-- What was logged on the way down, and what came of it. `complete` says that nothing
but an upcall stands in the way. -/
structure Course (complete : Prop) (rc : Int) (events : List Event) : Prop where
  kinds : ∀ type packet rc block, .upcall type packet rc block ∈ events →
    type = .open ∨ type = .write
  produced : Verdicts events → Produced events
  stops : Stopped events → rc < 0
  bare : complete → ¬ Verdicts events → Bare events
  cause : complete → rc < 0 → Stopped events

section Course

variable {complete : Prop} {rc : Int}

theorem Course.quiet (fine : complete → 0 ≤ rc) : Course complete rc [] where
  kinds _ _ _ _ member := by simp at member
  produced _ := .of_upcalls (by simp)
  stops stopped := by simp [Stopped] at stopped
  bare _ raw := absurd (fun _ _ _ member => by simp at member) raw
  cause whole negative := absurd (fine whole) (Int.not_le.mpr negative)

/-- An operation that goes on after `first` logs both. -/
theorem Course.append {rc' : Int} {first second : List Event} (course : Course complete rc' first)
    (went : 0 ≤ rc') (course' : Course complete rc second) :
    Course complete rc (first ++ second) where
  kinds type packet rc block member := by
    rcases List.mem_append.mp member with member | member
    · exact course.kinds type packet rc block member
    · exact course'.kinds type packet rc block member
  produced verdicts := by
    refine (course.produced ?_).append (course'.produced ?_)
    · exact fun packet rc block member => verdicts packet rc block (List.mem_append_left _ member)
    · exact fun packet rc block member => verdicts packet rc block (List.mem_append_right _ member)
  stops := by
    have before : ¬ Stopped first := fun stopped => Int.not_lt.mpr went (course.stops stopped)
    rintro (⟨packet, rc, block, member, negative⟩ | ⟨packet, rc, block, member, encrypt⟩)
    · rcases List.mem_append.mp member with member | member
      · exact absurd (.inl ⟨packet, rc, block, member, negative⟩) before
      · exact course'.stops (.inl ⟨packet, rc, block, member, negative⟩)
    · rcases List.mem_append.mp member with member | member
      · exact absurd (.inr ⟨packet, rc, block, member, encrypt⟩) before
      · exact course'.stops (.inr ⟨packet, rc, block, member, encrypt⟩)
  bare whole raw := by
    by_cases verdicts : Verdicts first
    · refine Bare.append (.inr (course'.bare whole fun verdicts' => raw ?_))
      intro packet rc block member
      rcases List.mem_append.mp member with member | member
      · exact verdicts packet rc block member
      · exact verdicts' packet rc block member
    · exact Bare.append (.inl (course.bare whole verdicts))
  cause whole negative := by
    rcases course'.cause whole negative with ⟨packet, rc, block, member, failed⟩ |
      ⟨packet, rc, block, member, encrypt⟩
    · exact .inl ⟨packet, rc, block, List.mem_append_right _ member, failed⟩
    · exact .inr ⟨packet, rc, block, List.mem_append_right _ member, encrypt⟩

/-- A write upcall, and what it let down. -/
theorem Course.write {packet : Option Packet} {wrc : Int} {block : List UInt8}
    {down : List Event} (sends : down = [] ∨ ∃ offset sent,
      down = [.lowerWrite offset sent] ∧ 0 ≤ wrc ∧ sent <+: block)
    (stops : wrc < 0 → rc < 0) (cause : complete → rc < 0 → wrc < 0) :
    Course complete rc (.upcall .write packet wrc block :: down) where
  kinds type packet rc block member := by
    rcases sends with rfl | ⟨offset, sent, rfl, -⟩ <;> simp at member <;> exact .inr member.1
  produced _ := by
    rcases sends with rfl | ⟨offset, sent, rfl, went, beginning⟩
    · exact .of_upcalls (by simp)
    · intro before offset' sent' after split _
      cases before with
      | nil => simp at split
      | cons event before =>
          obtain ⟨rfl, rest⟩ := List.cons.inj split
          cases before with
          | nil =>
              obtain ⟨-, rfl⟩ := Event.lowerWrite.inj (List.cons.inj rest).1
              exact ⟨[], packet, wrc, block, rfl, went, beginning⟩
          | cons event before => simp at rest
  stops := by
    rintro (⟨packet', rc', block', member, negative⟩ | ⟨packet', rc', block', member, -⟩)
    · rcases sends with rfl | ⟨offset, sent, rfl, -⟩ <;> simp at member <;>
        exact stops (member.2.1 ▸ negative)
    · rcases sends with rfl | ⟨offset, sent, rfl, -⟩ <;> simp at member
  bare _ raw := by
    refine absurd (fun packet' rc' block' member => ?_) raw
    rcases sends with rfl | ⟨offset, sent, rfl, -⟩ <;> simp at member
  cause whole negative := .inl ⟨packet, wrc, block, by simp, cause whole negative⟩

/-- A verdict under which bytes are not let down as they are. -/
theorem Course.verdict {packet : Option Packet} {code : Int} {block : List UInt8}
    {events : List Event} (decrypt : OpenFileResult.ofCode code = .decrypt)
    (course : Course complete rc events) :
    Course complete rc (.upcall .open packet code block :: events) := by
  have opened : Course complete 0 [.upcall .open packet code block] := by
    refine ⟨fun type _ _ _ member => ?_, fun _ => .of_upcalls (by simp), ?_, ?_,
      fun _ negative => by simp at negative⟩
    · simp at member
      exact .inl member.1
    · rintro (⟨_, _, _, member, -⟩ | ⟨_, _, _, member, encrypt⟩)
      · simp at member
      · obtain ⟨-, rfl, -⟩ : _ ∧ _ ∧ _ := by simpa using member
        rw [decrypt] at encrypt
        cases encrypt
    · intro _ raw
      refine absurd (fun packet' rc' block' member => .inl ?_) raw
      obtain ⟨-, rfl, -⟩ : _ ∧ _ ∧ _ := by simpa using member
      exact decrypt
  exact opened.append (Int.le_refl 0) course

/-- A verdict with nothing behind it. -/
theorem Course.opened {packet : Option Packet} {code : Int} {block : List UInt8} (negative : rc < 0)
    (encrypt : complete → OpenFileResult.ofCode code = .encrypt) :
    Course complete rc [.upcall .open packet code block] where
  kinds type _ _ _ member := by
    simp at member
    exact .inl member.1
  produced _ := .of_upcalls (by simp)
  stops _ := negative
  bare whole raw := by
    refine absurd (fun packet' rc' block' member => .inr ?_) raw
    obtain ⟨-, rfl, -⟩ : _ ∧ _ ∧ _ := by simpa using member
    exact encrypt whole
  cause whole _ := .inr ⟨packet, code, block, by simp, encrypt whole⟩

/-- A verdict that lets bytes down as they are. -/
theorem Course.raw {packet : Option Packet} {code : Int} {block sent : List UInt8} {offset : Nat}
    (decrypt : OpenFileResult.ofCode code ≠ .decrypt)
    (encrypt : OpenFileResult.ofCode code ≠ .encrypt) (some : complete → sent ≠ [])
    (went : 0 ≤ rc) :
    Course complete rc [.upcall .open packet code block, .lowerWrite offset sent] where
  kinds type _ _ _ member := by
    simp at member
    exact .inl member.1
  produced verdicts := by
    rcases verdicts packet code block (by simp) with verdict | verdict
    · exact absurd verdict decrypt
    · exact absurd verdict encrypt
  stops := by
    rintro (⟨_, _, _, member, -⟩ | ⟨_, _, _, member, verdict⟩)
    · simp at member
    · obtain ⟨-, rfl, -⟩ : _ ∧ _ ∧ _ := by simpa using member
      exact absurd verdict encrypt
  bare whole _ := ⟨[], packet, code, block, offset, sent, [], rfl, some whole⟩
  cause _ negative := absurd went (Int.not_le.mpr negative)

theorem Course.settle {rc' : Int} {events : List Event} (course : Course complete rc events)
    (went : 0 ≤ rc) (went' : 0 ≤ rc') : Course complete rc' events where
  kinds := course.kinds
  produced := course.produced
  stops stopped := absurd went (Int.not_le.mpr (course.stops stopped))
  bare := course.bare
  cause _ negative := absurd went' (Int.not_le.mpr negative)

/-- Reads in front of the way down are no verdicts, and stop nothing. -/
theorem Course.behind {front rest : List Event} (course : Course complete rc rest)
    (reads : ∀ event ∈ front, ∃ packet rc block, event = .upcall .read packet rc block) :
    (Verdicts (front ++ rest) → Stopped (front ++ rest) → rc < 0 ∧ Produced (front ++ rest)) ∧
      (complete → Produced (front ++ rest) → Verdicts (front ++ rest)) ∧
      (complete → rc < 0 → Stopped (front ++ rest)) := by
  have behind : ∀ type packet code block, type = .open ∨ type = .write →
      .upcall type packet code block ∈ front ++ rest → .upcall type packet code block ∈ rest := by
    intro type packet code block kind member
    rcases List.mem_append.mp member with member | member
    · obtain ⟨_, _, _, read⟩ := reads _ member
      rcases kind with rfl | rfl <;> simp at read
    · exact member
  have nothing : Produced front := by
    refine .of_upcalls fun offset sent member => ?_
    obtain ⟨_, _, _, read⟩ := reads _ member
    simp at read
  refine ⟨fun verdicts stopped => ⟨course.stops ?_, nothing.append (course.produced ?_)⟩, ?_, ?_⟩
  · rcases stopped with ⟨packet, code, block, member, negative⟩ |
      ⟨packet, code, block, member, encrypt⟩
    · exact .inl ⟨packet, code, block, behind _ _ _ _ (.inr rfl) member, negative⟩
    · exact .inr ⟨packet, code, block, behind _ _ _ _ (.inl rfl) member, encrypt⟩
  · exact fun packet code block member => verdicts packet code block (List.mem_append_right _ member)
  · intro whole produced packet code block member
    by_contra raw
    have bare := course.bare whole fun verdicts => raw
      (verdicts packet code block (behind _ _ _ _ (.inl rfl) member))
    exact (Bare.append (.inr bare)).not_produced produced
  · intro whole negative
    rcases course.cause whole negative with ⟨packet, code, block, member, failed⟩ |
      ⟨packet, code, block, member, encrypt⟩
    · exact .inl ⟨packet, code, block, List.mem_append_right _ member, failed⟩
    · exact .inr ⟨packet, code, block, List.mem_append_right _ member, encrypt⟩

/-- No page of the decrypted mapping has become Uptodate, or ceased to be. -/
def SameUptodate (w w' : World) : Prop :=
  ∀ index, (w'.page .decrypted index).uptodate = (w.page .decrypted index).uptodate

theorem SameUptodate.of_mapping {w w' : World}
    (mapping : w'.inode.mapping .decrypted = w.inode.mapping .decrypted) : SameUptodate w w' :=
  fun index => congrArg (fun pages => (pages index).uptodate) mapping

/-- From `w` an operation went the way down and came back with `r`. -/
def Ran (complete : Prop) (w : World) (r : Int × World) : Prop :=
  SameUptodate w r.2 ∧
    ∃ events, r.2.chan.log = w.chan.log ++ events ∧ Course complete r.1 events

theorem Ran.quiet {w w' : World} (same : SameUptodate w w')
    (log : w'.chan.log = w.chan.log) (fine : complete → 0 ≤ rc) : Ran complete w (rc, w') :=
  ⟨same, [], by rw [log, List.append_nil], .quiet fine⟩

theorem Ran.trans {w : World} {r r' : Int × World} (ran : Ran complete w r) (went : 0 ≤ r.1)
    (ran' : Ran complete r.2 r') : Ran complete w r' := by
  obtain ⟨same, events, log, course⟩ := ran
  obtain ⟨same', events', log', course'⟩ := ran'
  refine ⟨fun index => (same' index).trans (same index), events ++ events', ?_,
    course.append went course'⟩
  rw [log', log, List.append_assoc]

end Course

/-- A pass of the loop hands over at least one zero. -/
theorem zeros_ne_nil {total truncatePos : Nat} (more : truncatePos < total) :
    List.replicate (min (total - truncatePos) pageCacheSize) (0 : UInt8) ≠ [] := by
  have paged : 0 < pageCacheSize := by decide
  intro empty
  have none := congrArg List.length empty
  rw [List.length_replicate, List.length_nil] at none
  omega

section Down

variable {env : Env} {complete : Prop} (obliging : complete → Obliging env)

include obliging

/-- A block of a decrypting handle goes down through the client or not at all. -/
theorem teadfsWriteLower_ran (file : FileInfo) (decrypt : file.access = .decrypt)
    (isOpen : complete → file.lowerFile.isSome) (proc : Nat) (data : List UInt8) (offset : Nat)
    (w : World) : Ran complete w (teadfsWriteLower env proc file data offset w) := by
  have failed : eio < 0 := by decide
  have inode : (teadfsRequestWrite env proc offset data data.length w.tick).2.2.inode = w.inode :=
    requestBlock_inode ..
  obtain ⟨packet, asked⟩ := teadfsRequestWrite_log env proc data data.length w.tick offset
  rcases teadfsWriteLower_cases decrypt env proc data offset w with
    ⟨w', guard, stopped⟩ | ⟨refused, stopped⟩ | ⟨answered, passed⟩
  · rw [stopped]
    rcases guard with ⟨closed, rfl⟩ | ⟨noMemory, rfl⟩
    · refine .quiet (fun _ => rfl) rfl fun whole => ?_
      rw [closed] at isOpen
      cases isOpen whole
    · refine .quiet (fun _ => rfl) rfl fun whole => ?_
      rw [(obliging whole).zalloc] at noMemory
      cases noMemory
  · rw [stopped]
    exact ⟨.of_mapping (by rw [inode]), _, asked,
      .write (.inl rfl) (fun _ => failed) fun _ _ => refused⟩
  · rw [passed]
    generalize teadfsRequestWrite env proc offset data data.length w.tick = r at *
    rcases kernelWrite_cases env file.append r.2.1 (offset + encryptFileHeaderSize) r.2.2 with
      ⟨errno, missed⟩ | ⟨sent, beginning, moved⟩
    · rw [missed]
      refine ⟨.of_mapping (by rw [← inode]; rfl), _, asked,
        .write (.inl rfl) (fun _ => errno.property) ?_⟩
      intro whole negative
      have full := kernelWrite_full ((obliging whole).kernelWrite r.2.2.chan.clock) file.append
        r.2.1 (offset + encryptFileHeaderSize)
      have same := congrArg Prod.fst (missed.symm.trans full)
      exact absurd (same ▸ negative) (Int.not_lt.mpr (Int.natCast_nonneg _))
    · rw [moved]
      refine ⟨.of_mapping (by rw [← inode]; rfl), [.upcall .write packet r.1 r.2.1,
          .lowerWrite (writtenAt file.append (offset + encryptFileHeaderSize) r.2.2) sent], ?_,
        .write (.inr ⟨_, sent, rfl, answered, beginning⟩) ?_ ?_⟩
      · rw [World.record_log, World.setLower_chan, World.tick_log, asked, List.append_assoc]
        rfl
      · intro negative
        exact absurd answered (Int.not_le.mpr negative)
      · intro _ negative
        exact absurd negative (Int.not_lt.mpr (Int.natCast_nonneg _))

/-- What a handle that lets bytes down as they are logs: nothing, or the block. -/
theorem teadfsWriteLower_raw_log (file : FileInfo) (isOpen : file.lowerFile.isSome)
    (decrypt : file.access ≠ .decrypt) (encrypt : file.access ≠ .encrypt) (proc : Nat)
    (data : List UInt8) (offset : Nat) (w : World) :
    ((teadfsWriteLower env proc file data offset w).1 < 0 ∧ ¬ complete ∧
        (teadfsWriteLower env proc file data offset w).2.chan.log = w.chan.log) ∨
      ∃ place sent, (complete → sent = data) ∧
        0 ≤ (teadfsWriteLower env proc file data offset w).1 ∧
        (teadfsWriteLower env proc file data offset w).2.chan.log =
          w.chan.log ++ [.lowerWrite place sent] := by
  obtain ⟨ref, opened⟩ := Option.isSome_iff_exists.mp isOpen
  simp only [teadfsWriteLower, opened, zalloc, decrypt, encrypt, if_false]
  split_ifs with noMemory
  · refine .inl ⟨(by decide : eio < 0), fun whole => ?_, rfl⟩
    rw [(obliging whole).zalloc] at noMemory
    cases noMemory
  · have full : complete → kernelWrite env file.append data offset w.tick = _ :=
      fun whole => kernelWrite_full ((obliging whole).kernelWrite _) file.append data offset
    rcases kernelWrite_cases env file.append data offset w.tick with
      ⟨errno, missed⟩ | ⟨sent, beginning, moved⟩
    · rw [missed] at full ⊢
      refine .inl ⟨errno.property, fun whole => ?_, rfl⟩
      have same : errno.val = data.length := congrArg Prod.fst (full whole)
      exact absurd errno.property (Int.not_lt.mpr (same ▸ Int.natCast_nonneg _))
    · rw [moved] at full ⊢
      refine .inr ⟨_, sent, fun whole => beginning.eq_of_length ?_, Int.natCast_nonneg _, rfl⟩
      exact Int.ofNat_inj.mp (congrArg Prod.fst (full whole))

/-- A page of zeros goes down as its verdict says. -/
theorem teadfsWrite_ran (proc : Nat) (dentry : Dentry) {data : List UInt8} (some : data ≠ [])
    (offset : Nat) (w : World) : Ran complete w (teadfsWrite env proc dentry data offset w) := by
  obtain ⟨packet, asked⟩ := teadfsRequestOpenPath_log env proc dentry w
  rcases teadfsWrite_cases env proc dentry data offset w with
    ⟨errno, refused, failed⟩ | ⟨ref, w', -, inode, chan, -, written⟩
  · rw [failed]
    refine ⟨.of_mapping (by simp), _, asked, .opened errno.property fun whole => ?_⟩
    rw [(obliging whole).dentryOpen] at refused
    cases refused
  · rw [written]
    dsimp only
    have before : w'.chan.log = w.chan.log ++
        [.upcall .open packet (teadfsRequestOpenPath env proc dentry w).1 []] := by
      rw [chan]
      exact asked
    generalize (teadfsRequestOpenPath env proc dentry w).1 = code at *
    obtain ⟨lower, mapping⟩ := teadfsWriteLower_inode env proc
      ⟨.some ref, .ofCode code, [], false⟩ data (min w.inode.iSize offset) w'
    have kept : (teadfsWriteLower env proc ⟨.some ref, .ofCode code, [], false⟩ data
        (min w.inode.iSize offset) w').2.inode.mapping = w.inode.mapping := by
      rw [mapping, inode]
    -- the verdict, then whatever it let down
    suffices course : ∃ events, (teadfsWriteLower env proc ⟨.some ref, .ofCode code, [], false⟩ data
        (min w.inode.iSize offset) w').2.chan.log = w'.chan.log ++ events ∧
        Course complete (teadfsWriteLower env proc ⟨.some ref, .ofCode code, [], false⟩ data
          (min w.inode.iSize offset) w').1 (.upcall .open packet code [] :: events) by
      obtain ⟨events, log, course⟩ := course
      rw [before, List.append_assoc] at log
      split_ifs with negative
      · exact ⟨.of_mapping (by rw [kept]), _, log, course⟩
      · exact ⟨.of_mapping (congrFun kept .decrypted), _, log,
          course.settle (Int.not_lt.mp negative) (Int.le_refl 0)⟩
    by_cases decrypt : OpenFileResult.ofCode code = .decrypt
    · obtain ⟨-, events, log, course⟩ := teadfsWriteLower_ran obliging
        ⟨.some ref, .ofCode code, [], false⟩ decrypt (fun _ => rfl) proc data
        (min w.inode.iSize offset) w'
      exact ⟨events, log, course.verdict decrypt⟩
    by_cases encrypt : OpenFileResult.ofCode code = .encrypt
    · have stopped : (teadfsWriteLower env proc ⟨.some ref, .ofCode code, [], false⟩ data
          (min w.inode.iSize offset) w').1 < 0 ∧ (teadfsWriteLower env proc
            ⟨.some ref, .ofCode code, [], false⟩ data (min w.inode.iSize offset) w').2.chan.log =
            w'.chan.log := by
        simp only [teadfsWriteLower, zalloc, encrypt, if_true]
        split_ifs <;> exact ⟨(by decide : eio < 0), rfl⟩
      exact ⟨[], by rw [stopped.2, List.append_nil], .opened stopped.1 fun _ => encrypt⟩
    · rcases teadfsWriteLower_raw_log obliging ⟨.some ref, .ofCode code, [], false⟩ rfl decrypt
        encrypt proc data (min w.inode.iSize offset) w' with
        ⟨negative, notWhole, log⟩ | ⟨place, sent, whole, went, log⟩
      · exact ⟨[], by rw [log, List.append_nil], .opened negative fun whole => absurd whole notWhole⟩
      · exact ⟨_, log, .raw decrypt encrypt (fun complete => by rwa [whole complete]) went⟩

theorem truncateLoop_ran (proc : Nat) (dentry : Dentry) (iaSize total fuel truncatePos : Nat)
    (w : World) :
    Ran complete w (truncateLoop env proc dentry iaSize total fuel truncatePos w) := by
  induction fuel generalizing truncatePos w with
  | zero => exact .quiet (fun _ => rfl) rfl fun _ => Int.le_refl 0
  | succ fuel ih =>
      simp only [truncateLoop]
      split_ifs with more
      · exact teadfsWrite_ran obliging proc dentry (zeros_ne_nil more) _ w
      · rename_i went
        exact (teadfsWrite_ran obliging proc dentry (zeros_ne_nil more) _ w).trans
          (Int.not_lt.mp went) (ih ..)
      · exact .quiet (fun _ => rfl) rfl fun _ => Int.le_refl 0

theorem truncateUpper_ran (proc : Nat) (dentry : Dentry) (ia lowerIa : Iattr) (w : World) :
    Ran complete w ((truncateUpper env proc dentry ia lowerIa w).1,
      (truncateUpper env proc dentry ia lowerIa w).2.2) := by
  rcases truncateUpper_cases env proc dentry ia lowerIa w with
    ⟨-, t⟩ | ⟨-, noMemory, t⟩ | ⟨-, t⟩ | ⟨-, t⟩
  · rw [t]
    exact .quiet (fun _ => rfl) rfl fun _ => Int.le_refl 0
  · rw [t]
    refine .quiet (fun _ => rfl) rfl fun whole => ?_
    rw [(obliging whole).zalloc] at noMemory
    cases noMemory
  · rw [t]
    exact truncateLoop_ran obliging proc dentry _ _ _ 0 w.tick
  · rw [t]
    exact .quiet (.of_mapping rfl) rfl fun _ => Int.le_refl 0

/-- `teadfs_truncate` to a larger size leaves nothing to `notify_change`. -/
theorem teadfsTruncate_ran (proc : Nat) (dentry : Dentry) {newLength : Nat} {w : World}
    (grows : w.inode.iSize < newLength) :
    Ran complete w (teadfsTruncate env proc dentry newLength w) := by
  have ran := truncateUpper_ran obliging proc dentry ⟨true, newLength, false, false, false, false⟩
    ⟨false, 0, false, false, false, false⟩ w
  have nothing : (truncateUpper env proc dentry ⟨true, newLength, false, false, false, false⟩
      ⟨false, 0, false, false, false, false⟩ w).2.1.attrSize = false := by
    rcases truncateUpper_cases env proc dentry ⟨true, newLength, false, false, false, false⟩
      ⟨false, 0, false, false, false, false⟩ w with
      ⟨-, t⟩ | ⟨-, -, t⟩ | ⟨-, t⟩ | ⟨shrinks, -⟩
    · rw [t]
    · rw [t]
    · rw [t]
    · exact absurd grows (Nat.not_lt.mpr (Nat.le_of_lt shrinks))
  simpa only [teadfsTruncate, nothing, Bool.false_eq_true, and_false, if_false] using ran

theorem teadfsWriteEnd_ran {file : FileInfo} (decrypt : file.access = .decrypt)
    (isOpen : complete → file.lowerFile.isSome) (proc pos len copied : Nat) (w : World) :
    Ran complete w (teadfsWriteEnd env proc file pos len copied w) := by
  simp only [teadfsWriteEnd]
  generalize (if copied < len ∧ (w.page file.view (pos / pageCacheSize)).uptodate = false then 0
    else copied) = copied
  obtain ⟨same, events, log, course⟩ := teadfsWriteLower_ran obliging file decrypt isOpen proc
    (window (w.page file.view (pos / pageCacheSize)).data (pos % pageCacheSize) copied) pos w
  split_ifs with negative
  · exact ⟨same, events, log, course⟩
  · exact ⟨same, events, log,
      course.settle (Int.not_lt.mp negative) (Int.natCast_nonneg copied)⟩

end Down

/-! ## Pages -/

/-- The bytes the lower file system hands over for a page of the decrypted mapping. -/
def lowerBytes (env : Env) (index : Nat) (w : World) : List UInt8 :=
  match (kernelRead env (index * pageCacheSize + encryptFileHeaderSize) pageCacheSize w).1 with
  | .ok bytes => bytes
  | .error _ => []

/-- What a read through a decrypting handle logs, and what its buffer holds: the bytes
that were read, under the block that came back. -/
theorem teadfsReadLower_log {file : FileInfo} (decrypt : file.access = .decrypt) (env : Env)
    (proc : Nat) {size : Nat} (data : Fin size → UInt8) (offset : Nat) (w : World) :
    ((teadfsReadLower env proc file data offset w).1 < 0 ∧
        (teadfsReadLower env proc file data offset w).2.2.chan.log = w.chan.log) ∨
      ∃ bytes packet rc block,
        (kernelRead env (offset + encryptFileHeaderSize) size w).1 = .ok bytes ∧
        0 ≤ (teadfsReadLower env proc file data offset w).1 ∧
        (teadfsReadLower env proc file data offset w).2.1 = overlay (overlay data 0 bytes) 0 block ∧
        (teadfsReadLower env proc file data offset w).2.2.chan.log =
          w.chan.log ++ [Event.upcall .read packet rc block] := by
  rcases teadfsReadLower_cases decrypt env proc data offset w with
    ⟨rc, w', negative, rfl | rfl, stopped⟩ | ⟨bytes, read, -, asked⟩
  · exact .inl (by rw [stopped]; exact ⟨negative, rfl⟩)
  · exact .inl (by rw [stopped]; exact ⟨negative, rfl⟩)
  · obtain ⟨packet, log⟩ := teadfsRequestRead_log env proc bytes size w.tick
      (offset + encryptFileHeaderSize)
    refine .inr ⟨bytes, packet, _, _, read, ?_, ?_, Eq.trans ?_ log⟩
    · rw [asked]
      dsimp only
      split
      · exact Int.natCast_nonneg _
      · rename_i something
        exact (Int.not_le.mp something).le
    · rw [asked]
      dsimp only
      split
      · rename_i nothing
        rw [show (teadfsRequestRead env proc (offset + encryptFileHeaderSize) bytes size
          w.tick).2.1 = [] from requestBlock_nonpos _ _ _ _ _ _ _ nothing, overlay_nil]
      · rfl
    · rw [asked]
      dsimp only
      split <;> rfl

/-- What filling a page of a decrypting handle can do: fail before its upcall, or make
the upcall with the lower bytes, lay the block that came back over them, and succeed. -/
theorem fillPage_cases {file : FileInfo} (decrypt : file.access = .decrypt) (env : Env)
    (proc index : Nat) (w : World) :
    ((fillPage env proc file index w).1 < 0 ∧
        (fillPage env proc file index w).2.chan.log = w.chan.log) ∨
      ((fillPage env proc file index w).1 = 0 ∧ ∃ packet rc block,
        (fillPage env proc file index w).2.chan.log =
          w.chan.log ++ [.upcall .read packet rc block] ∧
        (fillPage env proc file index w).2.page .decrypted index =
          ⟨true, overlay (overlay (w.page .decrypted index).data 0 (lowerBytes env index w)) 0
            block⟩) := by
  have view : file.view = .decrypted := by simp [FileInfo.view, decrypt]
  simp only [fillPage, view, World.page_setPage_self, World.setPage_chan]
  rcases teadfsReadLower_log decrypt env proc (w.page .decrypted index).data
    (index * pageCacheSize) w with ⟨negative, log⟩ | ⟨bytes, packet, rc, block, read, went, data, log⟩
  · exact .inl ⟨by rw [if_neg negative.le.not_gt]; exact negative, log⟩
  · refine .inr ?_
    have success : (if 0 < (teadfsReadLower env proc file (w.page .decrypted index).data
        (index * pageCacheSize) w).1 then 0 else (teadfsReadLower env proc file
          (w.page .decrypted index).data (index * pageCacheSize) w).1) = 0 := by
      split <;> omega
    have fetched : lowerBytes env index w = bytes := by rw [lowerBytes, read]
    exact ⟨success, packet, rc, block, log, by rw [success, data, fetched]; rfl⟩

/-- Storing bytes in a page leaves its flag. -/
theorem sameUptodate_setPage (w : World) (view : View) (index : Nat) (data : FrameBytes) :
    SameUptodate w (w.setPage view index ⟨(w.page view index).uptodate, data⟩) := by
  intro index'
  by_cases here : index' = index
  · subst here
    cases view with
    | raw => simp [World.page, World.setPage]
    | decrypted => rw [World.page_setPage_self]
  · rw [World.page_setPage_of_ne _ _ _ _ here]

section Write

variable {env : Env} {complete : Prop} (obliging : complete → Obliging env) {file : FileInfo}
  (decrypt : file.access = .decrypt) (isOpen : complete → file.lowerFile.isSome)

include obliging decrypt isOpen

/-- What one pass of a write can do: stop with nothing logged, or go its way down from
`w₁`, where its page is Uptodate. Before that it has filled the page, with one read
upcall, unless it was Uptodate already. -/
theorem writeChunk_cases (proc : Nat) (dentry : Dentry) (pos : Nat) (data : List UInt8)
    (copied : Nat) (w : World) :
    ((writeChunk env proc dentry file pos data copied w).2.chan.log = w.chan.log) ∨
      ∃ w₁, Ran complete w₁ (writeChunk env proc dentry file pos data copied w) ∧
        ((SameUptodate w w₁ ∧ w₁.chan.log = w.chan.log) ∨
          ((w.page .decrypted (pos / pageCacheSize)).uptodate = false ∧
            (w₁.page .decrypted (pos / pageCacheSize)).uptodate = true ∧
            ∃ packet rc block, w₁.chan.log = w.chan.log ++ [.upcall .read packet rc block])) := by
  have view : file.view = .decrypted := by simp [FileInfo.view, decrypt]
  -- the page, before anything goes down
  have page : ((pageForWrite env proc file (pos / pageCacheSize) w).1 ≠ 0 →
        (pageForWrite env proc file (pos / pageCacheSize) w).2.chan.log = w.chan.log) ∧
      ((pageForWrite env proc file (pos / pageCacheSize) w).1 = 0 →
        (SameUptodate w (pageForWrite env proc file (pos / pageCacheSize) w).2 ∧
          (pageForWrite env proc file (pos / pageCacheSize) w).2.chan.log = w.chan.log) ∨
        ((w.page .decrypted (pos / pageCacheSize)).uptodate = false ∧
          ((pageForWrite env proc file (pos / pageCacheSize) w).2.page .decrypted
            (pos / pageCacheSize)).uptodate = true ∧
          ∃ packet rc block, (pageForWrite env proc file (pos / pageCacheSize) w).2.chan.log =
            w.chan.log ++ [.upcall .read packet rc block])) := by
    unfold pageForWrite
    rw [view]
    split_ifs with cached
    · exact ⟨fun _ => rfl, fun _ => .inl ⟨fun _ => rfl, rfl⟩⟩
    · rcases fillPage_cases decrypt env proc (pos / pageCacheSize) w.tick with
        ⟨negative, log⟩ | ⟨success, packet, rc, block, log, filled⟩
      · exact ⟨fun _ => log, fun zero => absurd zero negative.ne⟩
      · exact ⟨fun wrong => absurd success wrong,
          fun _ => .inr ⟨by simpa using cached, by rw [filled], packet, rc, block, log⟩⟩
  simp only [writeChunk]
  rcases treadfsWriteBegin_cases env proc dentry file pos w with
    noPage | ⟨notFilled, stopped⟩ | ⟨filled, grown, grow, ending⟩
  · have failed : enomem ≠ 0 := by decide
    rw [noPage]
    exact .inl (by rw [if_pos failed]; rfl)
  · rw [stopped, if_pos notFilled]
    exact .inl (page.1 notFilled)
  · refine .inr ⟨(pageForWrite env proc file (pos / pageCacheSize) w).2, ?_, page.2 filled⟩
    have ran : Ran complete (pageForWrite env proc file (pos / pageCacheSize) w).2 grown := by
      rcases grow with ⟨hole, rfl⟩ | ⟨-, rfl⟩
      · exact teadfsTruncate_ran obliging proc dentry hole
      · exact .quiet (fun _ => rfl) rfl fun _ => Int.le_refl 0
    rcases ending with ⟨failed, stopped⟩ | ⟨success, frame, begun⟩
    · rw [stopped, if_pos failed]
      exact ran
    · rw [begun, if_neg (not_not.mpr rfl)]
      have filledIn : Ran complete grown.2 ((0 : Int), copyToPage file pos (data.take copied)
          (grown.2.setPage file.view (pos / pageCacheSize)
            ⟨(grown.2.page file.view (pos / pageCacheSize)).uptodate, frame⟩)) := by
        refine .quiet (fun index => ?_) rfl fun _ => Int.le_refl 0
        rw [copyToPage, sameUptodate_setPage, sameUptodate_setPage]
      exact ran.trans success.ge (filledIn.trans (Int.le_refl 0)
        (teadfsWriteEnd_ran obliging decrypt isOpen proc pos data.length copied _))

end Write

/-! ## The three operations -/

/-- The operations of a decrypting handle that make upcalls. -/
inductive DecryptedOp where
  | readpage (index : Nat)
  /-- One pass of a write: `write_begin`, the copy of `copied` bytes, `write_end`. -/
  | write (pos : Nat) (data : List UInt8) (copied : Nat)
  | resize (n : Nat) (byHandle : Bool)

namespace DecryptedOp

def run (env : Env) (proc : Nat) (dentry : Dentry) (file : FileInfo) :
    DecryptedOp → World → Int × World
  | .readpage index, w => teadfsReadpage env proc file index w
  | .write pos data copied, w => writeChunk env proc dentry file pos data copied w
  | .resize n byHandle, w => teadfsSetattr env proc dentry (sizeChange n byHandle) w

/-- What the lower file system hands over for the page the operation fills. -/
def fetched (env : Env) : DecryptedOp → World → List UInt8
  | .readpage index, w => lowerBytes env index w
  | .write pos _ _, w => lowerBytes env (pos / pageCacheSize) w.tick
  | .resize _ _, _ => []

/-- If an upcall fails, the operation reports an error, no page of the decrypted mapping
becomes Uptodate with bytes that were fetched and not decrypted, and nothing goes down
that the write callback did not produce. -/
def FailsClosed (env : Env) (proc : Nat) (dentry : Dentry) (file : FileInfo) (op : DecryptedOp)
    (w : World) : Prop :=
  let r := op.run env proc dentry file w
  Failed (newEvents w r.2) →
    r.1 < 0 ∧
      (∀ index, (w.page .decrypted index).uptodate = false →
        (r.2.page .decrypted index).uptodate = true →
        ∃ packet rc block, .upcall .read packet rc block ∈ newEvents w r.2 ∧
          (op.fetched env w).length ≤ block.length) ∧
      Produced (newEvents w r.2)

/-- If an upcall fails: no verdict lets bytes down as they are, every read upcall gave
back as much as was fetched, and a write upcall failed or a verdict was `OFR_ENCRYPT`. -/
def Contained (env : Env) (proc : Nat) (dentry : Dentry) (file : FileInfo) (op : DecryptedOp)
    (w : World) : Prop :=
  let events := newEvents w (op.run env proc dentry file w).2
  Failed events →
    Verdicts events ∧
      (∀ packet rc block, .upcall .read packet rc block ∈ events →
        (op.fetched env w).length ≤ block.length) ∧
      Stopped events

variable {env : Env} {proc : Nat} {dentry : Dentry} {file : FileInfo}

theorem not_failed_nil : ¬ Failed [] := by
  rintro ⟨_, _, _, _, member, -⟩
  simp at member

theorem readpage_closed_iff (decrypt : file.access = .decrypt) (index : Nat) (w : World) :
    (readpage index).FailsClosed env proc dentry file w ↔
      (readpage index).Contained env proc dentry file w := by
  simp only [FailsClosed, Contained, run, teadfsReadpage]
  rcases fillPage_cases decrypt env proc index w with
    ⟨-, log⟩ | ⟨success, packet, rc, block, log, -⟩
  · rw [newEvents_append [] (by rw [log, List.append_nil])]
    exact ⟨fun _ failed => absurd failed not_failed_nil,
      fun _ failed => absurd failed not_failed_nil⟩
  · rw [newEvents_append _ log, success]
    refine ⟨fun closed failed => absurd (closed failed).1 (Int.lt_irrefl 0), ?_⟩
    intro contained failed
    rcases (contained failed).2.2 with ⟨_, _, _, member, -⟩ | ⟨_, _, _, member, -⟩
    · simp at member
    · simp at member

theorem resize_closed (n : Nat) (byHandle : Bool) (w : World) :
    ((resize n byHandle).Contained env proc dentry file w →
        (resize n byHandle).FailsClosed env proc dentry file w) ∧
      (Obliging env → (resize n byHandle).FailsClosed env proc dentry file w →
        (resize n byHandle).Contained env proc dentry file w) := by
  simp only [FailsClosed, Contained, run]
  rcases teadfsSetattr_cases env proc dentry n byHandle w with ⟨errno, refused⟩ | ran
  · rw [refused, newEvents_append [] (by simp)]
    exact ⟨fun _ failed => absurd failed not_failed_nil,
      fun _ _ failed => absurd failed not_failed_nil⟩
  obtain ⟨same, events, log, course⟩ : Ran (Obliging env) w.tick
      ((truncateUpper env proc dentry (sizeChange n byHandle) (sizeChange n byHandle) w.tick).1,
        (truncateUpper env proc dentry (sizeChange n byHandle) (sizeChange n byHandle)
          w.tick).2.2) :=
    truncateUpper_ran id proc dentry (sizeChange n byHandle) (sizeChange n byHandle) w.tick
  -- `notify_change` logs nothing, and an error of `truncate_upper` is passed on
  obtain ⟨passes, log', same'⟩ :
      ((truncateUpper env proc dentry (sizeChange n byHandle) (sizeChange n byHandle) w.tick).1 < 0 →
        (teadfsSetattr env proc dentry (sizeChange n byHandle) w).1 < 0) ∧
      (teadfsSetattr env proc dentry (sizeChange n byHandle) w).2.chan.log = w.chan.log ++ events ∧
      SameUptodate w (teadfsSetattr env proc dentry (sizeChange n byHandle) w).2 := by
    rw [ran]
    dsimp only
    split_ifs with negative
    · exact ⟨fun _ => negative, log, same⟩
    · refine ⟨fun negative' => absurd negative' negative, ?_, ?_⟩
      · rcases notifyChange_cases env _ _ with ⟨errno, failed⟩ | done
        · rw [failed]
          exact log
        · rw [done]
          exact log
      · rcases notifyChange_cases env _ _ with ⟨errno, failed⟩ | done
        · rw [failed]
          exact same
        · rw [done]
          exact same
  rw [newEvents_append events log']
  constructor
  · intro contained failed
    obtain ⟨verdicts, -, stopped⟩ := contained failed
    refine ⟨passes (course.stops stopped), ?_, course.produced verdicts⟩
    intro index before after
    rw [same' index, before] at after
    cases after
  · intro obliging closed failed
    obtain ⟨-, -, produced⟩ := closed failed
    have verdicts : Verdicts events := by
      by_contra raw
      exact (course.bare obliging raw).not_produced produced
    refine ⟨verdicts, fun packet rc block member => Nat.zero_le _, ?_⟩
    -- a failed open upcall lets bytes down, so it was a write upcall
    obtain ⟨type, packet, rc, block, member, negative⟩ := failed
    rcases course.kinds type packet rc block member with rfl | rfl
    · have code : rc = 4 ∨ rc = 3 := by
        rcases verdicts packet rc block member with verdict | verdict
        · exact .inl (OpenFileResult.ofCode_eq_decrypt.mp verdict)
        · exact .inr (OpenFileResult.ofCode_eq_encrypt.mp verdict)
      omega
    · exact .inl ⟨packet, rc, block, member, negative⟩

theorem write_closed (decrypt : file.access = .decrypt) (pos : Nat) (data : List UInt8)
    (copied : Nat) (w : World) :
    ((write pos data copied).Contained env proc dentry file w →
        (write pos data copied).FailsClosed env proc dentry file w) ∧
      (Obliging env → file.lowerFile.isSome →
        (write pos data copied).FailsClosed env proc dentry file w →
        (write pos data copied).Contained env proc dentry file w) := by
  simp only [FailsClosed, Contained, run]
  have left : Obliging env ∧ file.lowerFile.isSome → Obliging env := And.left
  rcases writeChunk_cases left decrypt And.right proc dentry pos data copied w with
    log | ⟨w₁, ⟨same, rest, log, course⟩, before⟩
  · rw [newEvents_append [] (by rw [log, List.append_nil])]
    exact ⟨fun _ failed => absurd failed not_failed_nil,
      fun _ _ _ failed => absurd failed not_failed_nil⟩
  rcases before with ⟨same₁, log₁⟩ | ⟨cold, warm, packet, rc, block, log₁⟩
  · -- the page was there
    rw [newEvents_append rest (by rw [log, log₁])]
    have reads : ∀ event ∈ ([] : List Event),
        ∃ packet rc block, event = .upcall .read packet rc block := by
      simp
    obtain ⟨stops, verdicts, cause⟩ := course.behind reads
    rw [List.nil_append] at stops verdicts cause
    constructor
    · intro contained failed
      obtain ⟨judged, -, stopped⟩ := contained failed
      obtain ⟨negative, produced⟩ := stops judged stopped
      refine ⟨negative, fun index before after => ?_, produced⟩
      rw [same index, same₁ index, before] at after
      cases after
    · intro obliging isOpen closed failed
      obtain ⟨negative, -, produced⟩ := closed failed
      refine ⟨verdicts ⟨obliging, isOpen⟩ produced, fun packet rc block member => ?_,
        cause ⟨obliging, isOpen⟩ negative⟩
      rcases course.kinds _ _ _ _ member with wrong | wrong <;> cases wrong
  · -- the page was filled first, with one read upcall
    rw [newEvents_append ([.upcall .read packet rc block] ++ rest)
      (by rw [log, log₁, List.append_assoc])]
    have reads : ∀ event ∈ [Event.upcall .read packet rc block],
        ∃ packet rc block, event = .upcall .read packet rc block := by
      simp
    obtain ⟨stops, verdicts, cause⟩ := course.behind reads
    have only : ∀ packet' rc' block', .upcall .read packet' rc' block' ∈
        [Event.upcall .read packet rc block] ++ rest → block' = block := by
      intro packet' rc' block' member
      rcases List.mem_append.mp member with member | member
      · obtain ⟨-, -, rfl⟩ : _ ∧ _ ∧ _ := by simpa using member
        rfl
      · rcases course.kinds _ _ _ _ member with wrong | wrong <;> cases wrong
    constructor
    · intro contained failed
      obtain ⟨judged, covered, stopped⟩ := contained failed
      obtain ⟨negative, produced⟩ := stops judged stopped
      exact ⟨negative, fun index _ _ => ⟨packet, rc, block, by simp,
        covered packet rc block (by simp)⟩, produced⟩
    · intro obliging isOpen closed failed
      obtain ⟨negative, covered, produced⟩ := closed failed
      refine ⟨verdicts ⟨obliging, isOpen⟩ produced, fun packet' rc' block' member => ?_,
        cause ⟨obliging, isOpen⟩ negative⟩
      obtain ⟨packet'', rc'', block'', member', enough⟩ := covered (pos / pageCacheSize) cold
        (by rw [same, warm])
      rw [only _ _ _ member]
      rw [only _ _ _ member'] at enough
      exact enough

/-- **Failed upcalls are contained or they are not reported.** For every `OFR_DECRYPT`
handle, each of the three operations and every environment: an operation whose failed
upcalls are `Contained` fails closed; and where the lower file system and the allocator
do all that they are asked for, only such an operation does. -/
theorem fails_closed_of_contained (decrypt : file.access = .decrypt) (op : DecryptedOp) (w : World) :
    (op.Contained env proc dentry file w → op.FailsClosed env proc dentry file w) ∧
      (Obliging env → file.lowerFile.isSome → op.FailsClosed env proc dentry file w →
        op.Contained env proc dentry file w) := by
  cases op with
  | readpage index =>
      have closed : (readpage index).FailsClosed env proc dentry file w ↔
          (readpage index).Contained env proc dentry file w :=
        readpage_closed_iff decrypt index w
      exact ⟨closed.mpr, fun _ _ => closed.mp⟩
  | write pos data copied => exact write_closed decrypt pos data copied w
  | resize n byHandle =>
      obtain ⟨enough, needed⟩ := resize_closed n byHandle w
      exact ⟨enough, fun obliging _ => needed obliging⟩

end DecryptedOp

/-- The client has gone. -/
def abandonedWorld (lower : List UInt8) : World :=
  { freshWorld lower with chan.glob.connect := false }

set_option maxRecDepth 4000 in
/-- The first byte of an empty labelled file, with no client: both upcalls fail, nothing
had been fetched, and the write reports an error and stores nothing. -/
theorem abandoned_write_fails_closed :
    Failed (newEvents (abandonedWorld shippedLabel)
        ((DecryptedOp.write 0 [1] 1).run (clientEnv (xorCb .decrypt)) 7 exampleDentry
          (exampleFile .decrypt) (abandonedWorld shippedLabel)).2) ∧
      (DecryptedOp.write 0 [1] 1).FailsClosed (clientEnv (xorCb .decrypt)) 7 exampleDentry
        (exampleFile .decrypt) (abandonedWorld shippedLabel) := by
  have events : newEvents (abandonedWorld shippedLabel)
      ((DecryptedOp.write 0 [1] 1).run (clientEnv (xorCb .decrypt)) 7 exampleDentry
        (exampleFile .decrypt) (abandonedWorld shippedLabel)).2 =
      [.upcall .read none enomem [], .upcall .write none enomem []] := by
    rfl
  have negative : enomem < 0 := by decide
  refine ⟨?_, (DecryptedOp.fails_closed_of_contained rfl _ _).1 ?_⟩
  · rw [events]
    exact ⟨.read, none, enomem, [], by simp, negative⟩
  · simp only [DecryptedOp.Contained, events]
    intro _
    refine ⟨by simp [Verdicts], fun _ _ _ _ => ?_, .inl ⟨none, enomem, [], by simp, negative⟩⟩
    have nothing : (DecryptedOp.write 0 [1] 1).fetched (clientEnv (xorCb .decrypt))
        (abandonedWorld shippedLabel) = [] := by
      decide +kernel
    rw [nothing]
    exact Nat.zero_le _

/-- A page of a labelled file, with no client: the page is Uptodate with the lower byte
in it, and the read reports success. -/
theorem abandoned_readpage_keeps_raw :
    ¬ (DecryptedOp.readpage 0).FailsClosed (clientEnv (xorCb .decrypt)) 7 exampleDentry
      (exampleFile .decrypt) (abandonedWorld (shippedLabel ++ [0x12])) := by
  intro closed
  have events : newEvents (abandonedWorld (shippedLabel ++ [0x12]))
      ((DecryptedOp.readpage 0).run (clientEnv (xorCb .decrypt)) 7 exampleDentry
        (exampleFile .decrypt) (abandonedWorld (shippedLabel ++ [0x12]))).2 =
      [.upcall .read none enomem []] := by
    rfl
  have success : ((DecryptedOp.readpage 0).run (clientEnv (xorCb .decrypt)) 7 exampleDentry
      (exampleFile .decrypt) (abandonedWorld (shippedLabel ++ [0x12]))).1 = 0 := by
    decide +kernel
  have failed : Failed [.upcall .read none enomem []] :=
    ⟨.read, none, enomem, [], by simp, by decide⟩
  have negative := (closed (events ▸ failed)).1
  rw [success] at negative
  exact absurd negative (Int.lt_irrefl 0)

end Teadfs
