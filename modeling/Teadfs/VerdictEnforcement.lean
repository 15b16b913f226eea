/-
# Teadfs.VerdictEnforcement — which verdicts keep a process from changing a file

The client gives each process a verdict for each file. `OFR_PROHIBIT` is looked at by
`teadfs_open` only, `OFR_ENCRYPT` by `teadfs_write_lower` only. A handle's access is the
verdict of the process that opened it (`Enforced`), so neither kind of process can write
through a handle of its own. But a write never looks at who makes it: through a descriptor
that was inherited or passed on, every process writes as the one that opened it. And a size
change needs no handle: cutting goes straight to the lower `notify_change`, and growing asks
for a verdict afresh but writes under `OFR_PROHIBIT` as it would under `OFR_INIT`. `SizeKept`
and `WriteKept` are what has to hold of a size change and of a write through another's handle;
every other operation of such a process leaves the lower files as they are.
-/
import Teadfs.Lib.Simulation
import Teadfs.Mount

namespace Teadfs

set_option autoImplicit false

open Protocol Relation

theorem notifyChange_untouched (env : Env) {ia : Iattr} (noSize : ia.attrSize = false) (w : World) :
    Untouched w (notifyChange env ia w).2 :=
  ⟨notifyChange_steady env ia w, by rw [notifyChange_inode env noSize]⟩

/-- A size change to the size the file has. -/
theorem teadfsSetattr_untouched_of_eq (env : Env) (proc : Nat) (dentry : Dentry) {n : Nat}
    (byHandle : Bool) {w : World} (same : n = w.inode.iSize) :
    Untouched w (teadfsSetattr env proc dentry (sizeChange n byHandle) w).2 := by
  rcases teadfsSetattr_cases env proc dentry n byHandle w with ⟨errno, refused⟩ | ran
  · rw [refused]
    exact ⟨⟨rfl, rfl, rfl⟩, rfl⟩
  · have upper : truncateUpper env proc dentry (sizeChange n byHandle) (sizeChange n byHandle)
        w.tick = (0, { sizeChange n byHandle with attrSize := false }, w.tick) := by
      rw [truncateUpper, if_pos (by exact same)]
    rw [ran, upper]
    exact notifyChange_untouched env rfl w.tick

/-! ## A process with the verdict `OFR_ENCRYPT` -/

section Encrypt

variable {env : Env} {proc : Nat} {dentry : Dentry}
  (verdict : ∀ w, Connected proc w →
    OpenFileResult.ofCode (teadfsRequestOpenPath env proc dentry w).1 = .encrypt)

include verdict

theorem teadfsWrite_untouched {w : World} (connected : Connected proc w) (data : List UInt8)
    (offset : Nat) : Untouched w (teadfsWrite env proc dentry data offset w).2 := by
  refine ⟨teadfsWrite_steady env proc dentry data offset w, ?_⟩
  rcases teadfsWrite_cases env proc dentry data offset w with
    ⟨errno, -, failed⟩ | ⟨ref, w', -, inode, -, -, written⟩
  · rw [failed]
    simp
  · have encrypt : (⟨some ref, .ofCode (teadfsRequestOpenPath env proc dentry w).1, [], false⟩ :
        FileInfo).access = .encrypt := verdict w connected
    obtain ⟨rc, kept⟩ := teadfsWriteLower_encrypt env proc encrypt data (min w.inode.iSize offset) w'
    have negative : eio < 0 := by decide
    rw [written]
    simp only [rc, negative, if_true, kept, inode]

theorem truncateLoop_untouched (iaSize total fuel truncatePos : Nat) {w : World}
    (connected : Connected proc w) :
    Untouched w (truncateLoop env proc dentry iaSize total fuel truncatePos w).2 := by
  induction fuel generalizing truncatePos w with
  | zero => exact .refl w
  | succ fuel ih =>
      have writes := teadfsWrite_untouched verdict connected
        (List.replicate (min (total - truncatePos) pageCacheSize) 0) (iaSize + truncatePos)
      simp only [truncateLoop]
      split_ifs
      · exact writes
      · exact writes.trans (ih _ (writes.1.connected connected))
      · exact .refl w

/-- Growing the upper file writes nothing, and asks for no cut of the lower one. -/
theorem truncateUpper_untouched (ia lowerIa : Iattr) {w : World}
    (connected : Connected proc w) (grows : w.inode.iSize ≤ ia.iaSize) :
    Untouched w (truncateUpper env proc dentry ia lowerIa w).2.2 ∧
      (truncateUpper env proc dentry ia lowerIa w).2.1.attrSize = false := by
  have ticked : Connected proc w.tick := connected
  rcases truncateUpper_cases env proc dentry ia lowerIa w with
    ⟨-, t⟩ | ⟨-, -, t⟩ | ⟨-, t⟩ | ⟨shrinks, -⟩
  · rw [t]
    exact ⟨.refl w, rfl⟩
  · rw [t]
    exact ⟨⟨⟨rfl, rfl, rfl⟩, rfl⟩, rfl⟩
  · rw [t]
    exact ⟨truncateLoop_untouched verdict _ _ _ 0 ticked, rfl⟩
  · exact absurd grows (Nat.not_le.mpr shrinks)

theorem teadfsTruncate_untouched {n : Nat} {w : World} (connected : Connected proc w)
    (grows : w.inode.iSize ≤ n) : Untouched w (teadfsTruncate env proc dentry n w).2 := by
  obtain ⟨upper, noSize⟩ := truncateUpper_untouched verdict
    ⟨true, n, false, false, false, false⟩ ⟨false, 0, false, false, false, false⟩
    connected grows
  simp only [teadfsTruncate, noSize, Bool.false_eq_true, and_false, if_false]
  exact upper

theorem teadfsSetattr_untouched {n : Nat} {byHandle : Bool} {w : World}
    (connected : Connected proc w) (grows : w.inode.iSize ≤ n) :
    Untouched w (teadfsSetattr env proc dentry (sizeChange n byHandle) w).2 := by
  have ticked : Connected proc w.tick := connected
  obtain ⟨upper, noSize⟩ := truncateUpper_untouched verdict (sizeChange n byHandle)
    (sizeChange n byHandle) ticked grows
  rcases teadfsSetattr_cases env proc dentry n byHandle w with ⟨errno, refused⟩ | ran
  · rw [refused]
    exact ⟨⟨rfl, rfl, rfl⟩, rfl⟩
  · rw [ran]
    dsimp only
    split_ifs
    · exact upper
    · exact upper.trans (notifyChange_untouched env noSize _)

theorem treadfsWriteBegin_untouched (file : FileInfo) (pos : Nat) {w : World}
    (connected : Connected proc w) :
    Untouched w (treadfsWriteBegin env proc dentry file pos w).2 := by
  have filled := pageForWrite_untouched env proc file (pos / pageCacheSize) w
  rcases treadfsWriteBegin_cases env proc dentry file pos w with
    noPage | ⟨-, stopped⟩ | ⟨-, grown, grow, ending⟩
  · rw [noPage]
    exact ⟨⟨rfl, rfl, rfl⟩, rfl⟩
  · rw [stopped]
    exact filled
  · have grows : Untouched w grown.2 := by
      rcases grow with ⟨hole, rfl⟩ | ⟨-, rfl⟩
      · exact filled.trans
          (teadfsTruncate_untouched verdict (filled.1.connected connected) hole.le)
      · exact filled
    rcases ending with ⟨-, stopped⟩ | ⟨-, frame, done⟩
    · rw [stopped]
      exact grows
    · rw [done]
      exact grows

end Encrypt

/-! ## The mount -/

/-- A client that answers, with one verdict for each process and file, whichever of its
two paths the file is asked about under. -/
structure Policy (env : Env) (cb : DealCb) (names : Nat → Dentry)
    (verdict : Nat → Nat → OpenFileResult) : Prop where
  answers : Answers env cb
  onOpen : ∀ id p f, cb.onOpen id p (names f).path = (verdict p f).code
  onPath : ∀ p f, cb.onOpen 0 p (names f).lowerPath = (verdict p f).code
  named : ∀ p f code, verdict p f ≠ .other code

/-- The client is connected, the files are regular, and the access of a handle is the
verdict of the process that opened it. -/
structure Enforced (verdict : Nat → Nat → OpenFileResult) (client : Nat) (m : Mount) : Prop where
  connect : m.chan.glob.connect = true
  pid : m.chan.glob.pid = client
  isReg : ∀ f, (m.files f).isReg = true
  access : ∀ id h, m.handles id = some h → h.proc ≠ client →
    h.info.access = verdict h.proc h.file ∧ h.info.access ≠ .prohibit

/-- The verdict denies changes. -/
def Restricted (verdict : OpenFileResult) : Prop := verdict = .prohibit ∨ verdict = .encrypt

/-- A size change that does not reach the lower file: under `OFR_ENCRYPT` it does not
cut, under `OFR_PROHIBIT` it asks for the size the file has. -/
def SizeKept (verdict : OpenFileResult) (iSize n : Nat) : Prop :=
  (verdict = .encrypt → iSize ≤ n) ∧ (verdict = .prohibit → n = iSize)

/-- A write that does not reach the lower file, through a handle that another process opened:
the handle has the access `OFR_ENCRYPT`, and no extension is made under `OFR_PROHIBIT`. -/
def WriteKept (verdict access : OpenFileResult) (iSize pos : Nat) : Prop :=
  access = .encrypt ∧ (verdict = .prohibit → pos / pageCacheSize * pageCacheSize ≤ iSize)

/-- Every size change by a process other than the client is `SizeKept`; and what it writes
under a verdict that denies changes, it writes through a handle that it opened itself, or the
write is `WriteKept`. -/
def Respects (verdict : Nat → Nat → OpenFileResult) (client : Nat) (m : Mount) : MountOp → Prop
  | .write p id pos data => ∀ h, m.handles id = some h → p ≠ client → data ≠ [] →
      Restricted (verdict p h.file) → h.proc = p ∨
        WriteKept (verdict p h.file) h.info.access (m.files h.file).iSize
          (writePos h.info pos (m.world h.file))
  | .truncate p f n => p ≠ client → SizeKept (verdict p f) (m.files f).iSize n
  | .ftruncate p id n => ∀ h, m.handles id = some h → p ≠ client →
      SizeKept (verdict p h.file) (m.files h.file).iSize n
  | _ => True

section Mount

variable {env : Env} {cb : DealCb} {names : Nat → Dentry}
  {verdict : Nat → Nat → OpenFileResult} {client : Nat} {m : Mount}

theorem Policy.code_bounds (policy : Policy env cb names verdict) (p f : Nat) :
    -(2 ^ 31) ≤ (verdict p f).code ∧ (verdict p f).code < 2 ^ 31 ∧
      OpenFileResult.ofCode (verdict p f).code = verdict p f := by
  cases given : verdict p f with
  | other code => exact absurd given (policy.named p f code)
  | _ => decide

/-- A verdict asked for afresh is the process's verdict. -/
theorem Policy.requestOpenPath (policy : Policy env cb names verdict) {p f : Nat} {w : World}
    (connected : Connected p w) :
    OpenFileResult.ofCode (teadfsRequestOpenPath env p (names f) w).1 = verdict p f := by
  obtain ⟨low, high, back⟩ := policy.code_bounds p f
  rw [teadfsRequestOpenPath_answered policy.answers connected (policy.onPath p f) low high, back]

/-- So is the verdict of an open. -/
theorem Policy.openVerdict (policy : Policy env cb names verdict) {p f id : Nat} {w : World}
    (connected : Connected p w) (isReg : w.inode.isReg = true) :
    (openVerdict env p (names f) id w).1 = verdict p f := by
  obtain ⟨low, high, back⟩ := policy.code_bounds p f
  have ticked : Connected p ({ w.tick with inode.fileDecrypt := false } : World).tick := connected
  have code := teadfsRequestOpen_answered policy.answers ticked (policy.onOpen id p f) low high
  have positive : ¬ (verdict p f).code < 0 := by
    cases given : verdict p f with
    | other code => exact absurd given (policy.named p f code)
    | _ => decide
  simp only [Teadfs.openVerdict, isReg, if_true, teadfsRequestOpenFile, policy.answers.pathAlloc,
    Bool.true_eq_false, if_false, code, positive, back]

theorem Enforced.connected (enforced : Enforced verdict client m) {p : Nat} (other : p ≠ client)
    (f : Nat) : Connected p (m.world f) :=
  ⟨enforced.connect, fun self => other (self.trans enforced.pid)⟩

theorem teadfsOpen_access {p f id : Nat} {flags : OpenFlags} {w w' : World} {info : FileInfo}
    (opened : teadfsOpen env p (names f) flags id w = (.ok info, w')) :
    info.access = (openVerdict env p (names f) id w).1 ∧ info.access ≠ .prohibit := by
  rw [teadfsOpen_eq] at opened
  split_ifs at opened with noMemory prohibited
  · cases opened
  · cases opened
  · split at opened
    · cases opened
    · cases opened
      exact ⟨rfl, prohibited⟩

/-! ### What an operation on one file does to the mount -/

theorem Enforced.put (enforced : Enforced verdict client m) {f : Nat} {w : World}
    (steady : Steady (m.world f) w) : Enforced verdict client (m.put f w) where
  connect := steady.1.trans enforced.connect
  pid := steady.2.1.trans enforced.pid
  isReg := by
    intro g
    by_cases same : g = f
    · subst same
      rw [Mount.put_files_self, steady.2.2]
      exact enforced.isReg g
    · rw [Mount.put_files_of_ne m same]
      exact enforced.isReg g
  access := enforced.access

theorem Enforced.setHandle (enforced : Enforced verdict client m) (id : Nat) {slot : Option Handle}
    (access : ∀ h, slot = some h → h.proc ≠ client →
      h.info.access = verdict h.proc h.file ∧ h.info.access ≠ .prohibit) :
    Enforced verdict client { m with handles := Function.update m.handles id slot } where
  connect := enforced.connect
  pid := enforced.pid
  isReg := enforced.isReg
  access := by
    intro id' h held other
    dsimp only at held
    by_cases here : id' = id
    · rw [here, Function.update_self] at held
      exact access h held other
    · rw [Function.update_of_ne here] at held
      exact enforced.access id' h held other

theorem Mount.put_lower_of_ne {f g : Nat} (other : g ≠ f) (w : World) :
    ((m.put f w).files g).lower = (m.files g).lower := by
  rw [Mount.put_files_of_ne m other]

theorem Mount.put_lower {f : Nat} {w : World} (untouched : Untouched (m.world f) w) (g : Nat) :
    ((m.put f w).files g).lower = (m.files g).lower := by
  by_cases same : g = f
  · subst same
    rw [Mount.put_files_self]
    exact untouched.2
  · exact Mount.put_lower_of_ne same w

/-- Every operation, of whoever, keeps accesses and verdicts together. -/
theorem run_enforced (policy : Policy env cb names verdict) (enforced : Enforced verdict client m)
    (op : MountOp) : Enforced verdict client (op.run env names m) := by
  cases op with
  | «open» p f flags id =>
      have steady := (teadfsOpen_untouched env p (names f) id (m.world f) flags).1
      simp only [MountOp.run]
      split
      · exact enforced
      · split <;> rename_i answer <;> rw [answer] at steady
        · exact enforced.put steady
        · obtain ⟨access, allowed⟩ := teadfsOpen_access answer
          refine (enforced.put steady).setHandle id ?_
          rintro h ⟨⟩ other
          refine ⟨?_, allowed⟩
          rw [access]
          exact policy.openVerdict (enforced.connected other f) (enforced.isReg f)
  | write p id pos data =>
      simp only [MountOp.run]
      split
      · exact enforced
      · exact enforced.put (teadfsAioWrite_steady ..)
  | truncate p f n => exact enforced.put (teadfsSetattr_steady ..)
  | ftruncate p id n =>
      simp only [MountOp.run]
      split
      · exact enforced
      · exact enforced.put (teadfsSetattr_steady ..)
  | close p id =>
      simp only [MountOp.run]
      split
      · exact enforced
      · refine (enforced.put (teadfsRelease_untouched ..).1).setHandle id ?_
        rintro h ⟨⟩

/-- A write through an `OFR_ENCRYPT` handle leaves the lower file alone, if it makes no extension
that is not refused. -/
theorem encryptWrite_untouched (policy : Policy env cb names verdict)
    (enforced : Enforced verdict client m) {p f pos : Nat} (other : p ≠ client)
    (restricted : Restricted (verdict p f)) {info : FileInfo} {data : List UInt8}
    (kept : data ≠ [] →
      WriteKept (verdict p f) info.access (m.files f).iSize (writePos info pos (m.world f))) :
    Untouched (m.world f) (teadfsAioWrite env p (names f) info pos data (m.world f)).2 := by
  by_cases block : data = []
  · subst block
    simp only [teadfsAioWrite, List.length_nil, genericPerformWrite]
    split
    · exact ⟨⟨rfl, rfl, rfl⟩, rfl⟩
    · exact .refl _
  obtain ⟨encrypt, inside⟩ := kept block
  refine teadfsAioWrite_encrypt env p (names f) encrypt pos fun _ => ?_
  rcases restricted with prohibit | denied
  · exact treadfsWriteBegin_untouched_inside env p (names f) info (inside prohibit)
  · refine treadfsWriteBegin_untouched ?_ info _ (enforced.connected other f)
    intro w connected
    rw [policy.requestOpenPath connected, denied]

/-- A size change that is kept leaves the lower file of a restricted process alone. -/
theorem sizeKept_untouched (policy : Policy env cb names verdict)
    (enforced : Enforced verdict client m) {p f n : Nat} {byHandle : Bool} (other : p ≠ client)
    (restricted : Restricted (verdict p f)) (kept : SizeKept (verdict p f) (m.files f).iSize n) :
    Untouched (m.world f)
      (teadfsSetattr env p (names f) (sizeChange n byHandle) (m.world f)).2 := by
  rcases restricted with prohibit | encrypt
  · exact teadfsSetattr_untouched_of_eq env p (names f) byHandle (kept.2 prohibit)
  · refine teadfsSetattr_untouched ?_ (enforced.connected other f) (kept.1 encrypt)
    intro w connected
    rw [policy.requestOpenPath connected, encrypt]

/-- An operation of a restricted process leaves the lower file as it was. -/
theorem run_restricted (policy : Policy env cb names verdict) (enforced : Enforced verdict client m)
    (op : MountOp) (respects : Respects verdict client m op) (other : op.proc ≠ client) {f : Nat}
    (restricted : Restricted (verdict op.proc f)) :
    ((op.run env names m).files f).lower = (m.files f).lower := by
  cases op with
  | «open» p g flags id =>
      have untouched := teadfsOpen_untouched env p (names g) id (m.world g) flags
      simp only [MountOp.run]
      split
      · rfl
      · split <;> rename_i answer <;> rw [answer] at untouched
        · exact Mount.put_lower untouched f
        · exact Mount.put_lower untouched f
  | write p id pos data =>
      simp only [MountOp.run]
      split
      · rfl
      · rename_i h held
        by_cases here : f = h.file
        · subst here
          refine Mount.put_lower (encryptWrite_untouched policy enforced other restricted ?_) _
          intro block
          rcases respects h held other block restricted with mine | kept
          · -- its own handle: what it opened under its verdict refuses writes
            obtain ⟨access, allowed⟩ := enforced.access id h held (by rw [mine]; exact other)
            rw [mine] at access
            rcases restricted with prohibit | encrypt
            · exact absurd (access.trans prohibit) allowed
            · refine ⟨access.trans encrypt, fun prohibit => ?_⟩
              exact absurd (encrypt.symm.trans prohibit) (by decide)
          · exact kept
        · exact Mount.put_lower_of_ne here _
  | truncate p g n =>
      by_cases here : f = g
      · subst here
        exact Mount.put_lower (sizeKept_untouched policy enforced other restricted
          (respects other)) f
      · exact Mount.put_lower_of_ne here _
  | ftruncate p id n =>
      simp only [MountOp.run]
      split
      · rfl
      · rename_i h held
        by_cases here : f = h.file
        · subst here
          exact Mount.put_lower (sizeKept_untouched policy enforced other restricted
            (respects h held other)) h.file
        · exact Mount.put_lower_of_ne here _
  | close p id =>
      simp only [MountOp.run]
      split
      · rfl
      · rename_i h held
        exact Mount.put_lower
          (teadfsRelease_untouched env p (names h.file) h.info id (m.world h.file)) f

/-- **Verdicts are enforced where the operation respects them.** In every run from a mount with
no open handles, with the client connected and answering, an operation of a process other than
the client that respects the conditions on size changes and on the handles of others leaves
every lower file for which the process has the verdict `OFR_PROHIBIT` or `OFR_ENCRYPT` exactly
as it was. -/
theorem restricted_process_changes_nothing {start : Mount}
    (policy : Policy env cb names verdict) (connect : start.chan.glob.connect = true)
    (regular : ∀ f, (start.files f).isReg = true) (noHandles : ∀ id, start.handles id = none)
    (run : ReflTransGen (fun m m' => ∃ op, m' = MountOp.run env names op m) start m)
    (op : MountOp) (respects : Respects verdict start.chan.glob.pid m op)
    (other : op.proc ≠ start.chan.glob.pid) {f : Nat}
    (restricted : Restricted (verdict op.proc f)) :
    ((op.run env names m).files f).lower = (m.files f).lower := by
  have begins : Enforced verdict start.chan.glob.pid start := by
    refine ⟨connect, rfl, regular, ?_⟩
    intro id h held
    rw [noHandles id] at held
    cases held
  have enforced := Simulation.invariant (P := Enforced verdict start.chan.glob.pid)
    (by rintro m _ ⟨op, rfl⟩ enforced; exact run_enforced policy enforced op) run begins
  exact run_restricted policy enforced op respects other restricted

end Mount

/-- A mount of one three-byte file over and over, with no handles. -/
def exampleMount : Mount where
  files := fun _ => (freshWorld [1, 2, 3]).inode
  handles := fun _ => none
  chan := (freshWorld []).chan

theorem xorCb_policy (verdict : OpenFileResult) (named : ∀ code, verdict ≠ .other code) :
    Policy (clientEnv (xorCb verdict)) (xorCb verdict) (fun _ => exampleDentry)
      fun _ _ => verdict :=
  ⟨clientEnv_answers _, fun _ _ _ => rfl, fun _ _ => rfl, fun _ _ => named⟩

/-- The mount after process 7 has opened a file, for a client that lets everyone read it
decrypted, and no one write. -/
def encryptMount : Mount :=
  (MountOp.open 7 0 ⟨.rdwr, false⟩ 0).run (clientEnv (xorCb .encrypt)) (fun _ => exampleDentry)
    exampleMount

/-- A process with the verdict `OFR_ENCRYPT` opens the file; it writes to it, and so does
another such process, through the descriptor of the first. -/
theorem encrypt_writes_change_nothing :
    (((MountOp.write 7 0 0 [9]).run (clientEnv (xorCb .encrypt)) (fun _ => exampleDentry)
        encryptMount).files 0).lower = (encryptMount.files 0).lower ∧
      (((MountOp.write 8 0 0 [9]).run (clientEnv (xorCb .encrypt)) (fun _ => exampleDentry)
        encryptMount).files 0).lower = (encryptMount.files 0).lower := by
  have handle : (encryptMount.handles 0).map (fun h => (h.proc, h.info.access)) =
      some (7, .encrypt) := by
    decide +kernel
  have held : ∀ h, encryptMount.handles 0 = some h → h.proc = 7 ∧ h.info.access = .encrypt := by
    intro h held
    rw [held] at handle
    exact Prod.mk.inj (Option.some.inj handle)
  have policy := xorCb_policy .encrypt fun _ => by simp
  constructor
  · exact restricted_process_changes_nothing policy (rfl : exampleMount.chan.glob.connect = true)
      (fun _ => rfl) (fun _ => rfl) (.single ⟨.open 7 0 ⟨.rdwr, false⟩ 0, rfl⟩) (.write 7 0 0 [9])
      (fun h mine _ _ _ => .inl (held h mine).1) (by decide) (.inr rfl)
  · exact restricted_process_changes_nothing policy (rfl : exampleMount.chan.glob.connect = true)
      (fun _ => rfl) (fun _ => rfl) (.single ⟨.open 7 0 ⟨.rdwr, false⟩ 0, rfl⟩) (.write 8 0 0 [9])
      (fun h given _ _ _ => .inr ⟨(held h given).2, fun prohibit => (by cases prohibit)⟩)
      (by decide) (.inr rfl)

/-- A client that lets process 7 do anything, and prohibits everyone else. -/
def onlySeven : DealCb :=
  cipherCb xorCipher
    (fun _ p _ => if p = 7 then OpenFileResult.init.code else OpenFileResult.prohibit.code)
    fun _ _ _ => 1

/-- A process with the verdict `OFR_PROHIBIT` cuts the file by its path. Another writes to it,
through a descriptor of a process that has the verdict `OFR_INIT`. -/
theorem prohibited_processes_change_file :
    (Restricted ((fun _ _ => .prohibit : Nat → Nat → OpenFileResult) 7 0) ∧
      7 ≠ exampleMount.chan.glob.pid ∧
      (((MountOp.truncate 7 0 0).run (clientEnv (xorCb .prohibit)) (fun _ => exampleDentry)
        exampleMount).files 0).lower ≠ (exampleMount.files 0).lower) ∧
      onlySeven.onOpen 0 8 exampleDentry.lowerPath = OpenFileResult.prohibit.code ∧
      8 ≠ exampleMount.chan.glob.pid ∧
      (((MountOp.write 8 0 0 [9]).run (clientEnv onlySeven) (fun _ => exampleDentry)
        ((MountOp.open 7 0 ⟨.rdwr, false⟩ 0).run (clientEnv onlySeven) (fun _ => exampleDentry)
          exampleMount)).files 0).lower ≠
        (((MountOp.open 7 0 ⟨.rdwr, false⟩ 0).run (clientEnv onlySeven) (fun _ => exampleDentry)
          exampleMount).files 0).lower := by
  refine ⟨⟨.inl rfl, by decide, by decide +kernel⟩, rfl, by decide, by decide +kernel⟩

end Teadfs
