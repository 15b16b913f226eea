/-
# Teadfs.Openings — counting the open handles of a file

`lower_file_count` counts the handles of processes other than the client, and the last
of them to go tells the client, which may then label the file. The count is right as
long as two things do not happen, and the code prevents neither. A lower open that fails
sets the count to zero, which undoes its increment only if there was no other handle. And
a release decrements if the process that releases is not the client *now*; the client's
pid may have changed since the handle was opened.

The state of this module is all files of a mount with the open handles of all processes,
each with the history of how it was opened. Handles are released by whoever holds them.
-/
import Teadfs.Mount
import Teadfs.Session
import Teadfs.UpcallOffsets

namespace Teadfs

set_option autoImplicit false

open Protocol Relation

/-- An open handle. -/
structure Opened where
  /-- The `struct file`. -/
  id : Nat
  file : Nat
  info : FileInfo
  /-- History: the process that opened it was not the client. -/
  counted : Bool

structure Openings where
  files : Nat → InodeInfo
  chan : Channel
  handles : List Opened

inductive OpeningStep where
  | «open» (proc f : Nat) (flags : OpenFlags) (id : Nat)
  /-- The release of the `k`-th of the open handles. -/
  | release (proc k : Nat)
  /-- A size change by path. -/
  | setSize (proc f n : Nat)
  /-- `teadfs_truncate`, as `treadfs_write_begin` calls it for a hole. -/
  | fillHole (proc f n : Nat)
  | user (request : UserRequest)

namespace Openings

def world (s : Openings) (f : Nat) : World := ⟨s.files f, s.chan⟩

def put (s : Openings) (f : Nat) (w : World) : Openings :=
  { s with
    files := Function.update s.files f w.inode
    chan := w.chan }

@[simp] theorem put_files_self (s : Openings) (f : Nat) (w : World) :
    (s.put f w).files f = w.inode :=
  Function.update_self ..

theorem put_files_of_ne (s : Openings) {f g : Nat} (other : g ≠ f) (w : World) :
    (s.put f w).files g = s.files g :=
  Function.update_of_ne other ..

/-- The step, on a mount whose files are named by `names`. -/
def next (env : Env) (names : Nat → Dentry) (s : Openings) : OpeningStep → Openings
  | .open proc f flags id =>
      match teadfsOpen env proc (names f) flags id (s.world f) with
      | (.error _, w) => s.put f w
      | (.ok info, w) =>
          { s.put f w with
            handles := ⟨id, f, info, decide (kpid proc (s.world f) ≠ 0)⟩ :: s.handles }
  | .release proc k =>
      match s.handles[k]? with
      | none => s
      | some h =>
          { s.put h.file (teadfsRelease env proc (names h.file) h.info h.id (s.world h.file)) with
            handles := s.handles.eraseIdx k }
  | .setSize proc f n =>
      s.put f (teadfsSetattr env proc (names f) (sizeChange n false) (s.world f)).2
  | .fillHole proc f n => s.put f (teadfsTruncate env proc (names f) n (s.world f)).2
  | .user request =>
      { s with chan.glob := teadfsUserRequestKernel request s.chan.glob }

/-- No handle is open, and nothing is counted or held. -/
def start (files : Nat → InodeInfo) (glob : GlobalParam) : Openings where
  files f := { files f with lowerFileCount := 0, lowerRefs := ⟨[], false⟩ }
  chan := ⟨glob, 0, []⟩
  handles := []

/-- The handles on `f` that were opened as counted and are not yet released. -/
def counted (s : Openings) (f : Nat) : Nat :=
  s.handles.countP fun h => decide (h.file = f) && h.counted

end Openings

/-! ## What opening and releasing do to the count -/

section Count

variable (env : Env) (proc : Nat) (dentry : Dentry) (file : FileInfo) (fileId : Nat) (w : World)

theorem openVerdict_inode :
    (openVerdict env proc dentry fileId w).2.inode = { w.inode with fileDecrypt := false } := by
  unfold openVerdict
  split
  · simp only [teadfsRequestOpenFile]
    split <;> simp
  · rfl

theorem kpid_of_steady {w w' : World} (steady : Steady w w') : kpid proc w' = kpid proc w := by
  rw [kpid, kpid, steady.2.1]

/-- What `teadfs_get_lower_file` can do for a handle: refuse a negative count, fail at the
lower open, which sets the count to zero if the handle is counted, or open. -/
theorem teadfsGetLowerFile_cases (mode : AccMode) :
    (kpid proc w ≠ 0 ∧ w.inode.lowerFileCount < 0 ∧
        teadfsGetLowerFile env proc true mode w =
          (.error ⟨einval, by decide⟩,
            { w with inode.lowerFileCount := w.inode.lowerFileCount + 1 })) ∨
      (∃ errno, env.dentryOpen w.chan.clock mode = some errno ∧
        teadfsGetLowerFile env proc true mode w =
          (.error errno, { w.tick with
            inode.lowerFileCount := if kpid proc w = 0 then w.inode.lowerFileCount else 0 })) ∨
      (env.dentryOpen w.chan.clock mode = none ∧
        teadfsGetLowerFile env proc true mode w =
          (.ok w.chan.clock, { w.tick with
            inode.lowerFileCount := w.inode.lowerFileCount + if kpid proc w = 0 then 0 else 1
            inode.lowerRefs := w.inode.lowerRefs.get w.chan.clock })) := by
  simp only [teadfsGetLowerFile, and_true, dentryOpen]
  by_cases client : kpid proc w = 0
  · cases answer : env.dentryOpen w.chan.clock mode with
    | some errno => exact .inr (.inl ⟨errno, rfl, by simp [client]; rfl⟩)
    | none => exact .inr (.inr ⟨rfl, by simp [client]⟩)
  · by_cases negative : w.inode.lowerFileCount < 0
    · have less : w.inode.lowerFileCount + 1 < 1 := by omega
      exact .inl ⟨client, negative, by simp [client, less]⟩
    · have enough : ¬ w.inode.lowerFileCount + 1 < 1 := by omega
      cases answer : env.dentryOpen w.chan.clock mode with
      | some errno => exact .inr (.inl ⟨errno, rfl, by simp [client, enough]; rfl⟩)
      | none => exact .inr (.inr ⟨rfl, by simp [client, enough]; rfl⟩)

/-- The lower open of a counted handle is reached, and fails. -/
def FailsBelow (flags : OpenFlags) : Prop :=
  env.zalloc w.chan.clock = true ∧ (openVerdict env proc dentry fileId w).1 ≠ .prohibit ∧
    kpid proc w ≠ 0 ∧
    env.dentryOpen (openVerdict env proc dentry fileId w).2.chan.clock (lowerMode flags.mode) ≠ none

/-- What opening a file can do: get a handle, fail at the lower open, or fail before it. -/
theorem teadfsOpen_cases (flags : OpenFlags) :
    (∃ info, (teadfsOpen env proc dentry flags fileId w).1 = .ok info ∧
        info.lowerFile = some (openVerdict env proc dentry fileId w).2.chan.clock ∧
        (teadfsOpen env proc dentry flags fileId w).2.inode =
          { w.inode with
            fileDecrypt := false
            lowerFileCount := w.inode.lowerFileCount + if kpid proc w = 0 then 0 else 1
            lowerRefs := w.inode.lowerRefs.get
              (openVerdict env proc dentry fileId w).2.chan.clock }) ∨
      (∃ errno decrypt count, (teadfsOpen env proc dentry flags fileId w).1 = .error errno ∧
        (teadfsOpen env proc dentry flags fileId w).2.inode =
          { w.inode with fileDecrypt := decrypt, lowerFileCount := count } ∧
        (decrypt = true → w.inode.fileDecrypt = true) ∧
        (count = w.inode.lowerFileCount ∨
          FailsBelow env proc dentry fileId w flags ∧ count = 0 ∨
          w.inode.lowerFileCount < 0)) := by
  have inode := openVerdict_inode env proc dentry fileId w
  have same := kpid_of_steady proc (openVerdict_untouched env proc dentry fileId w).1
  rw [teadfsOpen_eq]
  by_cases noMemory : env.zalloc w.chan.clock = false
  · rw [if_pos noMemory]
    exact .inr ⟨enomem, w.inode.fileDecrypt, w.inode.lowerFileCount, rfl, rfl, id, .inl rfl⟩
  rw [if_neg noMemory]
  by_cases prohibited : (openVerdict env proc dentry fileId w).1 = .prohibit
  · rw [if_pos prohibited]
    exact .inr ⟨eacces, false, w.inode.lowerFileCount, rfl, inode, nofun, .inl rfl⟩
  rw [if_neg prohibited]
  have zalloc : env.zalloc w.chan.clock = true := by simpa using noMemory
  rcases teadfsGetLowerFile_cases env proc (openVerdict env proc dentry fileId w).2
    (lowerMode flags.mode) with ⟨-, negative, got⟩ | ⟨errno, refused, got⟩ | ⟨-, got⟩
  · rw [inode] at negative
    rw [got]
    exact .inr ⟨_, false, _, rfl, by simp only [inode]; rfl, nofun, .inr (.inr negative)⟩
  · rw [got]
    refine .inr ⟨_, false, _, rfl, by simp only [World.tick_inode, inode]; rfl, nofun, ?_⟩
    rw [same]
    split
    · exact .inl rfl
    · rename_i other
      exact .inr (.inl ⟨⟨zalloc, prohibited, other, by rw [refused]; nofun⟩, rfl⟩)
  · rw [got]
    refine .inl ⟨_, rfl, rfl, ?_⟩
    simp only [World.tick_inode, inode, same]

/-- What releasing a handle can do: put the lower file, for the client; or lower the
count, and, where that was one, tell the client. -/
theorem teadfsRelease_cases :
    (kpid proc w = 0 ∧ teadfsRelease env proc dentry file fileId w = fputLower file w) ∨
      (kpid proc w ≠ 0 ∧ w.inode.lowerFileCount ≠ 1 ∧
        teadfsRelease env proc dentry file fileId w =
          { w with inode.lowerFileCount := w.inode.lowerFileCount - 1 }) ∨
      (kpid proc w ≠ 0 ∧ w.inode.lowerFileCount = 1 ∧
        ∃ w', w' = (if dentry.lowerPathSet then { w with inode.lowerFileCount := 0 }
            else fputLower file { w with inode.lowerFileCount := 0 }) ∧
          teadfsRelease env proc dentry file fileId w =
            if w.inode.isReg then (teadfsRequestRelease env proc file.filePath fileId w').2
            else w') := by
  simp only [teadfsRelease, teadfsPutLowerFile, and_true]
  by_cases client : kpid proc w = 0
  · exact .inl ⟨client, by simp [client]⟩
  rw [if_pos client]
  by_cases last : w.inode.lowerFileCount = 1
  · refine .inr (.inr ⟨client, last, _, rfl, ?_⟩)
    have zero : w.inode.lowerFileCount - 1 = 0 := by omega
    simp only [zero, if_true]
    have isReg : (if dentry.lowerPathSet then { w with inode.lowerFileCount := 0 }
        else fputLower file { w with inode.lowerFileCount := 0 }).inode.isReg = w.inode.isReg := by
      split
      · rfl
      · exact (fputLower_untouched file { w with inode.lowerFileCount := 0 }).1.2.2
    rw [isReg]
  · refine .inr (.inl ⟨client, last, ?_⟩)
    have more : w.inode.lowerFileCount - 1 ≠ 0 := by omega
    rw [if_neg more]

theorem teadfsWriteLower_count (data : List UInt8) (offset : Nat) :
    (teadfsWriteLower env proc file data offset w).2.inode.lowerFileCount =
      w.inode.lowerFileCount := by
  obtain ⟨lower, stored⟩ := teadfsWriteLower_inode env proc file data offset w
  rw [stored]

theorem teadfsWrite_count (data : List UInt8) (offset : Nat) :
    (teadfsWrite env proc dentry data offset w).2.inode.lowerFileCount =
      w.inode.lowerFileCount := by
  rcases teadfsWrite_cases env proc dentry data offset w with
    ⟨errno, -, failed⟩ | ⟨ref, w', -, inode, -, -, written⟩
  · rw [failed]
    simp
  · rw [written]
    dsimp only
    split_ifs
    · rw [teadfsWriteLower_count, inode]
    · simp only [World.setSize_inode, fput]
      rw [teadfsWriteLower_count, inode]

theorem truncateLoop_count (iaSize total fuel truncatePos : Nat) :
    (truncateLoop env proc dentry iaSize total fuel truncatePos w).2.inode.lowerFileCount =
      w.inode.lowerFileCount := by
  induction fuel generalizing truncatePos w with
  | zero => rfl
  | succ fuel ih =>
      simp only [truncateLoop]
      split_ifs
      · exact teadfsWrite_count ..
      · rw [ih, teadfsWrite_count]
      · rfl

theorem truncateUpper_count (ia lowerIa : Iattr) :
    (truncateUpper env proc dentry ia lowerIa w).2.2.inode.lowerFileCount =
      w.inode.lowerFileCount := by
  rcases truncateUpper_cases env proc dentry ia lowerIa w with
    ⟨-, t⟩ | ⟨-, -, t⟩ | ⟨-, t⟩ | ⟨-, t⟩
  · rw [t]
  · rw [t]
    rfl
  · rw [t]
    exact truncateLoop_count env proc dentry w.tick ..
  · rw [t]
    rfl

theorem notifyChange_count (ia : Iattr) :
    (notifyChange env ia w).2.inode.lowerFileCount = w.inode.lowerFileCount := by
  rcases notifyChange_cases env ia w with ⟨errno, failed⟩ | done
  · rw [failed]
    rfl
  · rw [done]
    rfl

theorem teadfsTruncate_count (n : Nat) :
    (teadfsTruncate env proc dentry n w).2.inode.lowerFileCount = w.inode.lowerFileCount := by
  simp only [teadfsTruncate]
  split
  · rw [notifyChange_count, truncateUpper_count]
  · rw [truncateUpper_count]

theorem teadfsSetattr_count (n : Nat) (byHandle : Bool) :
    (teadfsSetattr env proc dentry (sizeChange n byHandle) w).2.inode.lowerFileCount =
      w.inode.lowerFileCount := by
  rcases teadfsSetattr_cases env proc dentry n byHandle w with ⟨errno, refused⟩ | ran
  · rw [refused]
    rfl
  · rw [ran]
    dsimp only
    split_ifs
    · rw [truncateUpper_count]
      rfl
    · rw [notifyChange_count, truncateUpper_count]
      rfl

end Count

/-! ## The count over a run -/

namespace Openings

variable {env : Env} {names : Nat → Dentry} {s : Openings}

/-- A lower open of a counted handle fails only where no counted handle is open, and a
process releases as the client exactly the handles that were opened as the client. -/
def Even (env : Env) (names : Nat → Dentry) (s : Openings) : OpeningStep → Prop
  | .open proc f flags id =>
      FailsBelow env proc (names f) id (s.world f) flags → s.counted f = 0
  | .release proc k =>
      ∀ h, s.handles[k]? = some h → (kpid proc (s.world h.file) ≠ 0 ↔ h.counted = true)
  | _ => True

/-- The count of every file is that of its counted handles. -/
def Counts (s : Openings) : Prop := ∀ f, (s.files f).lowerFileCount = s.counted f

/-- A handle that goes takes its share of the count with it. -/
theorem counted_eraseIdx {k : Nat} {h : Opened} (held : s.handles[k]? = some h) (f : Nat) :
    s.counted f = (if h.file = f ∧ h.counted = true then 1 else 0) +
      (s.handles.eraseIdx k).countP fun h => decide (h.file = f) && h.counted := by
  obtain ⟨inside, rfl⟩ := List.getElem?_eq_some_iff.mp held
  rw [counted, ← (List.getElem_cons_eraseIdx_perm inside).countP_eq, List.countP_cons, Nat.add_comm]
  simp

theorem put_count_of_ne {f g : Nat} (other : g ≠ f) (w : World) :
    ((s.put f w).files g).lowerFileCount = (s.files g).lowerFileCount := by
  rw [put_files_of_ne s other]

/-- What an open step can do: add a handle with its reference, counted unless the client
opens; or fail, with the count as it was, reset, or already negative. -/
theorem next_open_cases (env : Env) (names : Nat → Dentry) (s : Openings) (proc f : Nat)
    (flags : OpenFlags) (id : Nat) :
    (∃ info w ref, s.next env names (.open proc f flags id) =
          { s.put f w with
            handles := ⟨id, f, info, decide (kpid proc (s.world f) ≠ 0)⟩ :: s.handles } ∧
        info.lowerFile = some ref ∧
        w.inode =
          { s.files f with
            fileDecrypt := false
            lowerFileCount := (s.files f).lowerFileCount + if kpid proc (s.world f) = 0 then 0 else 1
            lowerRefs := (s.files f).lowerRefs.get ref }) ∨
      ∃ w decrypt count, s.next env names (.open proc f flags id) = s.put f w ∧
        w.inode = { s.files f with fileDecrypt := decrypt, lowerFileCount := count } ∧
        (decrypt = true → (s.files f).fileDecrypt = true) ∧
        (count = (s.files f).lowerFileCount ∨
          FailsBelow env proc (names f) id (s.world f) flags ∧ count = 0 ∨
          (s.files f).lowerFileCount < 0) := by
  have outcome := teadfsOpen_cases env proc (names f) id (s.world f) flags
  simp only [next]
  cases answer : teadfsOpen env proc (names f) flags id (s.world f) with
  | mk result w =>
      rw [answer] at outcome
      rcases outcome with ⟨info, rfl, opened, inode⟩ | ⟨errno, decrypt, count, rfl, inode, flag, what⟩
      · exact .inl ⟨info, w, _, rfl, opened, inode⟩
      · exact .inr ⟨w, decrypt, count, rfl, inode, flag, what⟩

theorem open_counts (counts : s.Counts) {proc f id : Nat} {flags : OpenFlags}
    (even : s.Even env names (.open proc f flags id)) :
    (s.next env names (.open proc f flags id)).Counts := by
  intro g
  rcases next_open_cases env names s proc f flags id with
    ⟨info, w, ref, after, -, inode⟩ | ⟨w, decrypt, count, after, inode, -, what⟩
  · rw [after]
    show ((s.put f w).files g).lowerFileCount = ((⟨id, f, info,
      decide (kpid proc (s.world f) ≠ 0)⟩ :: s.handles).countP _ : Nat)
    rw [List.countP_cons]
    by_cases here : g = f
    · subst here
      rw [put_files_self, inode]
      simp only [counts g, counted]
      by_cases client : kpid proc (s.world g) = 0 <;> simp [client]
    · rw [put_count_of_ne here, counts g]
      simp [counted, Ne.symm here]
  · rw [after]
    show ((s.put f w).files g).lowerFileCount = s.counted g
    by_cases here : g = f
    · subst here
      rw [put_files_self, inode]
      rcases what with rfl | ⟨failed, rfl⟩ | negative
      · exact counts g
      · rw [even failed]
        rfl
      · have same := counts g
        omega
    · rw [put_count_of_ne here]
      exact counts g

theorem release_counts (counts : s.Counts) {proc k : Nat}
    (even : s.Even env names (.release proc k)) :
    (s.next env names (.release proc k)).Counts := by
  simp only [next]
  cases held : s.handles[k]? with
  | none => exact counts
  | some h =>
      have share := counted_eraseIdx held
      have agrees := even h held
      intro g
      show ((s.put h.file (teadfsRelease env proc (names h.file) h.info h.id
        (s.world h.file))).files g).lowerFileCount = ((s.handles.eraseIdx k).countP _ : Nat)
      have before := counts g
      rw [share g] at before
      by_cases here : g = h.file
      · subst here
        rw [put_files_self]
        have old : (s.world h.file).inode.lowerFileCount = _ := before
        rcases teadfsRelease_cases env proc (names h.file) h.info h.id (s.world h.file) with
          ⟨client, put⟩ | ⟨other, -, lowered⟩ | ⟨other, last, w', base, told⟩
        · have uncounted : ¬ h.counted = true := fun yes => agrees.mpr yes client
          have count : (fputLower h.info (s.world h.file)).inode.lowerFileCount =
              (s.world h.file).inode.lowerFileCount := by
            unfold fputLower
            split <;> rfl
          rw [put, count, old]
          simp [uncounted]
        · rw [lowered]
          dsimp only
          rw [old]
          simp [agrees.mp other]
        · have zero : w'.inode.lowerFileCount = 0 := by
            rw [base]
            unfold fputLower
            split
            · rfl
            · split <;> rfl
          have count : (teadfsRelease env proc (names h.file) h.info h.id
              (s.world h.file)).inode.lowerFileCount = 0 := by
            rw [told]
            split
            · simpa [teadfsRequestRelease] using zero
            · exact zero
          rw [count]
          rw [last] at old
          simp only [agrees.mp other, and_self, if_true] at old
          omega
      · rw [put_count_of_ne here, before]
        simp [Ne.symm here]

/-- Every step that is `Even` keeps the counts. -/
theorem next_counts (counts : s.Counts) {step : OpeningStep} (even : s.Even env names step) :
    (s.next env names step).Counts := by
  cases step with
  | «open» proc f flags id => exact open_counts counts even
  | release proc k => exact release_counts counts even
  | setSize proc f n =>
      intro g
      show ((s.put f _).files g).lowerFileCount = s.counted g
      by_cases here : g = f
      · subst here
        rw [put_files_self, teadfsSetattr_count]
        exact counts g
      · rw [put_count_of_ne here]
        exact counts g
  | fillHole proc f n =>
      intro g
      show ((s.put f _).files g).lowerFileCount = s.counted g
      by_cases here : g = f
      · subst here
        rw [put_files_self, teadfsTruncate_count]
        exact counts g
      · rw [put_count_of_ne here]
        exact counts g
  | user request => exact counts

/-- The release of `h` by `proc` calls `teadfs_request_release`. -/
def TellsClient (env : Env) (names : Nat → Dentry) (s : Openings) (proc : Nat) (h : Opened) :
    Prop :=
  ∃ packet rc block, .upcall .release packet rc block ∈ newEvents (s.world h.file)
    (teadfsRelease env proc (names h.file) h.info h.id (s.world h.file))

theorem tellsClient_iff {proc : Nat} {h : Opened} (isReg : (s.files h.file).isReg = true) :
    s.TellsClient env names proc h ↔
      kpid proc (s.world h.file) ≠ 0 ∧ (s.files h.file).lowerFileCount = 1 := by
  have quiet : ∀ w', w'.chan.log = (s.world h.file).chan.log →
      teadfsRelease env proc (names h.file) h.info h.id (s.world h.file) = w' →
      ¬ s.TellsClient env names proc h := by
    rintro w' log same ⟨packet, rc, block, member⟩
    rw [same, newEvents_append [] (by rw [log, List.append_nil])] at member
    cases member
  rcases teadfsRelease_cases env proc (names h.file) h.info h.id (s.world h.file) with
    ⟨client, put⟩ | ⟨other, more, lowered⟩ | ⟨other, last, w', base, told⟩
  · refine iff_of_false (quiet _ ?_ put) (fun both => both.1 client)
    unfold fputLower
    split <;> rfl
  · refine iff_of_false (quiet _ ?_ lowered) (fun both => more both.2)
    rfl
  · refine iff_of_true ?_ ⟨other, last⟩
    have log : w'.chan.log = (s.world h.file).chan.log := by
      rw [base]
      unfold fputLower
      split
      · rfl
      · split <;> rfl
    have reg : (s.world h.file).inode.isReg = true := isReg
    rw [if_pos reg] at told
    obtain ⟨packet, logged⟩ := teadfsRequestRelease_log env proc h.info.filePath h.id w'
    rw [log] at logged
    exact ⟨packet, _, [], by rw [told, newEvents_append _ logged]; exact List.mem_singleton_self _⟩

/-- **The count is right, and the last one to go tells the client.** In every run whose
steps are all `Even`: `lower_file_count` is the number of handles opened as counted and not
yet released, so it is not negative; and the release of a handle of a regular file calls
`teadfs_request_release` exactly if the handle was counted and no counted one is left. -/
theorem even_run_counts {files : Nat → InodeInfo} {glob : GlobalParam}
    (run : ReflTransGen (fun s t => ∃ step, s.Even env names step ∧ t = s.next env names step)
      (start files glob) s) :
    (∀ f, (s.files f).lowerFileCount = s.counted f ∧ 0 ≤ (s.files f).lowerFileCount) ∧
      ∀ proc k h, s.handles[k]? = some h → s.Even env names (.release proc k) →
        (s.files h.file).isReg = true →
        (s.TellsClient env names proc h ↔
          h.counted = true ∧ (s.next env names (.release proc k)).counted h.file = 0) := by
  have counts : s.Counts := by
    refine Simulation.invariant (P := Counts) ?_ run fun _ => rfl
    rintro s _ ⟨step, even, rfl⟩ counts
    exact next_counts counts even
  refine ⟨fun f => ⟨counts f, by rw [counts f]; exact Int.natCast_nonneg _⟩, ?_⟩
  intro proc k h held even isReg
  have agrees := even h held
  have share := counted_eraseIdx held h.file
  have left : (s.next env names (.release proc k)).counted h.file =
      (s.handles.eraseIdx k).countP fun h' => decide (h'.file = h.file) && h'.counted := by
    simp only [next, held]
    rfl
  rw [tellsClient_iff isReg, agrees, counts h.file, left]
  constructor
  · rintro ⟨counted, last⟩
    simp only [counted, and_self, if_true] at share
    exact ⟨counted, by omega⟩
  · rintro ⟨counted, none⟩
    simp only [counted, and_self, if_true, none] at share
    exact ⟨counted, by omega⟩

end Openings

/-- Empty regular files, and a client under pid 1. -/
def emptyFiles : Openings := .start (fun _ => (freshWorld []).inode) ⟨1, 1, true⟩

/-- Two processes open the file. -/
def openedTwice : List OpeningStep :=
  [.open 7 0 ⟨.rdwr, false⟩ 100, .open 8 0 ⟨.rdwr, false⟩ 101]

/-- The second one releases it again. -/
def releasedOnce : List OpeningStep := openedTwice ++ [.release 8 0]

/-- The steps where everybody obliges. -/
def openingsAfter (steps : List OpeningStep) : Openings :=
  steps.foldl (Openings.next (clientEnv (xorCb .init)) fun _ => exampleDentry) emptyFiles

/-- The first release is not told to the client, the second one is. -/
theorem two_openings_count :
    (((openingsAfter openedTwice).files 0).lowerFileCount = 2 ∧
        ∃ h, (openingsAfter openedTwice).handles[0]? = some h ∧
          ¬ (openingsAfter openedTwice).TellsClient (clientEnv (xorCb .init))
            (fun _ => exampleDentry) 8 h) ∧
      ((openingsAfter releasedOnce).files 0).lowerFileCount = 1 ∧
        ∃ h, (openingsAfter releasedOnce).handles[0]? = some h ∧
          (openingsAfter releasedOnce).TellsClient (clientEnv (xorCb .init))
            (fun _ => exampleDentry) 7 h := by
  have released : Simulation.Allowed
      (Openings.Even (clientEnv (xorCb .init)) fun _ => exampleDentry)
      (Openings.next (clientEnv (xorCb .init)) fun _ => exampleDentry) emptyFiles releasedOnce := by
    refine ⟨fun failed => absurd rfl failed.2.2.2, fun failed => absurd rfl failed.2.2.2, ?_,
      trivial⟩
    rintro h ⟨⟩
    decide
  have opened := (Simulation.Allowed.append_iff.mp released).1
  constructor
  · obtain ⟨counts, tells⟩ := Openings.even_run_counts opened.run
    refine ⟨(counts 0).1, _, rfl, fun told => ?_⟩
    obtain ⟨-, none⟩ := (tells 8 0 _ rfl (by rintro h ⟨⟩; decide) rfl).mp told
    exact absurd none (by decide +kernel)
  · obtain ⟨counts, tells⟩ := Openings.even_run_counts released.run
    refine ⟨(counts 0).1, _, rfl, (tells 7 0 _ rfl ?_ rfl).mpr ⟨rfl, rfl⟩⟩
    rintro h ⟨⟩
    decide

/-- The second lower open finds no file table entry. -/
def crowdedEnv : Env :=
  { clientEnv (xorCb .init) with
    dentryOpen := fun t _ => if t < 5 then none else some ⟨-24, by decide⟩ }

/-- The failed open has taken the first one's share of the count. -/
theorem failed_open_resets_count :
    ¬ ∀ (env : Env) (names : Nat → Dentry) (files : Nat → InodeInfo) (glob : GlobalParam)
        (s : Openings),
      ReflTransGen (fun s t => ∃ step, True ∧ t = s.next env names step)
        (Openings.start files glob) s →
      ∀ f, (s.files f).lowerFileCount = s.counted f := by
  intro counts
  have allowed : Simulation.Allowed (fun _ _ => True)
      (Openings.next crowdedEnv fun _ => exampleDentry) emptyFiles openedTwice :=
    ⟨trivial, trivial, trivial⟩
  have wrong := counts _ _ _ _ _ allowed.run 0
  have zero : ((openedTwice.foldl (Openings.next crowdedEnv fun _ => exampleDentry)
      emptyFiles).files 0).lowerFileCount = 0 := by
    decide +kernel
  have one : (openedTwice.foldl (Openings.next crowdedEnv fun _ => exampleDentry)
      emptyFiles).counted 0 = 1 := by
    decide +kernel
  rw [zero, one] at wrong
  cases wrong

end Teadfs
