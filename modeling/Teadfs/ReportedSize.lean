/-
# Teadfs.ReportedSize — the size a process is told

Both views of a labelled file share one `i_size`, which is that of the lower file with its
label. `teadfs_getattr` takes the label off for a process that would see the file
decrypted, but only where the inode's `file_decrypt` is set; and `teadfs_open` sets that
flag from its own `access` before it has asked for the verdict, when it is still
`OFR_INIT`. So the flag is never set, every process is told the lower size, and a seek to
the end, which nothing corrects, goes there too (`reportsView_iff`).
-/
import Teadfs.Openings

namespace Teadfs

set_option autoImplicit false

open Protocol Relation

/-! ## Size queries -/

/-- `teadfs_getattr`: the size of the `kstat` it fills in, where the lower `vfs_getattr`
does not fail. Copying the lower attributes does not copy the size. -/
def teadfsGetattr (env : Env) (proc : Nat) (dentry : Dentry) (vfsGetattr : Option Errno)
    (w : World) : Except Errno Int × World :=
  match vfsGetattr with
  | some errno => (.error errno, w)
  | none =>
      let size : Int := w.inode.iSize
      if w.inode.isReg ∧ w.inode.fileDecrypt then
        let access := teadfsRequestOpenPath env proc dentry w
        (.ok (if OpenFileResult.ofCode access.1 = .decrypt then size - encryptFileHeaderSize
          else size), access.2)
      else (.ok size, w)

inductive Whence where
  | set
  | cur
  | «end»
  deriving DecidableEq, Repr

/-- `generic_file_llseek` of a handle at `pos`, within the limits of the file system. The
host of either mapping is the one inode. -/
def genericFileLlseek (pos offset : Int) (whence : Whence) (w : World) : Int :=
  let target := match whence with
    | .set => offset
    | .cur => pos + offset
    | .end => w.inode.iSize + offset
  if target < 0 then einval else target

/-- `teadfs_file_llseek`. -/
def teadfsFileLlseek (pos offset : Int) (whence : Whence) (w : World) : Int :=
  genericFileLlseek pos offset whence w

/-- The size of a file of `size` bytes in the view that `access` gives. -/
def viewSize (access : OpenFileResult) (size : Nat) : Int :=
  if access = .decrypt then size - encryptFileHeaderSize else size

theorem viewSize_eq_iff {access : OpenFileResult} {size : Nat} :
    (size : Int) = viewSize access size ↔ access ≠ .decrypt := by
  have label : (0 : Int) < encryptFileHeaderSize := by decide
  unfold viewSize
  split_ifs with decrypt
  · simp only [decrypt, ne_eq, not_true, iff_false]
    omega
  · simp [decrypt]

/-! ## Runs of opens and releases -/

/-- The step changes no size. -/
def OpeningStep.KeepsSize : OpeningStep → Prop
  | .open _ _ _ _ => True
  | .release _ _ => True
  | .setSize _ _ _ => False
  | .fillHole _ _ _ => False
  | .user _ => True

/-- An inode as lookup leaves it: the size is the lower one, the flag is not set. -/
def LookedUp (inode : InodeInfo) : Prop :=
  inode.iSize = inode.lower.length ∧ inode.fileDecrypt = false

theorem teadfsRelease_sizes (env : Env) (proc : Nat) (dentry : Dentry) (file : FileInfo)
    (fileId : Nat) (w : World) :
    ∃ count refs, (teadfsRelease env proc dentry file fileId w).inode =
      { w.inode with lowerFileCount := count, lowerRefs := refs } := by
  have put : ∀ w : World, ∃ refs, (fputLower file w).inode = { w.inode with lowerRefs := refs } := by
    intro w
    unfold fputLower
    split <;> exact ⟨_, rfl⟩
  rcases teadfsRelease_cases env proc dentry file fileId w with
    ⟨-, done⟩ | ⟨-, -, done⟩ | ⟨-, -, w', base, done⟩
  · obtain ⟨refs, same⟩ := put w
    exact ⟨w.inode.lowerFileCount, refs, by rw [done, same]⟩
  · exact ⟨_, _, by rw [done]⟩
  · have zeroed : ∃ refs, w'.inode = { w.inode with lowerFileCount := 0, lowerRefs := refs } := by
      rw [base]
      split
      · exact ⟨_, rfl⟩
      · exact put { w with inode.lowerFileCount := 0 }
    obtain ⟨refs, same⟩ := zeroed
    refine ⟨0, refs, ?_⟩
    rw [done]
    split
    · simpa [teadfsRequestRelease] using same
    · exact same

namespace Openings

variable {env : Env} {names : Nat → Dentry} {s : Openings}

/-- Every file has its looked-up size and bytes, and no flag is set. -/
def AsLookedUp (files : Nat → InodeInfo) (s : Openings) : Prop :=
  ∀ f, LookedUp (s.files f) ∧ (s.files f).lower = (files f).lower

variable {files : Nat → InodeInfo}

theorem AsLookedUp.put (kept : s.AsLookedUp files) {f : Nat} {w : World} (found : LookedUp w.inode)
    (same : w.inode.lower = (s.files f).lower) : (s.put f w).AsLookedUp files := by
  intro g
  by_cases here : g = f
  · subst here
    rw [put_files_self]
    exact ⟨found, same.trans (kept g).2⟩
  · rw [put_files_of_ne s here]
    exact kept g

theorem next_asLookedUp (kept : s.AsLookedUp files) {step : OpeningStep} (keeps : step.KeepsSize) :
    (s.next env names step).AsLookedUp files := by
  cases step with
  | «open» proc f flags id =>
      have found := (kept f).1
      rcases next_open_cases env names s proc f flags id with
        ⟨info, w, ref, after, -, inode⟩ | ⟨w, decrypt, count, after, inode, flag, -⟩
      · have put : (s.put f w).AsLookedUp files :=
          kept.put (by rw [inode]; exact ⟨found.1, rfl⟩) (by rw [inode])
        rw [after]
        exact put
      · -- a failed open has left the flag as it was or cleared it
        have clear : decrypt = false := by
          cases decrypt with
          | false => rfl
          | true => exact absurd (flag rfl) (by rw [found.2]; decide)
        rw [after]
        exact kept.put (by rw [inode]; exact ⟨found.1, clear⟩) (by rw [inode])
  | release proc k =>
      simp only [next]
      cases held : s.handles[k]? with
      | none => exact kept
      | some h =>
          obtain ⟨count, refs, inode⟩ := teadfsRelease_sizes env proc (names h.file) h.info h.id
            (s.world h.file)
          have put : (s.put h.file (teadfsRelease env proc (names h.file) h.info h.id
              (s.world h.file))).AsLookedUp files :=
            kept.put (by rw [inode]; exact (kept h.file).1) (by rw [inode]; rfl)
          exact put
  | setSize proc f n => exact keeps.elim
  | fillHole proc f n => exact keeps.elim
  | user request => exact kept

/-- The process is told the size of its view, and a seek to the end through a handle
that decrypts goes to the end of that view. -/
def ReportsView (env : Env) (names : Nat → Dentry) (s : Openings) (proc f size : Nat) : Prop :=
  (∃ told, (teadfsGetattr env proc (names f) none (s.world f)).1 = .ok told ∧ 0 ≤ told ∧
      told = viewSize (.ofCode (teadfsRequestOpenPath env proc (names f) (s.world f)).1) size) ∧
    ∀ h ∈ s.handles, h.file = f → h.info.access = .decrypt →
      ∀ pos, teadfsFileLlseek pos 0 .end (s.world f) = viewSize .decrypt size

/-- **Sizes are right where nobody decrypts.** After every run of opens and releases, by
any processes under any verdicts, a process is told the size of its view and seeks in
decrypting handles end where that view does, exactly if the client would not let the
process decrypt and there is no such handle. -/
theorem reportsView_iff {glob : GlobalParam} (found : ∀ f, LookedUp (files f))
    (run : ReflTransGen (fun s t => ∃ step : OpeningStep, step.KeepsSize ∧ t = s.next env names step)
      (start files glob) s) (proc f : Nat) :
    ReportsView env names s proc f (files f).lower.length ↔
      OpenFileResult.ofCode (teadfsRequestOpenPath env proc (names f) (s.world f)).1 ≠ .decrypt ∧
        ∀ h ∈ s.handles, h.file = f → h.info.access ≠ .decrypt := by
  have kept : s.AsLookedUp files := by
    refine Simulation.invariant (P := AsLookedUp files) ?_ run fun f => ⟨found f, rfl⟩
    rintro s _ ⟨step, keeps, rfl⟩ kept
    exact next_asLookedUp kept keeps
  obtain ⟨⟨size, clear⟩, same⟩ := kept f
  have iSize : (s.world f).inode.iSize = (files f).lower.length := size.trans (by rw [same])
  have told : (teadfsGetattr env proc (names f) none (s.world f)).1 =
      .ok ((files f).lower.length : Int) := by
    have off : (s.world f).inode.fileDecrypt = false := clear
    simp only [teadfsGetattr, off, Bool.false_eq_true, and_false, if_false, iSize]
  have seek : ∀ pos, teadfsFileLlseek pos 0 .end (s.world f) = (files f).lower.length := by
    intro pos
    simp only [teadfsFileLlseek, genericFileLlseek, iSize, Int.add_zero]
    exact if_neg (by omega)
  constructor
  · rintro ⟨⟨size, reported, -, view⟩, seeks⟩
    rw [told] at reported
    cases reported
    refine ⟨viewSize_eq_iff.mp view, fun h held here decrypt => ?_⟩
    have goes := seeks h held here decrypt 0
    rw [seek] at goes
    exact viewSize_eq_iff.mp goes rfl
  · rintro ⟨verdict, handles⟩
    exact ⟨⟨_, told, by omega, viewSize_eq_iff.mpr verdict⟩,
      fun h held here decrypt => absurd decrypt (handles h held here)⟩

end Openings

/-- A labelled file of three bytes. -/
def labelledBytes : List UInt8 := shippedLabel ++ [0x71, 0x70, 0x77]

/-- Files with those bytes, and a client under pid 1. -/
def labelledFiles : Openings := .start (fun _ => (freshWorld labelledBytes).inode) ⟨1, 1, true⟩

/-- One process opens the file. -/
def openedOnce : List OpeningStep := [.open 7 0 ⟨.rdwr, false⟩ 100]

theorem undecided_open_reports_view :
    ((openedOnce.foldl (Openings.next (clientEnv (xorCb .init)) fun _ => exampleDentry)
      labelledFiles).ReportsView (clientEnv (xorCb .init)) (fun _ => exampleDentry) 7 0
        labelledBytes.length) := by
  have allowed : Simulation.Allowed (fun _ => OpeningStep.KeepsSize)
      (Openings.next (clientEnv (xorCb .init)) fun _ => exampleDentry) labelledFiles openedOnce :=
    ⟨trivial, trivial⟩
  refine (Openings.reportsView_iff (fun _ => ⟨rfl, rfl⟩) allowed.run 7 0).mpr ⟨by decide +kernel, ?_⟩
  decide +kernel

/-- A process that may decrypt is told the size with the label. -/
theorem decrypting_open_reports_lower_size :
    ¬ ∀ (env : Env) (names : Nat → Dentry) (files : Nat → InodeInfo) (glob : GlobalParam)
        (s : Openings), (∀ f, LookedUp (files f)) →
      ReflTransGen (fun s t => ∃ step : OpeningStep, step.KeepsSize ∧ t = s.next env names step)
        (Openings.start files glob) s →
      ∀ proc f, s.ReportsView env names proc f (files f).lower.length := by
  intro reports
  have allowed : Simulation.Allowed (fun _ => OpeningStep.KeepsSize)
      (Openings.next (clientEnv (xorCb .decrypt)) fun _ => exampleDentry) labelledFiles openedOnce :=
    ⟨trivial, trivial⟩
  obtain ⟨⟨told, reported, -, view⟩, -⟩ := reports _ _ _ _ _ (fun _ => ⟨rfl, rfl⟩) allowed.run 7 0
  have size : (teadfsGetattr (clientEnv (xorCb .decrypt)) 7 exampleDentry none
      ((openedOnce.foldl (Openings.next (clientEnv (xorCb .decrypt)) fun _ => exampleDentry)
        labelledFiles).world 0)).1 = .ok 259 := by
    decide +kernel
  rw [size] at reported
  cases reported
  have three : viewSize (.ofCode (teadfsRequestOpenPath (clientEnv (xorCb .decrypt)) 7 exampleDentry
      ((openedOnce.foldl (Openings.next (clientEnv (xorCb .decrypt)) fun _ => exampleDentry)
        labelledFiles).world 0)).1) labelledBytes.length = 3 := by
    decide +kernel
  have wrong : (259 : Int) = 3 := view.trans three
  cases wrong

end Teadfs
