/-
# Teadfs.LowerRefs — who still holds the lower file open

Every `dentry_open` makes a reference to the lower file that someone has to put. A handle
puts its own when it is released by the client, and otherwise only if its release brings
the count to zero and the lower path is gone. `teadfs_write` puts its own unless the write
in between fails, in which case it leaves at once.

`PutsBack` is that, for one step. In a run of such steps the references of a file are
those of its open handles, at every moment, and none is put that is not there
(`balanced_run`).
-/
import Mathlib.Data.List.Perm.Basic
import Teadfs.Openings

namespace Teadfs

set_option autoImplicit false

open Protocol Relation

/-! ## The references of a size extension -/

section Extension

variable (env : Env) (proc : Nat) (dentry : Dentry)

/-- The write between the lower open of `teadfs_write` and its put does not fail. -/
def WriteGoesDown (data : List UInt8) (offset : Nat) (w : World) : Prop :=
  ∀ ref w', dentryOpen env .rdwr (teadfsRequestOpenPath env proc dentry w).2 = (.ok ref, w') →
    0 ≤ (teadfsWriteLower env proc
      ⟨some ref, .ofCode (teadfsRequestOpenPath env proc dentry w).1, [], false⟩ data
      (min w.inode.iSize offset) w').1

/-- That holds of every pass of the loop of `truncate_upper`. -/
def LoopGoesDown (iaSize total : Nat) : Nat → Nat → World → Prop
  | 0, _, _ => True
  | fuel + 1, truncatePos, w =>
      truncatePos < total →
        let data := List.replicate (min (total - truncatePos) pageCacheSize) 0
        WriteGoesDown env proc dentry data (iaSize + truncatePos) w ∧
          (0 ≤ (teadfsWrite env proc dentry data (iaSize + truncatePos) w).1 →
            LoopGoesDown iaSize total fuel (truncatePos + pageCacheSize)
              (teadfsWrite env proc dentry data (iaSize + truncatePos) w).2)

/-- That holds of `truncate_upper`, where it comes to its loop. -/
def UpperGoesDown (n : Nat) (w : World) : Prop :=
  w.inode.iSize < n → env.zalloc w.chan.clock = true →
    LoopGoesDown env proc dentry n (n - w.inode.iSize) (n - w.inode.iSize) 0 w.tick

variable {env proc dentry} {w : World}

theorem teadfsWrite_refs {data : List UInt8} {offset : Nat}
    (goesDown : WriteGoesDown env proc dentry data offset w) :
    (teadfsWrite env proc dentry data offset w).2.inode.lowerRefs = w.inode.lowerRefs := by
  rcases teadfsWrite_cases env proc dentry data offset w with
    ⟨errno, -, failed⟩ | ⟨ref, w', opened, inode, -, -, written⟩
  · rw [failed]
    simp
  · rw [written]
    dsimp only
    obtain ⟨lower, stored⟩ := teadfsWriteLower_inode env proc
      ⟨some ref, .ofCode (teadfsRequestOpenPath env proc dentry w).1, [], false⟩ data
      (min w.inode.iSize offset) w'
    rw [if_neg (Int.not_lt.mpr (goesDown ref w' opened))]
    simp only [World.setSize_inode, fput, stored, inode, LowerFiles.put_get]

theorem truncateLoop_refs {iaSize total fuel truncatePos : Nat}
    (goesDown : LoopGoesDown env proc dentry iaSize total fuel truncatePos w) :
    (truncateLoop env proc dentry iaSize total fuel truncatePos w).2.inode.lowerRefs =
      w.inode.lowerRefs := by
  induction fuel generalizing truncatePos w with
  | zero => rfl
  | succ fuel ih =>
      simp only [truncateLoop]
      split_ifs with more failed
      · exact teadfsWrite_refs (goesDown more).1
      · rw [ih ((goesDown more).2 (Int.not_lt.mp failed)), teadfsWrite_refs (goesDown more).1]
      · rfl

theorem truncateUpper_refs {ia lowerIa : Iattr}
    (goesDown : UpperGoesDown env proc dentry ia.iaSize w) :
    (truncateUpper env proc dentry ia lowerIa w).2.2.inode.lowerRefs = w.inode.lowerRefs := by
  rcases Nat.lt_trichotomy ia.iaSize w.inode.iSize with shrinks | same | grows
  · rw [truncateUpper, if_neg shrinks.ne, if_neg shrinks.not_gt]
    rfl
  · rw [truncateUpper, if_pos same]
  · cases allocated : env.zalloc w.chan.clock with
    | false =>
        simp only [truncateUpper, zalloc, if_neg grows.ne', if_pos grows, allocated, if_true]
        rfl
    | true =>
        simp only [truncateUpper, zalloc, if_neg grows.ne', if_pos grows, allocated,
          Bool.true_eq_false, if_false]
        exact truncateLoop_refs (goesDown grows allocated)

theorem notifyChange_refs (ia : Iattr) :
    (notifyChange env ia w).2.inode.lowerRefs = w.inode.lowerRefs := by
  rcases notifyChange_cases env ia w with ⟨errno, failed⟩ | done
  · rw [failed]
    rfl
  · rw [done]
    rfl

theorem teadfsTruncate_refs {n : Nat} (goesDown : UpperGoesDown env proc dentry n w) :
    (teadfsTruncate env proc dentry n w).2.inode.lowerRefs = w.inode.lowerRefs := by
  simp only [teadfsTruncate]
  split
  · rw [notifyChange_refs]
    exact truncateUpper_refs goesDown
  · exact truncateUpper_refs goesDown

theorem teadfsSetattr_refs {n : Nat} {byHandle : Bool}
    (goesDown : env.inodeChangeOk w.chan.clock = none → UpperGoesDown env proc dentry n w.tick) :
    (teadfsSetattr env proc dentry (sizeChange n byHandle) w).2.inode.lowerRefs =
      w.inode.lowerRefs := by
  cases allowed : env.inodeChangeOk w.chan.clock with
  | some errno => simp [teadfsSetattr, allowed]
  | none =>
      have upper : (truncateUpper env proc dentry (sizeChange n byHandle) (sizeChange n byHandle)
          w.tick).2.2.inode.lowerRefs = w.inode.lowerRefs := truncateUpper_refs (goesDown allowed)
      rcases teadfsSetattr_cases env proc dentry n byHandle w with ⟨errno, refused⟩ | ran
      · rw [refused]
        rfl
      · rw [ran]
        dsimp only
        split_ifs
        · exact upper
        · rw [notifyChange_refs]
          exact upper

end Extension

/-! ## The references of a run -/

/-- The handle's reference to the lower file of `f`. -/
def Opened.refOn (f : Nat) (h : Opened) : Option Nat :=
  if h.file = f then h.info.lowerFile else none

namespace Openings

/-- The references of the open handles on `f`. -/
def refs (s : Openings) (f : Nat) : List Nat := s.handles.filterMap (Opened.refOn f)

/-- The step puts back what it should: a release is the client's, or the last with the
lower path gone; the writes of an extension go down. -/
def PutsBack (env : Env) (names : Nat → Dentry) (s : Openings) : OpeningStep → Prop
  | .open _ _ _ _ => True
  | .release proc k =>
      ∀ h, s.handles[k]? = some h →
        kpid proc (s.world h.file) = 0 ∨
          (s.files h.file).lowerFileCount = 1 ∧ (names h.file).lowerPathSet = false
  | .setSize proc f n =>
      env.inodeChangeOk s.chan.clock = none →
        UpperGoesDown env proc (names f) n (s.world f).tick
  | .fillHole proc f n => UpperGoesDown env proc (names f) n (s.world f)
  | .user _ => True

/-- What is held open of a file is what its handles hold, and nothing was put twice. -/
def Balanced (s : Openings) : Prop :=
  ∀ f, (s.files f).lowerRefs.opened.Perm (s.refs f) ∧ (s.files f).lowerRefs.stray = false

variable {env : Env} {names : Nat → Dentry} {s : Openings}

theorem Balanced.put (balanced : s.Balanced) {f : Nat} {w : World}
    (same : w.inode.lowerRefs = (s.files f).lowerRefs) : (s.put f w).Balanced := by
  intro g
  show ((s.put f w).files g).lowerRefs.opened.Perm (s.refs g) ∧ _
  by_cases here : g = f
  · subst here
    rw [put_files_self, same]
    exact balanced g
  · rw [put_files_of_ne s here]
    exact balanced g

theorem open_balanced (balanced : s.Balanced) (proc f : Nat) (flags : OpenFlags) (id : Nat) :
    (s.next env names (.open proc f flags id)).Balanced := by
  rcases next_open_cases env names s proc f flags id with
    ⟨info, w, ref, after, opened, inode⟩ | ⟨w, decrypt, count, after, inode, -, -⟩
  · rw [after]
    intro g
    show ((s.put f w).files g).lowerRefs.opened.Perm
      ((_ :: s.handles).filterMap (Opened.refOn g)) ∧ _
    rw [List.filterMap_cons]
    by_cases here : g = f
    · subst here
      rw [put_files_self, inode, Opened.refOn, if_pos rfl, opened]
      exact ⟨(balanced g).1.cons _, (balanced g).2⟩
    · rw [put_files_of_ne s here, Opened.refOn, if_neg (Ne.symm here)]
      exact balanced g
  · rw [after]
    exact balanced.put (by rw [inode])

/-- A handle that goes takes its reference with it. -/
theorem refs_eraseIdx {k : Nat} {h : Opened} (held : s.handles[k]? = some h) (f : Nat) :
    (s.refs f).Perm ((h.refOn f).toList ++
      (s.handles.eraseIdx k).filterMap (Opened.refOn f)) := by
  obtain ⟨inside, rfl⟩ := List.getElem?_eq_some_iff.mp held
  refine ((List.getElem_cons_eraseIdx_perm inside).filterMap _).symm.trans ?_
  rw [List.filterMap_cons]
  cases (s.handles[k]).refOn f with
  | none => rfl
  | some ref => rfl

/-- A release that puts its reference leaves those of the other handles. -/
theorem release_balanced (balanced : s.Balanced) {proc k : Nat}
    (puts : s.PutsBack env names (.release proc k)) :
    (s.next env names (.release proc k)).Balanced := by
  simp only [next]
  cases held : s.handles[k]? with
  | none => exact balanced
  | some h =>
      have share := refs_eraseIdx held
      intro g
      show ((s.put h.file (teadfsRelease env proc (names h.file) h.info h.id
        (s.world h.file))).files g).lowerRefs.opened.Perm
          ((s.handles.eraseIdx k).filterMap (Opened.refOn g)) ∧ _
      by_cases here : g = h.file
      · subst here
        rw [put_files_self]
        -- the reference is put exactly once, whoever releases
        have put : (teadfsRelease env proc (names h.file) h.info h.id
            (s.world h.file)).inode.lowerRefs =
            (fputLower h.info (s.world h.file)).inode.lowerRefs := by
          rcases teadfsRelease_cases env proc (names h.file) h.info h.id (s.world h.file) with
            ⟨-, put⟩ | ⟨other, more, -⟩ | ⟨other, -, w', base, told⟩
          · rw [put]
          · rcases puts h held with client | ⟨last, -⟩
            · exact absurd client other
            · exact absurd last more
          · rcases puts h held with client | ⟨-, gone⟩
            · exact absurd client other
            · rw [if_neg (by rw [gone]; decide)] at base
              have refs : w'.inode.lowerRefs =
                  (fputLower h.info (s.world h.file)).inode.lowerRefs := by
                rw [base]
                unfold fputLower
                split <;> rfl
              rw [told]
              split
              · simpa [teadfsRequestRelease] using refs
              · exact refs
        rw [put]
        have before := (balanced h.file).1.trans (share h.file)
        unfold Opened.refOn at before
        rw [if_pos rfl] at before
        unfold fputLower
        cases opened : h.info.lowerFile with
        | none =>
            rw [opened] at before
            exact ⟨before, (balanced h.file).2⟩
        | some ref =>
            rw [opened] at before
            have erased := before.erase ref
            rw [Option.toList_some, List.singleton_append] at before
            rw [Option.toList_some, List.singleton_append, List.erase_cons_head] at erased
            have there : ref ∈ (s.files h.file).lowerRefs.opened :=
              before.mem_iff.mpr List.mem_cons_self
            exact ⟨erased, (LowerFiles.stray_put there).trans (balanced h.file).2⟩
      · rw [put_files_of_ne s here]
        have before := (balanced g).1.trans (share g)
        rw [Opened.refOn, if_neg (Ne.symm here)] at before
        exact ⟨before, (balanced g).2⟩

/-- **References balance where every step puts back its own.** In every run of opens,
releases, size changes and messages of the client whose steps all put back what they
should, the references to a lower file are, at every moment, those of its open handles, and
none was put twice; so none is left when no handle is. -/
theorem balanced_run {files : Nat → InodeInfo} {glob : GlobalParam}
    (run : ReflTransGen (fun s t => ∃ step, s.PutsBack env names step ∧ t = s.next env names step)
      (start files glob) s) :
    (∀ f, (s.files f).lowerRefs.opened.Perm (s.refs f) ∧
        (s.files f).lowerRefs.stray = false) ∧
      (s.handles = [] → ∀ f, (s.files f).lowerRefs.opened = []) := by
  have balanced : s.Balanced := by
    refine Simulation.invariant (P := Balanced) ?_ run fun _ => ⟨.refl _, rfl⟩
    rintro s _ ⟨step, puts, rfl⟩ balanced
    cases step with
    | «open» proc f flags id => exact open_balanced balanced proc f flags id
    | release proc k => exact release_balanced balanced puts
    | setSize proc f n => exact balanced.put (teadfsSetattr_refs puts)
    | fillHole proc f n => exact balanced.put (teadfsTruncate_refs puts)
    | user request => exact balanced
  refine ⟨balanced, fun none f => ?_⟩
  have empty := (balanced f).1
  rw [refs, none] at empty
  exact empty.eq_nil

end Openings

/-- The client opens a file and releases it. -/
def clientVisit : List OpeningStep := [.open 1 0 ⟨.rdwr, false⟩ 100, .release 1 0]

/-- Another process does. -/
def visit : List OpeningStep := [.open 7 0 ⟨.rdwr, false⟩ 100, .release 7 0]

theorem client_visit_balances :
    ((clientVisit.foldl (Openings.next (clientEnv (xorCb .init)) fun _ => exampleDentry)
      emptyFiles).files 0).lowerRefs.opened = [] := by
  have allowed : Simulation.Allowed
      (Openings.PutsBack (clientEnv (xorCb .init)) fun _ => exampleDentry)
      (Openings.next (clientEnv (xorCb .init)) fun _ => exampleDentry) emptyFiles clientVisit := by
    refine ⟨trivial, ?_, trivial⟩
    rintro h ⟨⟩
    exact .inl rfl
  exact (Openings.balanced_run allowed.run).2 rfl 0

/-- The lower path of a mounted file is set, so the last release keeps its reference. -/
theorem visit_leaves_reference :
    ¬ ∀ (env : Env) (names : Nat → Dentry) (files : Nat → InodeInfo) (glob : GlobalParam)
        (s : Openings),
      ReflTransGen (fun s t => ∃ step, True ∧ t = s.next env names step)
        (Openings.start files glob) s →
      s.handles = [] → ∀ f, (s.files f).lowerRefs.opened = [] := by
  intro balances
  have allowed : Simulation.Allowed (fun _ _ => True)
      (Openings.next (clientEnv (xorCb .init)) fun _ => exampleDentry) emptyFiles visit :=
    ⟨trivial, trivial, trivial⟩
  have none := balances _ _ _ _ _ allowed.run rfl 0
  have left : ((visit.foldl (Openings.next (clientEnv (xorCb .init)) fun _ => exampleDentry)
      emptyFiles).files 0).lowerRefs.opened.length = 1 := by
    decide +kernel
  rw [none] at left
  cases left

end Teadfs
