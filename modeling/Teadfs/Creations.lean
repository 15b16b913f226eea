/-
# Teadfs.Creations — what a creating operation reports

`teadfs_create`, `teadfs_link`, `teadfs_symlink`, `teadfs_mkdir` and `teadfs_mknod` make the
lower name first and bind an upper inode to it second. Zero should say that both are done,
and an error that neither is.

It does where the lower call refuses, or where the second step succeeds too. Where that
fails, `teadfs_create` takes the lower name back and returns the zero of `vfs_create`, and
the others leave the lower name and return the error; and where the lower call has left its
dentry without an inode, they return zero with nothing bound, and `teadfs_create` does not
return at all (`creation_reports_iff`).
-/
import Teadfs.LinkCounts

namespace Teadfs

set_option autoImplicit false

/-- Zero says that the name is there below and its dentry has the upper inode of what it
names; an error says that the lower entries are as they were, and the dentry is negative. -/
def Reports (t : MountTree) (p : Place) (r : Int × MountTree) : Prop :=
  (r.1 = 0 → ∃ i, r.2.lower.entry p = some i ∧ r.2.dentry p = some (some i) ∧
    (r.2.nlink i).isSome) ∧
  (r.1 ≠ 0 → r.2.lower.entry = t.lower.entry ∧ r.2.inodeAt p = none)

section Reports

variable {t : MountTree} {p : Place} {r : Int × MountTree}

theorem Reports.of_failed (failed : r.1 ≠ 0) (entries : r.2.lower.entry = t.lower.entry)
    (negative : r.2.inodeAt p = none) : Reports t p r :=
  ⟨fun success => absurd success failed, fun _ => ⟨entries, negative⟩⟩

theorem Reports.of_bound {i : Nat} (success : r.1 = 0) (entry : r.2.lower.entry p = some i)
    (bound : r.2.dentry p = some (some i)) (cached : (r.2.nlink i).isSome) : Reports t p r :=
  ⟨fun _ => ⟨i, entry, bound, cached⟩, fun failed => absurd success failed⟩

/-- Success with nothing bound. -/
theorem not_reports_of_unbound (success : r.1 = 0) (negative : r.2.inodeAt p = none) :
    ¬ Reports t p r := by
  intro reports
  obtain ⟨i, -, bound, -⟩ := reports.1 success
  rw [MountTree.inodeAt, bound] at negative
  cases negative

/-- An error with the new name left below. -/
theorem not_reports_of_left {i : Nat} (failed : r.1 ≠ 0) (absent : t.lower.entry p = none)
    (left : r.2.lower.entry p = some i) : ¬ Reports t p r := by
  intro reports
  rw [(reports.2 failed).1, absent] at left
  cases left

end Reports

section Creations

variable {a : DirAnswer} {p q : Place} {t : MountTree}

theorem inodeAt_dropNegative : (t.dropNegative p).inodeAt p = t.inodeAt p := by
  unfold MountTree.dropNegative
  split
  · rename_i negative
    rw [negative]
    simp [MountTree.inodeAt, MountTree.setDentry]
  · rfl

theorem dropNegative_of_bound {i : Nat} (bound : t.dentry p = some (some i)) :
    t.dropNegative p = t := by
  rw [MountTree.dropNegative, MountTree.inodeAt, bound]
  rfl

@[simp] theorem dropNegative_lower : (t.dropNegative p).lower = t.lower := by
  unfold MountTree.dropNegative
  split <;> rfl

theorem inodeAt_negative (negative : t.dentry p = some none) : t.inodeAt p = none := by
  rw [MountTree.inodeAt, negative]
  rfl

/-- The dentry that is bound has its inode in the cache. -/
theorem iget_cached_self (i : Nat) : ((t.iget i).nlink i).isSome := by
  simp [MountTree.iget]

theorem vfsCreate_absent {refused : Option Errno} {l : LowerTree}
    (success : (l.vfsCreate refused p).1 = 0) : l.entry p = none := by
  cases refused with
  | some errno => exact absurd success errno.property.ne
  | none =>
      cases entry : l.entry p with
      | none => rfl
      | some i =>
          simp only [LowerTree.vfsCreate, entry] at success
          cases success

theorem vfsMkdir_absent {refused : Option Errno} {l : LowerTree}
    (success : (l.vfsMkdir refused p).1 = 0) : l.entry p = none := by
  cases refused with
  | some errno => exact absurd success errno.property.ne
  | none =>
      cases entry : l.entry p with
      | none => rfl
      | some i =>
          simp only [LowerTree.vfsMkdir, entry] at success
          cases success

/-- A link that succeeds is a second name of a file that has one. -/
theorem vfsLink_absent {refused : Option Errno} {l : LowerTree}
    (success : (l.vfsLink refused p q).1 = 0) :
    ∃ i, l.entry p = some i ∧ l.entry q = none := by
  cases refused with
  | some errno => exact absurd success errno.property.ne
  | none =>
      cases entry : l.entry p with
      | none =>
          simp only [LowerTree.vfsLink, entry] at success
          cases success
      | some i =>
          cases there : l.entry q with
          | none => exact ⟨i, rfl, rfl⟩
          | some j =>
              simp only [LowerTree.vfsLink, entry, there] at success
              cases success

/-- The common course of `teadfs_symlink`, `teadfs_mkdir` and `teadfs_mknod`. -/
theorem makeNode_reports_iff {r : Int × LowerTree} {done : MountTree → MountTree}
    (negative : t.dentry p = some none)
    (made : r.1 = 0 → t.lower.entry p = none ∧ ∃ i, r.2.entry p = some i)
    (lower : ∀ s, (done s).lower = s.lower) (dentry : ∀ s, (done s).dentry = s.dentry)
    (cached : ∀ s i, ((done s).nlink i).isSome = (s.nlink i).isSome) :
    Reports t p (makeNode a p r done t) ↔
      r.1 ≠ 0 ∨ a.instantiated = true ∧ a.getInode = none := by
  unfold makeNode
  by_cases failed : r.1 ≠ 0
  · simp only [failed, ne_eq, not_false_eq_true, true_or, iff_true, if_true]
    exact .of_failed failed (by rw [dropNegative_lower])
      (inodeAt_dropNegative.trans (inodeAt_negative negative))
  obtain ⟨absent, i, entry⟩ := made (not_not.mp failed)
  rw [if_neg failed]
  simp only [failed, false_or]
  cases instantiated : a.instantiated with
  | false =>
      simp only [Bool.false_eq_true, false_and, iff_false, if_false]
      exact not_reports_of_unbound rfl
        (inodeAt_dropNegative.trans (inodeAt_negative negative))
  | true =>
      simp only [entry, if_true, true_and]
      cases got : a.getInode with
      | some errno =>
          simp only [teadfsInterpose, got, errno.property.ne, ne_eq, not_false_eq_true, if_true,
            reduceCtorEq, iff_false]
          exact not_reports_of_left errno.property.ne absent
            (by rw [dropNegative_lower]; exact entry)
      | none =>
          simp only [teadfsInterpose, got, ne_eq, not_true, if_false, iff_true]
          have bound : (done (((t.setLower r.2).iget i).setDentry p (some (some i)))).dentry p =
              some (some i) := by
            rw [dentry]
            exact Function.update_self ..
          rw [dropNegative_of_bound bound]
          refine .of_bound rfl ?_ bound ?_
          · rw [lower]
            exact entry
          · rw [cached]
            exact iget_cached_self i

/-- The operation's lower call refuses, or what it made is bound: the lower dentry has its
inode, and `__teadfs_get_inode` gives the upper one. -/
def DirOp.RefusedOrBound (a : DirAnswer) (t : MountTree) : DirOp → Prop
  | .create p => (t.lower.vfsCreate a.vfs p).1 ≠ 0 ∨ a.instantiated = true ∧ a.getInode = none
  | .link p q =>
      (t.lower.vfsLink a.vfs p q).1 ≠ 0 ∨ a.instantiated = true ∧ a.getInode = none
  | .symlink p => (t.lower.vfsCreate a.vfs p).1 ≠ 0 ∨ a.instantiated = true ∧ a.getInode = none
  | .mkdir p => (t.lower.vfsMkdir a.vfs p).1 ≠ 0 ∨ a.instantiated = true ∧ a.getInode = none
  | .mknod p => (t.lower.vfsCreate a.vfs p).1 ≠ 0 ∨ a.instantiated = true ∧ a.getInode = none
  | _ => True

/-- The name that a creating operation makes. -/
def DirOp.made : DirOp → Option Place
  | .create p => some p
  | .link _ q => some q
  | .symlink p => some p
  | .mkdir p => some p
  | .mknod p => some p
  | _ => none

theorem teadfsCreate_reports_iff (negative : t.dentry p = some none) :
    (∃ r, teadfsCreate a p t = some r ∧ Reports t p r) ↔ (DirOp.create p).RefusedOrBound a t := by
  unfold teadfsCreate DirOp.RefusedOrBound
  by_cases failed : (t.lower.vfsCreate a.vfs p).1 ≠ 0
  · simp only [failed, ne_eq, not_false_eq_true, true_or, iff_true, if_true]
    exact ⟨_, rfl, .of_failed failed rfl (inodeAt_negative negative)⟩
  have made := vfsCreate_ok (not_not.mp failed)
  have entry : (t.lower.make p false 1).entry p = some t.lower.next := LowerTree.entry_make ..
  rw [if_neg failed]
  simp only [failed, false_or, made, entry]
  cases a.instantiated with
  | false => simp
  | true =>
      simp only [if_true, true_and]
      cases a.getInode with
      | some errno =>
          -- the name is taken back, or not, and the zero is that of `vfs_create`
          simp only [reduceCtorEq, iff_false]
          rintro ⟨r, returned, reports⟩
          cases returned
          exact not_reports_of_unbound rfl (inodeAt_negative negative) reports
      | none =>
          simp only [iff_true]
          exact ⟨_, rfl, .of_bound rfl entry (Function.update_self ..) (iget_cached_self _)⟩

theorem teadfsLink_reports_iff (negative : t.dentry q = some none) :
    Reports t q (teadfsLink a p q t) ↔ (DirOp.link p q).RefusedOrBound a t := by
  unfold teadfsLink DirOp.RefusedOrBound
  by_cases failed : (t.lower.vfsLink a.vfs p q).1 ≠ 0
  · simp only [failed, ne_eq, not_false_eq_true, true_or, iff_true, if_true]
    exact .of_failed failed rfl (inodeAt_negative negative)
  obtain ⟨i, source, absent⟩ := vfsLink_absent (not_not.mp failed)
  have entry : (t.lower.vfsLink a.vfs p q).2.entry q = some i := by
    rw [vfsLink_ok source (not_not.mp failed), LowerTree.entry_name]
  rw [if_neg failed]
  simp only [failed, false_or]
  cases instantiated : a.instantiated with
  | false =>
      simp only [Bool.false_eq_true, false_and, iff_false, if_false]
      exact not_reports_of_unbound rfl (inodeAt_negative negative)
  | true =>
      simp only [entry, if_true, true_and]
      cases got : a.getInode with
      | some errno =>
          simp only [teadfsInterpose, got, errno.property.ne, ne_eq, not_false_eq_true, if_true,
            reduceCtorEq, iff_false]
          exact not_reports_of_left errno.property.ne absent entry
      | none =>
          simp only [teadfsInterpose, got, ne_eq, not_true, if_false, iff_true]
          cases t.inodeAt p with
          | none => exact .of_bound rfl entry (Function.update_self ..) (iget_cached_self i)
          | some j =>
              refine .of_bound rfl entry (Function.update_self ..) ?_
              rw [MountTree.setNlinkOf, isSome_setNlink]
              exact iget_cached_self i

theorem makeFile_reports_iff (negative : t.dentry p = some none) :
    Reports t p (makeNode a p (t.lower.vfsCreate a.vfs p) id t) ↔
      (t.lower.vfsCreate a.vfs p).1 ≠ 0 ∨ a.instantiated = true ∧ a.getInode = none := by
  refine makeNode_reports_iff negative ?_ (fun _ => rfl) (fun _ => rfl) fun _ _ => rfl
  intro success
  refine ⟨vfsCreate_absent success, t.lower.next, ?_⟩
  rw [vfsCreate_ok success, LowerTree.entry_make]

theorem teadfsMkdir_reports_iff (negative : t.dentry p = some none) :
    Reports t p (teadfsMkdir a p t) ↔ (DirOp.mkdir p).RefusedOrBound a t := by
  refine makeNode_reports_iff negative ?_ (fun _ => rfl) (fun _ => rfl)
    fun s i => isSome_setNlink p.dir i s
  intro success
  refine ⟨vfsMkdir_absent success, t.lower.next, ?_⟩
  rw [vfsMkdir_ok success]
  exact LowerTree.entry_make p true 2 t.lower

/-- **A creating operation reports what it did, unless its second step fails.** Called as the
VFS calls it, it returns, and returns zero with the name made and bound, or an error with
nothing done, exactly if its lower call refuses or what that made is bound. -/
theorem creation_reports_iff (a : DirAnswer) {t : MountTree} {op : DirOp} {p : Place}
    (creates : op.made = some p) (called : op.Called t) :
    (∃ r, op.run a t = some r ∧ Reports t p r) ↔ op.RefusedOrBound a t := by
  have returned : ∀ {r : Int × MountTree}, (∃ r', some r = some r' ∧ Reports t p r') ↔
      Reports t p r := by
    intro r
    simp
  cases op with
  | create q =>
      cases creates
      exact teadfsCreate_reports_iff called
  | link r q =>
      cases creates
      exact returned.trans (teadfsLink_reports_iff called.2)
  | symlink q =>
      cases creates
      exact returned.trans (makeFile_reports_iff called)
  | mkdir q =>
      cases creates
      exact returned.trans (teadfsMkdir_reports_iff called)
  | mknod q =>
      cases creates
      exact returned.trans (makeFile_reports_iff called)
  | _ => cases creates

end Creations

/-- The root, with the name `a` looked up and not there. -/
def lookedUp : MountTree := emptyMount.setDentry (placeIn 0 97) (some none)

theorem lookedUp_negative : lookedUp.dentry (placeIn 0 97) = some none := rfl

theorem bound_mkdir_reports :
    ∃ r, (DirOp.mkdir (placeIn 0 97)).run allWell lookedUp = some r ∧
      Reports lookedUp (placeIn 0 97) r := by
  have called : (DirOp.mkdir (placeIn 0 97)).Called lookedUp := lookedUp_negative
  exact (creation_reports_iff allWell rfl called).mpr (.inr ⟨rfl, rfl⟩)

/-- `__teadfs_get_inode` returns `-EACCES`: `teadfs_create` has taken the name back and says
that it is there, `teadfs_mkdir` has left it and says that it is not. -/
theorem unbound_creations_misreport :
    ((DirOp.create (placeIn 0 97)).Called lookedUp ∧
        ∃ r, (DirOp.create (placeIn 0 97)).run ⟨none, true, some ⟨eacces, by decide⟩, none⟩
          lookedUp = some r ∧ ¬ Reports lookedUp (placeIn 0 97) r) ∧
      (DirOp.mkdir (placeIn 0 97)).Called lookedUp ∧
        ∃ r, (DirOp.mkdir (placeIn 0 97)).run ⟨none, true, some ⟨eacces, by decide⟩, none⟩
          lookedUp = some r ∧ ¬ Reports lookedUp (placeIn 0 97) r := by
  refine ⟨⟨lookedUp_negative, _, rfl, ?_⟩, lookedUp_negative, _, rfl, ?_⟩
  · intro reports
    obtain ⟨i, entry, -⟩ := reports.1 rfl
    cases entry
  · intro reports
    have entry := congrFun (reports.2 (by decide)).1 (placeIn 0 97)
    cases entry

end Teadfs
