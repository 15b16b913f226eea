/-
# Teadfs.Readdir — what a directory lists

`teadfs_readdir` hands each call to the lower directory: the lower file gets the position of
the upper one, the entries pass through `teadfs_filldir` into the caller's buffer, and the
upper file gets back the position where the lower one stopped. It stops at the first entry
the buffer has no room for, or where the lower file system fails.

So a listing is cut into calls by buffers of any size and by errors, and nothing is lost or
told twice at the cuts (`readdir_once_in_order`), nor after a seek to a `d_off` that an earlier
entry had; and with room for every entry the calls come to the end (`readdir_ends`).
-/
import Mathlib.Data.List.Basic
import Teadfs.Kernel

namespace Teadfs

set_option autoImplicit false

universe u

/-- An entry of a lower directory, and the `f_pos` that finds it. -/
structure LowerEntry where
  name : List UInt8
  offset : Nat
  ino : Nat
  dType : Nat
  deriving DecidableEq, Repr

/-- A lower directory: its entries in the order of their positions. -/
structure LowerDir where
  entries : List LowerEntry
  /-- `f_pos` behind the last entry. -/
  last : Nat
  sorted : entries.Pairwise fun a b => a.offset < b.offset
  inside : ∀ e ∈ entries, e.offset < last

/-- The entries a listing has from `pos` on. -/
def LowerDir.remaining (dir : LowerDir) (pos : Nat) : List LowerEntry :=
  dir.entries.dropWhile fun e => e.offset < pos

/-- How the lower directory answers a walk: `iterate_dir` refuses it before the first entry
(the directory is dead), or the file system walks, and may fail at an entry. -/
inductive WalkAnswer where
  | refused (errno : Errno)
  | walks (failsAt : Option (Nat × Errno))

/-- The walk through the entries: its code, the position where it stopped, and what the actor
has made of its buffer. It stops at the entry the actor does not return 0 for. -/
def walk {β : Type u} (actor : β → LowerEntry → Int × β) (last : Nat) :
    Option (Nat × Errno) → List LowerEntry → β → Int × Nat × β
  | _, [], buf => (0, last, buf)
  | some (0, errno), e :: _, buf => (errno, e.offset, buf)
  | failsAt, e :: rest, buf =>
      let r := actor buf e
      if r.1 ≠ 0 then (0, e.offset, r.2)
      else walk actor last (failsAt.map fun f => (f.1 - 1, f.2)) rest r.2

/-- `iterate_dir` of the lower file at `pos`. -/
def iterateDir {β : Type u} (dir : LowerDir) (answer : WalkAnswer)
    (actor : β → LowerEntry → Int × β) (pos : Nat) (buf : β) : Int × Nat × β :=
  match answer with
  | .refused errno => (errno, pos, buf)
  | .walks failsAt => walk actor (max pos dir.last) failsAt (dir.remaining pos) buf

/-- `struct teadfs_getdents_callback`. -/
structure TeadfsGetdentsCallback (β : Type u) where
  dirent : β
  filldirCalled : Nat
  entriesWritten : Nat

/-- `teadfs_filldir`, around the `filldir` of the caller. -/
def teadfsFilldir {β : Type u} (filldir : β → LowerEntry → Int × β)
    (buf : TeadfsGetdentsCallback β) (e : LowerEntry) : Int × TeadfsGetdentsCallback β :=
  let r := filldir buf.dirent e
  (r.1, ⟨r.2, buf.filldirCalled + 1,
    if 0 ≤ r.1 then buf.entriesWritten + 1 else buf.entriesWritten⟩)

/-- An open directory: the two files, and the access times of their inodes. -/
structure DirFile where
  fPos : Nat
  lowerFPos : Nat
  atime : Nat
  lowerAtime : Nat
  deriving DecidableEq, Repr

/-- `teadfs_readdir`, for a kernel without `CONFIG_ITERATE_DIR`. The lower walk leaves the lower
inode with the access time `touched`. -/
def teadfsReaddir {β : Type u} (dir : LowerDir) (answer : WalkAnswer) (touched : Nat)
    (filldir : β → LowerEntry → Int × β) (dirent : β) (file : DirFile) : Int × β × DirFile :=
  let lowerFPos := file.fPos
  let r := iterateDir dir answer (teadfsFilldir filldir) lowerFPos ⟨dirent, 0, 0⟩
  let file := { file with lowerFPos := r.2.1, fPos := r.2.1, lowerAtime := touched }
  let buf := r.2.2
  if r.1 < 0 then (r.1, buf.dirent, file)
  else if buf.filldirCalled ≠ 0 ∧ buf.entriesWritten = 0 then (r.1, buf.dirent, file)
  else (r.1, buf.dirent, { file with atime := file.lowerAtime })

/-! ## The system call -/

/-- An entry in the caller's memory. -/
structure Dirent where
  entry : LowerEntry
  dOff : Nat
  deriving DecidableEq, Repr

/-- `struct getdents_callback`: the room left, the error, and the entries, the last one
first. -/
structure GetdentsCallback where
  count : Nat
  error : Int
  dirents : List Dirent

/-- The bytes of an entry: header, name, NUL and type, rounded up to eight. -/
def reclen (e : LowerEntry) : Nat := (18 + e.name.length + 2 + 7) / 8 * 8

/-- `d_off` of the entry before. -/
def putOffset (offset : Nat) : List Dirent → List Dirent
  | [] => []
  | d :: rest => { d with dOff := offset } :: rest

/-- The `filldir` of `getdents`. The error is set in any case, and read only if no entry was
stored. -/
def filldir (buf : GetdentsCallback) (e : LowerEntry) : Int × GetdentsCallback :=
  let buf := { buf with error := einval }
  if buf.count < reclen e then (einval, buf)
  else (0, { buf with
    count := buf.count - reclen e
    dirents := ⟨e, 0⟩ :: putOffset e.offset buf.dirents })

/-- One call: the size of the buffer, and the lower directory's part. -/
structure Getdents where
  count : Nat
  answer : WalkAnswer
  touched : Nat

/-- `getdents`: its result, the entries in the buffer, and the file. -/
def Getdents.run (dir : LowerDir) (call : Getdents) (file : DirFile) :
    Int × List Dirent × DirFile :=
  let r := teadfsReaddir dir call.answer call.touched filldir ⟨call.count, 0, []⟩ file
  let buf := r.2.1
  let error := if 0 ≤ r.1 then buf.error else r.1
  let dirents := putOffset r.2.2.fPos buf.dirents
  (if dirents = [] then error else call.count - buf.count, dirents.reverse, r.2.2)

/-- The calls one after the other: the result of the last one, all entries, and the file. -/
def listing (dir : LowerDir) : List Getdents → DirFile → List Dirent × DirFile
  | [], file => ([], file)
  | call :: calls, file =>
      let r := call.run dir file
      let rest := listing dir calls r.2.2
      (r.2.1 ++ rest.1, rest.2)

/-! ## One call -/

/-- Where a walk stops that has `rest` before it. -/
def posOf (last : Nat) : List LowerEntry → Nat
  | [] => last
  | e :: _ => e.offset

/-- Entries, each with the position of the next one. -/
def linked (last : Nat) : List LowerEntry → List Dirent
  | [] => []
  | e :: rest => ⟨e, posOf last rest⟩ :: linked last rest

/-- The entries stored one after the other. -/
def stored (taken : List LowerEntry) (dirents : List Dirent) : List Dirent :=
  taken.foldl (fun dirents e => ⟨e, 0⟩ :: putOffset e.offset dirents) dirents

theorem linked_append (last : Nat) (taken : List LowerEntry) (e : LowerEntry) :
    linked last (taken ++ [e]) = linked e.offset taken ++ [⟨e, last⟩] := by
  induction taken with
  | nil => rfl
  | cons a taken ih =>
      rw [List.cons_append, linked, ih, linked, List.cons_append]
      cases taken <;> rfl

/-- The offsets that are put when the next entry comes, and at the end, link the entries. -/
theorem putOffset_stored (last : Nat) (taken : List LowerEntry) :
    putOffset last (stored taken []) = (linked last taken).reverse := by
  induction taken using List.reverseRecOn generalizing last with
  | nil => rfl
  | append_singleton taken e ih =>
      rw [stored, List.foldl_append, linked_append, List.reverse_append, ← ih e.offset]
      rfl

theorem map_entry_linked (last : Nat) (taken : List LowerEntry) :
    (linked last taken).map Dirent.entry = taken := by
  induction taken with
  | nil => rfl
  | cons e taken ih => rw [linked, List.map_cons, ih]

theorem linked_split {last : Nat} {taken : List LowerEntry} {before after : List Dirent}
    {d : Dirent} (split : linked last taken = before ++ d :: after) :
    d.dOff = posOf last (after.map Dirent.entry) := by
  induction before generalizing taken with
  | nil =>
      cases taken with
      | nil => cases split
      | cons e taken =>
          obtain ⟨rfl, rfl⟩ := List.cons.inj split
          rw [map_entry_linked]
  | cons b before ih =>
      cases taken with
      | nil => cases split
      | cons e taken => exact ih (List.cons.inj split).2

namespace LowerDir

variable {dir : LowerDir}

theorem remaining_suffix (dir : LowerDir) (pos : Nat) :
    ∃ before, dir.entries = before ++ dir.remaining pos :=
  ⟨_, List.takeWhile_append_dropWhile.symm⟩

/-- A walk that stopped somewhere goes on there. -/
theorem remaining_posOf {b rest : List LowerEntry} {last : Nat} (end' : dir.last ≤ last)
    (split : dir.entries = b ++ rest) : dir.remaining (posOf last rest) = rest := by
  have earlier : ∀ e ∈ b, e.offset < posOf last rest := by
    intro e member
    cases rest with
    | nil =>
        have inside := dir.inside e (by rw [split]; exact List.mem_append_left _ member)
        exact Nat.lt_of_lt_of_le inside end'
    | cons next rest =>
        have sorted := dir.sorted
        rw [split] at sorted
        exact (List.pairwise_append.mp sorted).2.2 e member next (List.mem_cons_self ..)
  rw [remaining, split, List.dropWhile_append_of_pos (by simpa using earlier)]
  cases rest with
  | nil => rfl
  | cons next rest => simp [posOf]

end LowerDir

/-- The bytes that entries take. -/
def reclens (taken : List LowerEntry) : Nat := (taken.map reclen).sum

theorem reclen_pos (e : LowerEntry) : 0 < reclen e := by
  unfold reclen
  omega

/-- The buffer after an entry that has room. -/
def TeadfsGetdentsCallback.add (buf : TeadfsGetdentsCallback GetdentsCallback) (e : LowerEntry) :
    TeadfsGetdentsCallback GetdentsCallback where
  dirent := ⟨buf.dirent.count - reclen e, einval, ⟨e, 0⟩ :: putOffset e.offset buf.dirent.dirents⟩
  filldirCalled := buf.filldirCalled + 1
  entriesWritten := buf.entriesWritten + 1

/-- The walk at an entry where the lower file system does not fail. -/
theorem walk_cons (last : Nat) {failsAt : Option (Nat × Errno)} (e : LowerEntry)
    (rest : List LowerEntry) (buf : TeadfsGetdentsCallback GetdentsCallback)
    (sound : ∀ errno, failsAt ≠ some (0, errno)) :
    walk (teadfsFilldir filldir) last failsAt (e :: rest) buf =
      if buf.dirent.count < reclen e then
        (0, e.offset, ⟨{ buf.dirent with error := einval }, buf.filldirCalled + 1,
          buf.entriesWritten⟩)
      else walk (teadfsFilldir filldir) last (failsAt.map fun f => (f.1 - 1, f.2)) rest
        (buf.add e) := by
  have refuses : einval ≠ 0 ∧ ¬ (0 : Int) ≤ einval := by decide
  cases failsAt with
  | none =>
      rw [walk]
      by_cases full : buf.dirent.count < reclen e
      · simp [teadfsFilldir, filldir, full, refuses]
      · simp [teadfsFilldir, filldir, full, TeadfsGetdentsCallback.add]
      · nofun
  | some at' =>
      obtain ⟨k, errno⟩ := at'
      cases k with
      | zero => exact absurd rfl (sound errno)
      | succ k =>
          rw [walk]
          by_cases full : buf.dirent.count < reclen e
          · simp [teadfsFilldir, filldir, full, refuses]
          · simp [teadfsFilldir, filldir, full, TeadfsGetdentsCallback.add]
          · rintro errno ⟨⟩

/-- How a walk into a caller's buffer ends: it has taken the entries `taken`, which had room,
and stops behind the last entry, at one that has no room, or where it fails. -/
structure Walked (last : Nat) (failsAt : Option (Nat × Errno)) (entries : List LowerEntry)
    (buf : GetdentsCallback) (rc : Int) (pos : Nat) (buf' : GetdentsCallback)
    (taken rest : List LowerEntry) : Prop where
  split : entries = taken ++ rest
  pos : pos = posOf last rest
  dirents : buf'.dirents = stored taken buf.dirents
  count : buf'.count + reclens taken = buf.count
  stops : (rest = [] ∧ rc = 0 ∧ (taken = [] → buf'.error = buf.error)) ∨
    (∃ e tail, rest = e :: tail ∧ rc = 0 ∧ buf'.error = einval ∧ buf'.count < reclen e) ∨
    (failsAt ≠ none ∧ rc < 0)

/-- One entry more before a walk. -/
theorem Walked.cons {last : Nat} {failsAt failsAt' : Option (Nat × Errno)}
    {entries taken rest : List LowerEntry} {buf buf' : GetdentsCallback} {rc : Int} {pos : Nat}
    {e : LowerEntry} (fits : reclen e ≤ buf.count) (fails : failsAt' ≠ none → failsAt ≠ none)
    (walked : Walked last failsAt' entries
      ⟨buf.count - reclen e, einval, ⟨e, 0⟩ :: putOffset e.offset buf.dirents⟩ rc pos buf'
      taken rest) :
    Walked last failsAt (e :: entries) buf rc pos buf' (e :: taken) rest where
  split := by rw [walked.split, List.cons_append]
  pos := walked.pos
  dirents := walked.dirents
  count := by
    have := walked.count
    simp only [reclens, List.map_cons, List.sum_cons] at this ⊢
    omega
  stops := by
    rcases walked.stops with ⟨done, rc, -⟩ | full | ⟨failed, rc⟩
    · exact .inl ⟨done, rc, nofun⟩
    · exact .inr (.inl full)
    · exact .inr (.inr ⟨fails failed, rc⟩)

theorem walk_filldir (last : Nat) (entries : List LowerEntry) (failsAt : Option (Nat × Errno))
    (buf : TeadfsGetdentsCallback GetdentsCallback) :
    let r := walk (teadfsFilldir filldir) last failsAt entries buf
    ∃ taken rest, Walked last failsAt entries buf.dirent r.1 r.2.1 r.2.2.dirent taken rest := by
  induction entries generalizing failsAt buf with
  | nil =>
      refine ⟨[], [], rfl, ?_, ?_, ?_, .inl ⟨rfl, ?_, fun _ => ?_⟩⟩ <;>
        simp [walk, posOf, stored, reclens]
  | cons e entries ih =>
      by_cases sound : ∀ errno, failsAt ≠ some (0, errno)
      · rw [walk_cons last e entries buf sound]
        by_cases full : buf.dirent.count < reclen e
        · rw [if_pos full]
          exact ⟨[], e :: entries, rfl, rfl, rfl, rfl,
            .inr (.inl ⟨e, entries, rfl, rfl, rfl, full⟩)⟩
        · rw [if_neg full]
          obtain ⟨taken, rest, walked⟩ := ih (failsAt.map fun f => (f.1 - 1, f.2)) (buf.add e)
          refine ⟨e :: taken, rest, walked.cons (Nat.not_lt.mp full) ?_⟩
          simp
      · obtain ⟨errno, rfl⟩ := not_forall_not.mp sound
        refine ⟨[], e :: entries, rfl, rfl, rfl, rfl, .inr (.inr ⟨nofun, errno.2⟩)⟩

theorem posOf_append (last : Nat) (taken rest : List LowerEntry) :
    posOf last (taken ++ rest) = posOf (posOf last rest) taken := by
  cases taken <;> rfl

/-- What a call does with the file and the buffer, and when it returns what. -/
structure Getdents.Ran (dir : LowerDir) (call : Getdents) (file : DirFile)
    (r : Int × List Dirent × DirFile) : Prop where
  split : r.2.1.map Dirent.entry ++ dir.remaining r.2.2.fPos = dir.remaining file.fPos
  offsets : ∀ before d after, r.2.1 = before ++ d :: after →
    dir.remaining d.dOff = after.map Dirent.entry ++ dir.remaining r.2.2.fPos
  ended : r.1 = 0 → dir.remaining file.fPos = []
  stored : 0 < r.1 ↔ r.2.1 ≠ []
  sound : call.answer = .walks none → dir.remaining file.fPos = [] → r.1 = 0
  room : call.answer = .walks none → (∀ e ∈ dir.entries, reclen e ≤ call.count) →
    dir.remaining file.fPos ≠ [] → r.2.1 ≠ []

/-- `teadfs_readdir` passes on the code and the buffer of the walk, and both files stand where
it stopped. -/
theorem teadfsReaddir_walk {β : Type u} (dir : LowerDir) (answer : WalkAnswer) (touched : Nat)
    (filldir : β → LowerEntry → Int × β) (dirent : β) (file : DirFile) :
    let r := iterateDir dir answer (teadfsFilldir filldir) file.fPos ⟨dirent, 0, 0⟩
    let out := teadfsReaddir dir answer touched filldir dirent file
    out.1 = r.1 ∧ out.2.1 = r.2.2.dirent ∧ out.2.2.fPos = r.2.1 ∧ out.2.2.lowerFPos = r.2.1 := by
  dsimp only [teadfsReaddir]
  split_ifs <;> exact ⟨rfl, rfl, rfl, rfl⟩

/-- What `getdents` makes of a walk of the lower directory. -/
theorem Getdents.run_walks (dir : LowerDir) (call : Getdents) (file : DirFile)
    {failsAt : Option (Nat × Errno)} (answer : call.answer = .walks failsAt) :
    ∃ taken rest rc buf,
      Walked (max file.fPos dir.last) failsAt (dir.remaining file.fPos) ⟨call.count, 0, []⟩ rc
        (call.run dir file).2.2.fPos buf taken rest ∧
      (call.run dir file).2.1 = linked (call.run dir file).2.2.fPos taken ∧
      (call.run dir file).1 =
        if taken = [] then (if 0 ≤ rc then buf.error else rc) else call.count - buf.count := by
  obtain ⟨taken, rest, walked⟩ := walk_filldir (max file.fPos dir.last) (dir.remaining file.fPos)
    failsAt ⟨⟨call.count, 0, []⟩, 0, 0⟩
  have passed := teadfsReaddir_walk dir call.answer call.touched filldir ⟨call.count, 0, []⟩ file
  simp only [answer, iterateDir] at passed
  obtain ⟨code, buffer, pos, -⟩ := passed
  rw [← code, ← pos, ← buffer] at walked
  simp only [Getdents.run, answer]
  generalize teadfsReaddir dir (.walks failsAt) call.touched filldir ⟨call.count, 0, []⟩ file = out
    at walked
  refine ⟨taken, rest, out.1, out.2.1, walked, ?_, ?_⟩
  · rw [walked.dirents, putOffset_stored, List.reverse_reverse]
  · have none : putOffset out.2.2.fPos out.2.1.dirents = [] ↔ taken = [] := by
      rw [walked.dirents, putOffset_stored, List.reverse_eq_nil_iff]
      cases taken <;> simp [linked]
    simp only [none]

theorem reclens_pos {taken : List LowerEntry} (some' : taken ≠ []) : 0 < reclens taken := by
  cases taken with
  | nil => exact absurd rfl some'
  | cons e taken =>
      have := reclen_pos e
      simp only [reclens, List.map_cons, List.sum_cons]
      omega

/-- The result says whether there are entries, and whether there can be more. -/
theorem Walked.result {last count pos : Nat} {failsAt : Option (Nat × Errno)}
    {entries taken rest : List LowerEntry} {buf : GetdentsCallback} {rc : Int}
    (walked : Walked last failsAt entries ⟨count, 0, []⟩ rc pos buf taken rest) :
    let result : Int := if taken = [] then (if 0 ≤ rc then buf.error else rc)
      else count - buf.count
    (result = 0 ↔ taken = [] ∧ rest = [] ∧ rc = 0) ∧ (0 < result ↔ taken ≠ []) := by
  by_cases empty : taken = []
  · simp only [empty, if_true, true_and, ne_eq, not_true, iff_false]
    rcases walked.stops with ⟨done, code, same⟩ | ⟨e, tail, more, code, full, -⟩ | ⟨-, failed⟩
    · simp [done, code, same empty]
    · simp [more, code, full, einval]
    · have negative := Int.not_le.mpr failed
      simp only [negative, if_false]
      exact ⟨⟨fun zero => absurd zero failed.ne, fun zero => zero.2⟩,
        fun positive => absurd positive (by omega)⟩
  · have taken' := reclens_pos empty
    have total : buf.count + reclens taken = count := walked.count
    simp only [empty, if_false, false_and, iff_false, ne_eq, not_false_iff, iff_true]
    omega

/-- Every call keeps the account. -/
theorem Getdents.run_ran (dir : LowerDir) (call : Getdents) (file : DirFile) :
    call.Ran dir file (call.run dir file) := by
  cases answer : call.answer with
  | refused errno =>
      have passed :=
        teadfsReaddir_walk dir call.answer call.touched filldir ⟨call.count, 0, []⟩ file
      simp only [answer, iterateDir] at passed
      obtain ⟨code, buffer, pos, -⟩ := passed
      have negative := errno.2
      have run : (call.run dir file).1 = errno.1 ∧ (call.run dir file).2.1 = [] ∧
          (call.run dir file).2.2.fPos = file.fPos := by
        simp only [Getdents.run, answer, code, buffer, pos, putOffset, List.reverse_nil, if_true,
          Int.not_le.mpr negative, if_false, and_self]
      obtain ⟨result, delivered, stays⟩ := run
      refine ⟨?_, ?_, ?_, ?_, ?_, ?_⟩
      · rw [delivered, stays]
        rfl
      · intro before d after split
        rw [delivered] at split
        simp at split
      · intro zero
        omega
      · simp only [result, delivered, ne_eq, not_true, iff_false]
        omega
      · intro sound
        rw [answer] at sound
        cases sound
      · intro sound
        rw [answer] at sound
        cases sound
  | walks failsAt =>
      obtain ⟨taken, rest, rc, buf, walked, delivered, result⟩ := call.run_walks dir file answer
      obtain ⟨zero, positive⟩ := walked.result
      rw [← result] at zero positive
      obtain ⟨skipped, whole⟩ := dir.remaining_suffix file.fPos
      rw [walked.split] at whole
      have behind : dir.last ≤ max file.fPos dir.last := Nat.le_max_right ..
      have left : dir.remaining (call.run dir file).2.2.fPos = rest := by
        rw [walked.pos]
        exact LowerDir.remaining_posOf (b := skipped ++ taken) behind
          (by rw [whole, List.append_assoc])
      have entries : (call.run dir file).2.1.map Dirent.entry = taken := by
        rw [delivered, map_entry_linked]
      have nothing : (call.run dir file).2.1 ≠ [] ↔ taken ≠ [] := by
        rw [← entries, ne_eq, ne_eq, List.map_eq_nil_iff]
      refine ⟨?_, ?_, ?_, ?_, ?_, ?_⟩
      · rw [entries, left, walked.split]
      · intro before d after split
        rw [split, List.map_append, List.map_cons] at entries
        have next : d.dOff = posOf (call.run dir file).2.2.fPos (after.map Dirent.entry) :=
          linked_split (delivered.symm.trans split)
        rw [left, next, walked.pos, ← posOf_append]
        refine LowerDir.remaining_posOf
          (b := skipped ++ (before.map Dirent.entry ++ [d.entry])) behind ?_
        rw [whole, ← entries]
        simp
      · intro ended
        obtain ⟨none, done, -⟩ := zero.mp ended
        rw [walked.split, none, done]
        rfl
      · rw [positive, nothing]
      · intro sound finished
        rw [answer] at sound
        cases sound
        rw [walked.split, List.append_eq_nil_iff] at finished
        rcases walked.stops with ⟨done, code, -⟩ | ⟨e, tail, more, -⟩ | ⟨failed, -⟩
        · exact zero.mpr ⟨finished.1, done, code⟩
        · rw [finished.2] at more
          cases more
        · exact absurd rfl failed
      · intro sound room more
        rw [answer] at sound
        cases sound
        rw [nothing]
        rintro rfl
        rcases walked.stops with ⟨done, -⟩ | ⟨e, tail, stopped, -, -, full⟩ | ⟨failed, -⟩
        · rw [walked.split, done] at more
          exact more rfl
        · have fits := room e (by rw [whole, stopped]; simp)
          have total := walked.count
          simp only [reclens, List.map_nil, List.sum_nil] at total
          omega
        · exact absurd rfl failed

/-! ## A listing -/

theorem listing_account (dir : LowerDir) (calls : List Getdents) (file : DirFile) :
    (listing dir calls file).1.map Dirent.entry ++ dir.remaining (listing dir calls file).2.fPos =
      dir.remaining file.fPos := by
  induction calls generalizing file with
  | nil => rfl
  | cons call calls ih =>
      rw [listing, List.map_append, List.append_assoc, ih, (call.run_ran dir file).split]

/-- **Every entry once, in order.** However the listing is cut into calls, by buffers of any
size, entries that do not fit, and lower errors: what the calls store, followed by what the
file still has before it, is what it had before it; a file set to the `d_off` of a stored
entry has before it what follows that entry; and a call that returns 0 comes when everything
is stored. -/
theorem readdir_once_in_order (dir : LowerDir) (calls : List Getdents) (file : DirFile) :
    let r := listing dir calls file
    r.1.map Dirent.entry ++ dir.remaining r.2.fPos = dir.remaining file.fPos ∧
      (∀ before d after, r.1 = before ++ d :: after →
        dir.remaining d.dOff = after.map Dirent.entry ++ dir.remaining r.2.fPos) ∧
      ∀ call : Getdents, (call.run dir r.2).1 = 0 →
        r.1.map Dirent.entry = dir.remaining file.fPos := by
  refine ⟨listing_account dir calls file, ?_, ?_⟩
  · induction calls generalizing file with
    | nil => exact fun before d after split => absurd split (by simp [listing])
    | cons call calls ih =>
        intro before d after split
        have ran := call.run_ran dir file
        have later := ih (call.run dir file).2.2
        rw [listing] at split ⊢
        rcases List.append_eq_append_iff.mp split with ⟨before', -, inside⟩ | ⟨after', first, rest⟩
        · exact later before' d after inside
        · cases after' with
          | nil => exact later [] d after rest.symm
          | cons d' after' =>
              -- the entry is of this call, and what follows it of this one and the later ones
              obtain ⟨rfl, rfl⟩ := List.cons.inj rest
              rw [ran.offsets before d after' first, ← listing_account dir calls,
                ← List.append_assoc, ← List.map_append]
              rfl
  · intro call ended
    have account := listing_account dir calls file
    rw [(call.run_ran dir (listing dir calls file).2).ended ended, List.append_nil] at account
    exact account

/-- **A listing comes to its end.** Where the lower directory does not fail and every entry has
room, as many calls as there are entries store them all, and one call more returns 0. -/
theorem readdir_ends (dir : LowerDir) (calls : List Getdents) (last : Getdents) (file : DirFile)
    (sound : ∀ call ∈ last :: calls, call.answer = .walks none)
    (room : ∀ call ∈ calls, ∀ e ∈ dir.entries, reclen e ≤ call.count)
    (enough : (dir.remaining file.fPos).length ≤ calls.length) :
    let r := listing dir calls file
    r.1.map Dirent.entry = dir.remaining file.fPos ∧ (last.run dir r.2).1 = 0 := by
  dsimp only
  induction calls generalizing file with
  | nil =>
      have none : dir.remaining file.fPos = [] := by
        simpa using enough
      refine ⟨none.symm, ?_⟩
      exact (last.run_ran dir file).sound (sound last (List.mem_cons_self ..)) none
  | cons call calls ih =>
      have ran := call.run_ran dir file
      have stored := ran.room (sound call (by simp)) (room call (by simp))
      obtain ⟨all, zero⟩ := ih (call.run dir file).2.2
        (fun c member => sound c (by simp only [List.mem_cons] at member ⊢; tauto))
        (fun c member => room c (List.mem_cons_of_mem _ member)) (by
          -- a call that has anything left stores an entry at least
          have split := congrArg List.length ran.split
          rw [List.length_append, List.length_map] at split
          simp only [List.length_cons] at enough
          by_cases more : dir.remaining file.fPos = []
          · rw [more, List.length_nil] at split
            omega
          · have := List.length_pos_iff.mpr (stored more)
            omega)
      refine ⟨?_, zero⟩
      rw [listing, List.map_append, all, ran.split]

/-- Two files, at positions that are far apart. -/
def exampleDir : LowerDir where
  entries := [⟨[0x61], 0, 11, 8⟩, ⟨[0x62, 0x63], 500, 12, 8⟩]
  last := 700
  sorted := by decide
  inside := by decide

/-- A buffer for one short name. -/
def oneShort : Getdents := ⟨32, .walks none, 1⟩

theorem readdir_ends_exampleDir :
    (listing exampleDir [oneShort, oneShort] ⟨0, 0, 0, 0⟩).1.map Dirent.entry =
      exampleDir.entries :=
  (readdir_ends exampleDir [oneShort, oneShort] oneShort ⟨0, 0, 0, 0⟩
    (by simp [oneShort]) (by simp [oneShort, exampleDir, reclen]) (by decide)).1

end Teadfs
