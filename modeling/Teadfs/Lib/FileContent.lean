/-
# Lib.FileContent — the content of a file under positioned writes and resizes

A file's content is a list. `resize` sets its length, `write` stores a block at a
position: it overwrites what is there, extends the content past its end, and fills
a gap between the old end and the position with a filler value. `slice` reads a
range, short at the end of the content.

Everything is read back through one lemma each (`getElem?_resize`,
`getElem?_write`, `getElem?_slice`), and the algebra below is derived from those:

* `write_append_left`, `prefix_write` — a write behind a prefix leaves the prefix alone;
* `map_write` — a write commutes with an elementwise encoding, the filler included;
* `write_write_adjacent` — two adjacent writes are one;
* `write_resize` — resizing up to at most the write position first changes nothing;
* `take_write_resize` — resizing further changes nothing before the end of the write;
* `slice_write_self` — what was written is read back;
* `Patched` — copies of one element written in pieces, and when they make up a resize.
-/
import Mathlib.Data.List.TakeDrop

namespace FileContent

set_option autoImplicit false

variable {α β : Type*}

/-- The content cut or filled with `z` to length `n`. -/
def resize (z : α) (n : Nat) (xs : List α) : List α := xs.takeD n z

/-- At most `n` elements from position `off` on. -/
def slice (off n : Nat) (xs : List α) : List α := (xs.drop off).take n

/-- Store the block `d` at `off`. An empty block does not move the end of the
content, wherever it is stored. -/
def write (z : α) (off : Nat) (d xs : List α) : List α :=
  if d.isEmpty then xs else resize z off xs ++ d ++ xs.drop (off + d.length)

@[simp] theorem length_resize (z : α) (n : Nat) (xs : List α) : (resize z n xs).length = n :=
  List.takeD_length n xs z

theorem resize_eq (z : α) (n : Nat) (xs : List α) :
    resize z n xs = xs.take n ++ List.replicate (n - xs.length) z := by
  unfold resize
  induction n generalizing xs with
  | zero => simp
  | succ n ih => cases xs <;> simp [ih, List.replicate_succ]

theorem getElem?_resize (z : α) (n : Nat) (xs : List α) (i : Nat) :
    (resize z n xs)[i]? = if i < n then some (xs[i]?.getD z) else none := by
  rw [resize_eq]
  grind

@[simp] theorem length_slice (off n : Nat) (xs : List α) :
    (slice off n xs).length = min n (xs.length - off) := by
  simp [slice]

theorem getElem?_slice (off n : Nat) (xs : List α) (i : Nat) :
    (slice off n xs)[i]? = if i < n then xs[off + i]? else none := by
  unfold slice
  grind

theorem slice_append_slice (off m n : Nat) (xs : List α) :
    slice off m xs ++ slice (off + m) n xs = slice off (m + n) xs := by
  rw [slice, slice, slice, ← List.drop_drop, List.take_add]

/-- A slice and what comes after it. -/
theorem slice_append_rest (off n : Nat) (xs : List α) :
    slice off n xs ++ xs.drop (off + (slice off n xs).length) = xs.drop off := by
  rw [← List.drop_drop, slice, List.length_take]
  rcases Nat.le_total n (xs.drop off).length with long | short
  · rw [Nat.min_eq_left long, List.take_append_drop]
  · rw [Nat.min_eq_right short, List.take_of_length_le short, List.drop_length, List.append_nil]

theorem getElem?_write (z : α) (off : Nat) (d xs : List α) (i : Nat) :
    (write z off d xs)[i]? =
      if d = [] then xs[i]?
      else if i < off then some (xs[i]?.getD z)
      else if i < off + d.length then d[i - off]?
      else xs[i]? := by
  unfold write
  have cut := length_resize z off xs
  have read := getElem?_resize z off xs i
  grind

@[simp] theorem write_nil (z : α) (off : Nat) (xs : List α) : write z off [] xs = xs := rfl

theorem length_write (z : α) (off : Nat) {d : List α} (xs : List α) (block : d ≠ []) :
    (write z off d xs).length = max xs.length (off + d.length) := by
  have : d.isEmpty = false := by simpa using block
  simp only [write, this, Bool.false_eq_true, if_false, List.length_append, length_resize,
    List.length_drop]
  omega

theorem write_append_left (z : α) (off : Nat) (d pre xs : List α) :
    write z (pre.length + off) d (pre ++ xs) = pre ++ write z off d xs := by
  apply List.ext_getElem?
  intro i
  simp only [getElem?_write, List.getElem?_append]
  grind

/-- A write behind the first elements leaves them, and so does a resize. -/
theorem prefix_write (z : α) {pre xs : List α} {off : Nat} (d : List α) (starts : pre <+: xs)
    (behind : pre.length ≤ off) : pre <+: write z off d xs := by
  obtain ⟨rest, rfl⟩ := starts
  rw [← Nat.add_sub_of_le behind, write_append_left]
  exact List.prefix_append ..

theorem prefix_resize (z : α) {pre xs : List α} {n : Nat} (starts : pre <+: xs)
    (behind : pre.length ≤ n) : pre <+: resize z n xs := by
  rw [resize_eq]
  exact (List.prefix_take_iff.mpr ⟨starts, behind⟩).trans (List.prefix_append ..)

theorem map_write (f : α → β) (z : α) (off : Nat) (d xs : List α) :
    (write z off d xs).map f = write (f z) off (d.map f) (xs.map f) := by
  apply List.ext_getElem?
  intro i
  simp only [getElem?_write, List.getElem?_map, List.map_eq_nil_iff, List.length_map]
  split
  · rfl
  · split
    · cases xs[i]? <;> rfl
    · split <;> rfl

theorem map_resize (f : α → β) (z : α) (n : Nat) (xs : List α) :
    (resize z n xs).map f = resize (f z) n (xs.map f) := by
  rw [resize_eq, resize_eq, List.map_append, List.map_take, List.map_replicate, List.length_map]

/-- Within or at the end of the content there is no gap, so the filler is immaterial. -/
theorem write_filler (z z' : α) {off : Nat} (d : List α) {xs : List α} (inside : off ≤ xs.length) :
    write z off d xs = write z' off d xs := by
  apply List.ext_getElem?
  intro i
  simp only [getElem?_write]
  grind

theorem slice_write_self (z : α) (off : Nat) (d xs : List α) :
    slice off d.length (write z off d xs) = d := by
  apply List.ext_getElem?
  intro i
  rw [getElem?_slice, getElem?_write]
  grind

/-- A slice is a block if every element of the block is in its place. -/
theorem slice_eq_iff (off : Nat) (d xs : List α) :
    slice off d.length xs = d ↔ ∀ i < d.length, xs[off + i]? = d[i]? := by
  constructor
  · intro same i inside
    have read := getElem?_slice off d.length xs i
    rw [same, if_pos inside] at read
    exact read.symm
  · intro there
    apply List.ext_getElem?
    intro i
    rw [getElem?_slice]
    split
    · rename_i inside
      exact there i inside
    · rename_i outside
      exact (List.getElem?_eq_none (Nat.not_lt.mp outside)).symm

/-- A block of which only `m` elements were written is there exactly if the others
were there before. -/
theorem slice_write_take_iff (z : α) (off m : Nat) (d xs : List α) :
    slice off d.length (write z off (d.take m) xs) = d ↔
      ∀ i, m ≤ i → i < d.length → xs[off + i]? = d[i]? := by
  have read : ∀ i < d.length, (slice off d.length (write z off (d.take m) xs))[i]? =
      if i < m then d[i]? else xs[off + i]? := by
    intro i inside
    have length := List.length_take (i := m) (l := d)
    rw [getElem?_slice, if_pos inside, getElem?_write]
    by_cases none : d.take m = []
    · rw [none, List.length_nil] at length
      rw [if_pos none, if_neg (by omega)]
    · grind
  constructor
  · intro same i late inside
    have old := read i inside
    rw [same, if_neg (Nat.not_lt.mpr late)] at old
    exact old.symm
  · intro there
    refine (slice_eq_iff off d _).mpr fun i inside => ?_
    have byte := read i inside
    rw [getElem?_slice, if_pos inside] at byte
    rw [byte]
    split
    · rfl
    · exact there i (by omega) inside

theorem write_write_adjacent (z : α) (off : Nat) (d e xs : List α) :
    write z (off + d.length) e (write z off d xs) = write z off (d ++ e) xs := by
  by_cases first : d = []
  · simp [first]
  by_cases second : e = []
  · simp [second]
  apply List.ext_getElem?
  intro i
  simp only [getElem?_write, List.append_eq_nil_iff, first, second, List.length_append,
    List.getElem?_append, if_false, false_and]
  grind

/-- Filling up to the write position, if the content ends before it, is what the write
does itself. -/
theorem write_resize (z : α) {n off : Nat} {d xs : List α} (block : d ≠ [])
    (grow : xs.length ≤ n) (before : n ≤ max xs.length off) :
    write z off d (resize z n xs) = write z off d xs := by
  apply List.ext_getElem?
  intro i
  simp only [getElem?_write, getElem?_resize, block, if_false]
  grind

/-- A write behind the end fills the gap. -/
theorem write_beyond (z : α) {off : Nat} {d xs : List α} (block : d ≠ [])
    (beyond : xs.length ≤ off) :
    write z off d xs = xs ++ List.replicate (off - xs.length) z ++ d := by
  have some : d.isEmpty = false := by simpa using block
  rw [write, some, resize_eq, List.take_of_length_le beyond, List.drop_eq_nil_of_le (by omega)]
  simp

/-- Filling up first, however far, changes nothing up to the end of the write. -/
theorem take_write_resize (z : α) {n off : Nat} {d xs : List α} (block : d ≠ [])
    (beyond : xs.length ≤ off) (grow : xs.length ≤ n) :
    (write z off d (resize z n xs)).take (off + d.length) = write z off d xs := by
  apply List.ext_getElem?
  intro i
  simp only [List.getElem?_take, getElem?_write, getElem?_resize, block, if_false]
  grind

@[simp] theorem resize_self (z : α) (xs : List α) : resize z xs.length xs = xs := by
  rw [resize, List.takeD_eq_take z (Nat.le_refl _), List.take_length]

theorem write_end (z : α) (d xs : List α) : write z xs.length d xs = xs ++ d := by
  by_cases none : d = []
  · simp [none]
  · simpa using write_beyond z none (Nat.le_refl xs.length)

/-- Storing filler behind the end is a resize. -/
theorem write_replicate_beyond (z : α) {off k : Nat} {xs : List α} (beyond : xs.length ≤ off)
    (some : 0 < k) : write z off (List.replicate k z) xs = resize z (off + k) xs := by
  have block : List.replicate k z ≠ [] := by simp; omega
  apply List.ext_getElem?
  intro i
  simp only [getElem?_write, getElem?_resize, List.length_replicate, block, if_false]
  grind

/-- Storing filler at the end is a resize. -/
theorem write_replicate_end (z : α) (k : Nat) (xs : List α) :
    write z xs.length (List.replicate k z) xs = resize z (xs.length + k) xs := by
  rcases Nat.eq_zero_or_pos k with rfl | positive
  · simp
  · exact write_replicate_beyond z (Nat.le_refl _) positive

/-! ## Copies of one element, written in pieces -/

/-- `ys` is `xs` with copies of `d` at the positions in `written`, and `z` in the gaps that they
leave behind the end of `xs`. -/
structure Patched (z d : α) (written : Nat → Prop) (xs ys : List α) : Prop where
  copied : ∀ i, written i → ys[i]? = some d
  kept : ∀ i, ¬ written i → i < xs.length → ys[i]? = xs[i]?
  gap : ∀ i, ¬ written i → xs.length ≤ i → (∃ j, i < j ∧ written j) → ys[i]? = some z
  behind : ∀ i, xs.length ≤ i → (∀ j, written j → j < i) → ys[i]? = none

section Patched

variable {z d : α} {written : Nat → Prop} {xs ys : List α}

theorem Patched.refl (z d : α) (xs : List α) : Patched z d (fun _ => False) xs xs where
  copied _ never := never.elim
  kept _ _ _ := rfl
  gap _ _ _ later := later.choose_spec.2.elim
  behind _ outside _ := List.getElem?_eq_none outside

/-- The next piece goes behind the others. -/
theorem Patched.write (patched : Patched z d written xs ys) {off : Nat}
    (before : ∀ j, written j → j < off) (n : Nat) :
    Patched z d (fun j => written j ∨ off ≤ j ∧ j < off + n) xs
      (write z off (List.replicate n d) ys) := by
  by_cases nothing : n = 0
  · have same : (fun j => written j ∨ off ≤ j ∧ j < off + n) = written := by
      funext j
      simp only [nothing, Nat.add_zero, eq_iff_iff, or_iff_left_iff_imp]
      omega
    rw [same, nothing]
    exact patched
  have block : List.replicate n d ≠ [] := by simpa using nothing
  have read := fun i => getElem?_write z off (List.replicate n d) ys i
  simp only [if_neg block, List.length_replicate] at read
  constructor
  · rintro i (old | ⟨lo, hi⟩)
    · rw [read, if_pos (before i old), patched.copied i old, Option.getD_some]
    · rw [read, if_neg (by omega), if_pos hi, List.getElem?_replicate_of_lt (by omega)]
  · intro i away inside
    have kept := patched.kept i (fun old => away (.inl old)) inside
    rw [read, kept]
    by_cases early : i < off
    · rw [if_pos early, List.getElem?_eq_getElem inside, Option.getD_some]
    · rw [if_neg early, if_neg (fun hi => away (.inr ⟨Nat.not_lt.mp early, hi⟩))]
  · rintro i away outside ⟨j, later, old | ⟨lo, hi⟩⟩
    · have gap := patched.gap i (fun old => away (.inl old)) outside ⟨j, later, old⟩
      rw [read, if_pos (Nat.lt_trans later (before j old)), gap, Option.getD_some]
    · have early : i < off := by
        by_contra late
        exact away (.inr ⟨Nat.not_lt.mp late, Nat.lt_trans later hi⟩)
      rw [read, if_pos early]
      by_cases more : ∃ j, i < j ∧ written j
      · rw [patched.gap i (fun old => away (.inl old)) outside more, Option.getD_some]
      · rw [patched.behind i outside fun j old => ?_, Option.getD_none]
        rcases Nat.lt_trichotomy i j with less | same | greater
        · exact absurd ⟨j, less, old⟩ more
        · exact absurd (.inl (same ▸ old)) away
        · exact greater
  · intro i outside before'
    have late : off + n ≤ i := by
      have last := before' (off + n - 1) (.inr (by omega))
      omega
    rw [read, if_neg (by omega), if_neg (by omega)]
    exact patched.behind i outside fun j old => before' j (.inl old)

/-- The pieces make up a resize with `d` if the last copy was written, only copies of `d` were
overwritten, and any gap was to be `d`. -/
theorem Patched.eq_resize_iff (patched : Patched z d written xs ys) {n : Nat}
    (inside : ∀ j, written j → j < n) :
    ys = resize d n xs ↔
      xs.length ≤ n ∧ (xs.length < n → written (n - 1)) ∧
        (∀ i, xs.length ≤ i → i < n → ¬ written i → z = d) ∧
        ∀ i x, written i → xs[i]? = some x → x = d := by
  have target := getElem?_resize d n xs
  constructor
  · intro same
    have last : xs.length < n → written (n - 1) := by
      intro longer
      by_contra unwritten
      have none := patched.behind (n - 1) (by omega) fun j old => by
        have bound := inside j old
        have other : j ≠ n - 1 := fun same => unwritten (same ▸ old)
        omega
      rw [same, target, if_pos (by omega)] at none
      cases none
    refine ⟨?_, last, ?_, ?_⟩
    · by_contra long
      have kept := patched.kept n (fun old => Nat.lt_irrefl n (inside n old)) (by omega)
      rw [same, target, if_neg (Nat.lt_irrefl n), List.getElem?_eq_getElem (by omega)] at kept
      cases kept
    · intro i outside below unwritten
      have other : i ≠ n - 1 := fun same => unwritten (same ▸ last (by omega))
      have gap := patched.gap i unwritten outside ⟨n - 1, by omega, last (by omega)⟩
      rw [same, target, if_pos below, List.getElem?_eq_none outside, Option.getD_none] at gap
      exact (Option.some.inj gap).symm
    · intro i x old there
      have byte := patched.copied i old
      rw [same, target, if_pos (inside i old), there, Option.getD_some] at byte
      exact Option.some.inj byte
  · rintro ⟨fits, last, gap, zeros⟩
    apply List.ext_getElem?
    intro i
    rw [target]
    by_cases old : written i
    · rw [patched.copied i old, if_pos (inside i old)]
      cases there : xs[i]? with
      | none => rfl
      | some x => rw [zeros i x old there, Option.getD_some]
    by_cases inner : i < xs.length
    · rw [patched.kept i old inner, if_pos (by omega), List.getElem?_eq_getElem inner,
        Option.getD_some]
    have outside := Nat.not_lt.mp inner
    by_cases below : i < n
    · have final := last (by omega)
      have other : i ≠ n - 1 := fun same => old (same ▸ final)
      rw [patched.gap i old outside ⟨n - 1, by omega, final⟩, if_pos below,
        List.getElem?_eq_none outside, Option.getD_none, gap i outside below old]
    · rw [patched.behind i outside fun j old => by have := inside j old; omega, if_neg below]

end Patched

end FileContent
