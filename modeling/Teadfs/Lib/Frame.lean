/-
# Lib.Frame — fixed-size memory frames

A frame of `n` cells is a function on `Fin n`, so nothing can be stored outside
it. `overlay` copies a block into a frame at an offset, `window` reads a range
out of it. `window_overlay` is the copy-in, copy-out law.
-/
import Mathlib.Data.List.OfFn

namespace Frame

set_option autoImplicit false

variable {α : Type*} {n : Nat}

/-- Copy the block `d` into the frame at `off`; cells outside the block keep
their value, and what would fall past the frame is not stored. -/
def overlay (frame : Fin n → α) (off : Nat) (d : List α) : Fin n → α :=
  fun i => if off ≤ i.val then (d[i.val - off]?).getD (frame i) else frame i

/-- At most `k` cells from `off` on. -/
def window (frame : Fin n → α) (off k : Nat) : List α := ((List.ofFn frame).drop off).take k

theorem overlay_of_lt {frame : Fin n → α} {d : List α} {i : Fin n} (inside : i.val < d.length) :
    overlay frame 0 d i = d[i.val] := by
  simp [overlay, inside]

@[simp] theorem overlay_nil (frame : Fin n → α) (off : Nat) : overlay frame off [] = frame := by
  funext i
  simp [overlay]

/-- A shorter block copied over a longer one of its own prefix's length wins. -/
theorem overlay_overlay {frame : Fin n → α} {off : Nat} {d e : List α}
    (same : d.length ≤ e.length) : overlay (overlay frame off d) off e = overlay frame off e := by
  funext i
  simp only [overlay]
  grind

/-- A block copied over another is a block with the end of the other behind it. -/
theorem overlay_overlay_drop (frame : Fin n → α) (d e : List α) :
    overlay (overlay frame 0 d) 0 e = overlay frame 0 (e ++ d.drop e.length) := by
  funext i
  simp only [overlay]
  grind

/-- A block of the frame's size replaces it. -/
theorem ofFn_overlay {frame : Fin n → α} {d : List α} (full : d.length = n) :
    List.ofFn (overlay frame 0 d) = d := by
  apply List.ext_getElem
  · rw [List.length_ofFn, full]
  · intro i _ inside
    rw [List.getElem_ofFn, overlay_of_lt inside]

/-- Whatever the frame held, a shorter block leaves some of it. -/
theorem overlay_eq_iff [Nontrivial α] {page : Fin n → α} {d : List α} (fits : d.length ≤ n) :
    (∀ frame : Fin n → α, overlay frame 0 d = page) ↔ d = List.ofFn page := by
  constructor
  · intro same
    have full : d.length = n := by
      by_contra short
      have inside : d.length < n := by omega
      obtain ⟨other, different⟩ := exists_ne (page ⟨d.length, inside⟩)
      have left := congrFun (same fun _ => other) ⟨d.length, inside⟩
      rw [overlay, if_pos (Nat.zero_le _), Nat.sub_zero,
        List.getElem?_eq_none (Nat.le_refl _)] at left
      exact different left
    rw [← same page, ofFn_overlay full]
  · rintro rfl frame
    funext i
    rw [overlay_of_lt (by simp), List.getElem_ofFn]

@[simp] theorem length_window (frame : Fin n → α) (off k : Nat) :
    (window frame off k).length = min k (n - off) := by
  simp [window]

theorem getElem?_window (frame : Fin n → α) (off k i : Nat) :
    (window frame off k)[i]? =
      if inside : i < k ∧ off + i < n then some (frame ⟨off + i, inside.2⟩) else none := by
  unfold window
  grind

theorem window_overlay {frame : Fin n → α} {off : Nat} {d : List α} (fits : off + d.length ≤ n)
    {k : Nat} (short : k ≤ d.length) : window (overlay frame off d) off k = d.take k := by
  apply List.ext_getElem?
  intro i
  rw [getElem?_window]
  simp only [overlay]
  grind

end Frame
