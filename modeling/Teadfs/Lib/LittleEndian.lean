/-
# Lib.LittleEndian — integer fields at fixed offsets of a byte string

`le w n` are the low `w` bytes of `n`, least significant first, and `field off w`
reads them back from a byte string at an offset (`Nat.ofDigits` over the slice).
`sle w c` and `sfield off w` are the two's complement readings. A field behind the first
part of a concatenation is read from the second (`field_append_right`), which is how a
record's fields are read off its layout.
-/
import Mathlib.Data.Nat.Digits.Lemmas
import Teadfs.Lib.FileContent

namespace LittleEndian

set_option autoImplicit false

open FileContent

/-- The low `w` bytes of `n`, least significant first. -/
def le : Nat → Nat → List UInt8
  | 0, _ => []
  | w + 1, n => UInt8.ofNat n :: le w (n / 256)

/-- The `w`-byte unsigned field at `off`. -/
def field (off w : Nat) (bytes : List UInt8) : Nat :=
  Nat.ofDigits 256 ((slice off w bytes).map UInt8.toNat)

/-- The low `w` bytes of the two's complement form of `c`. -/
def sle (w : Nat) (c : Int) : List UInt8 := le w (c % 256 ^ w).toNat

/-- The `w`-byte signed field at `off`. -/
def sfield (off w : Nat) (bytes : List UInt8) : Int := Int.bmod (field off w bytes) (256 ^ w)

@[simp] theorem length_le (w n : Nat) : (le w n).length = w := by
  induction w generalizing n with
  | zero => rfl
  | succ w ih => simp [le, ih]

@[simp] theorem length_sle (w : Nat) (c : Int) : (sle w c).length = w := length_le ..

theorem field_append_right {off k : Nat} (w : Nat) {xs : List UInt8} (ys : List UInt8)
    (at_end : off = xs.length + k) : field off w (xs ++ ys) = field k w ys := by
  unfold field slice
  rw [at_end, ← List.drop_drop, List.drop_left]

/-- A field is a word of its width. -/
theorem field_lt (off w : Nat) (bytes : List UInt8) : field off w bytes < 256 ^ w := by
  have digits : ∀ d ∈ (slice off w bytes).map UInt8.toNat, d < 256 := by
    intro d member
    obtain ⟨byte, -, rfl⟩ := List.mem_map.mp member
    exact byte.toNat_lt
  have short : ((slice off w bytes).map UInt8.toNat).length ≤ w := by
    rw [List.length_map, length_slice]
    exact Nat.min_le_left ..
  calc field off w bytes < 256 ^ ((slice off w bytes).map UInt8.toNat).length :=
        Nat.ofDigits_lt_base_pow_length (by decide) digits
    _ ≤ 256 ^ w := Nat.pow_le_pow_right (by decide) short

/-- An encoded field is read back, whatever follows it. -/
theorem field_le (w n : Nat) (ys : List UInt8) : field 0 w (le w n ++ ys) = n % 256 ^ w := by
  unfold field slice
  rw [List.drop_zero, List.take_left' (length_le w n)]
  induction w generalizing n with
  | zero => simp [le, Nat.mod_one]
  | succ w ih =>
      have byte : (UInt8.ofNat n).toNat = n % 256 := by simp
      rw [le, List.map_cons, Nat.ofDigits_cons, ih, byte, pow_succ', Nat.mod_mul]

theorem field_le_of_lt {w n : Nat} (fits : n < 256 ^ w) (ys : List UInt8) :
    field 0 w (le w n ++ ys) = n := by
  rw [field_le, Nat.mod_eq_of_lt fits]

theorem sfield_append_right {off k : Nat} (w : Nat) {xs : List UInt8} (ys : List UInt8)
    (at_end : off = xs.length + k) : sfield off w (xs ++ ys) = sfield k w ys := by
  rw [sfield, field_append_right w ys at_end, sfield]

theorem sfield_sle {w : Nat} {c : Int} (lower : -(256 ^ w) ≤ 2 * c) (upper : 2 * c < 256 ^ w)
    (ys : List UInt8) : sfield 0 w (sle w c ++ ys) = c := by
  have positive : (0 : Int) < 256 ^ w := by positivity
  have bound := Int.emod_lt_of_pos c positive
  have back : ((c % 256 ^ w).toNat : Int) = c % 256 ^ w :=
    Int.toNat_of_nonneg (Int.emod_nonneg c positive.ne')
  have fits : (c % 256 ^ w).toNat < 256 ^ w := by
    zify
    rw [back]
    exact bound
  rw [sfield, sle, field_le_of_lt fits, back]
  have cast : ((256 ^ w : Nat) : Int) = 256 ^ w := by push_cast; rfl
  rw [← cast, Int.emod_bmod, Int.bmod_eq_of_le] <;> push_cast <;> omega

end LittleEndian
