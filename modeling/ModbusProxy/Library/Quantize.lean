import Mathlib.Data.Rat.Floor
import Mathlib.Tactic

/-!
# Numbers in fixed-width fields

A number that is stored in units of `1 / s` is multiplied by `s`, cut off to an integer as
a C conversion does it, and put into a field of so many bits. This module has the cut-off
and its error, when a field of bits gives back the integer that it was given, and the
integer that a signed field can represent and that is next to a given one.
-/

namespace ModbusProxy.Quantize

/-- A conversion to an integer type: the fraction is cut off. -/
def trunc (x : ℚ) : ℤ := if 0 ≤ x then ⌊x⌋ else ⌈x⌉

theorem trunc_of_nonneg {x : ℚ} (h : 0 ≤ x) : trunc x = ⌊x⌋ := if_pos h

theorem trunc_of_neg {x : ℚ} (h : x < 0) : trunc x = ⌈x⌉ := if_neg (not_le.mpr h)

@[simp] theorem trunc_intCast (z : ℤ) : trunc z = z := by
  unfold trunc
  split
  · exact Int.floor_intCast z
  · exact Int.ceil_intCast z

/-- The cut-off moves a number by less than one. -/
theorem abs_trunc_sub_lt (x : ℚ) : |(trunc x : ℚ) - x| < 1 := by
  rw [abs_lt]
  rcases le_or_gt 0 x with h | h
  · rw [trunc_of_nonneg h]
    have hle := Int.floor_le x
    have hlt := Int.lt_floor_add_one x
    constructor <;> linarith
  · rw [trunc_of_neg h]
    have hle := Int.le_ceil x
    have hlt := Int.ceil_lt_add_one x
    constructor <;> linarith

theorem le_trunc {z : ℤ} {x : ℚ} (h : (z : ℚ) ≤ x) : z ≤ trunc x := by
  rcases le_or_gt 0 x with hx | hx
  · rw [trunc_of_nonneg hx]
    exact Int.le_floor.mpr h
  · rw [trunc_of_neg hx]
    exact_mod_cast h.trans (Int.le_ceil x)

theorem trunc_le {z : ℤ} {x : ℚ} (h : x ≤ z) : trunc x ≤ z := by
  rcases le_or_gt 0 x with hx | hx
  · rw [trunc_of_nonneg hx]
    exact_mod_cast (Int.floor_le x).trans h
  · rw [trunc_of_neg hx]
    exact Int.ceil_le.mpr h

theorem trunc_le_self {x : ℚ} (h : 0 ≤ x) : (trunc x : ℚ) ≤ x := by
  rw [trunc_of_nonneg h]
  exact Int.floor_le x

theorem self_le_trunc {x : ℚ} (h : x < 0) : x ≤ trunc x := by
  rw [trunc_of_neg h]
  exact Int.le_ceil x

theorem trunc_nonneg {x : ℚ} (h : 0 ≤ x) : 0 ≤ trunc x := le_trunc (by exact_mod_cast h)

/-- The numbers that are cut off to `z`. -/
theorem trunc_eq {z : ℤ} {x : ℚ} (hz : 0 ≤ z) (h : (z : ℚ) ≤ x) (hlt : x < z + 1) : trunc x = z := by
  have hx : 0 ≤ x := le_trans (by exact_mod_cast hz) h
  rw [trunc_of_nonneg hx]
  exact Int.floor_eq_iff.mpr ⟨h, hlt⟩

/-- In units of `1 / s` the cut-off moves a number by less than one unit. -/
theorem abs_trunc_div_sub_lt {s : ℚ} (hs : 0 < s) (x : ℚ) : |(trunc (x * s) : ℚ) / s - x| < 1 / s := by
  have h := abs_trunc_sub_lt (x * s)
  have heq : (trunc (x * s) : ℚ) / s - x = ((trunc (x * s) : ℚ) - x * s) / s := by
    field_simp
  rw [heq, abs_div, abs_of_pos hs]
  exact div_lt_div_of_pos_right h hs

/-- A signed field gives back what it can represent. -/
theorem toInt_ofInt_of_mem {w : ℕ} (hw : 0 < w) {z : ℤ} (h : -2 ^ (w - 1) ≤ z ∧ z ≤ 2 ^ (w - 1) - 1) :
    (BitVec.ofInt w z).toInt = z :=
  BitVec.toInt_ofInt_eq_self hw h.1 (by omega)

/-- What a signed field gives back differs by a multiple of its range from what it was given. -/
theorem toInt_ofInt_eq_iff {w : ℕ} (hw : 0 < w) {z r : ℤ} (h : -2 ^ (w - 1) ≤ r ∧ r ≤ 2 ^ (w - 1) - 1) :
    (BitVec.ofInt w z).toInt = r ↔ (2 ^ w : ℤ) ∣ z - r := by
  have hr : r.bmod (2 ^ w) = r := (BitVec.toInt_ofInt r).symm.trans (toInt_ofInt_of_mem hw h)
  rw [BitVec.toInt_ofInt]
  constructor
  · intro heq
    exact_mod_cast Int.dvd_self_sub_of_bmod_eq heq
  · rintro ⟨k, hk⟩
    have hz : z = r + ((2 ^ w : ℕ) : ℤ) * k := by
      push_cast
      omega
    rw [hz, Int.add_mul_bmod_self_left, hr]

/-- An unsigned field gives back what it can represent. -/
theorem toNat_ofInt_of_mem {w : ℕ} {z : ℤ} (h : 0 ≤ z ∧ z ≤ 2 ^ w - 1) : ((BitVec.ofInt w z).toNat : ℤ) = z := by
  rw [BitVec.toNat_ofInt]
  have hmod : z % ((2 ^ w : ℕ) : ℤ) = z := Int.emod_eq_of_lt h.1 (by push_cast; omega)
  rw [hmod]
  exact Int.toNat_of_nonneg h.1

/-! ### Saturation -/

/-- The number next to `z` that a signed field of `w` bits can represent. -/
def saturate (w : ℕ) (z : ℤ) : ℤ := max (-2 ^ (w - 1)) (min z (2 ^ (w - 1) - 1))

theorem saturate_monotone (w : ℕ) : Monotone (saturate w) := fun _ _ h =>
  max_le_max_left _ (min_le_min_right _ h)

theorem saturate_mem (w : ℕ) (z : ℤ) : -2 ^ (w - 1) ≤ saturate w z ∧ saturate w z ≤ 2 ^ (w - 1) - 1 := by
  have hpos : (0 : ℤ) < 2 ^ (w - 1) := by positivity
  exact ⟨le_max_left _ _, max_le (by omega) (min_le_right _ _)⟩

theorem saturate_of_gt {w : ℕ} {z : ℤ} (h : 2 ^ (w - 1) - 1 < z) : saturate w z = 2 ^ (w - 1) - 1 := by
  have hpos : (0 : ℤ) < 2 ^ (w - 1) := by positivity
  rw [saturate, min_eq_right h.le, max_eq_right (by omega)]

theorem saturate_of_lt {w : ℕ} {z : ℤ} (h : z < -2 ^ (w - 1)) : saturate w z = -2 ^ (w - 1) := by
  rw [saturate, max_eq_left ((min_le_left _ _).trans h.le)]

theorem saturate_of_mem {w : ℕ} {z : ℤ} (h : -2 ^ (w - 1) ≤ z ∧ z ≤ 2 ^ (w - 1) - 1) : saturate w z = z := by
  rw [saturate, min_eq_left h.2, max_eq_right h.1]

/-- Saturation keeps the sign. -/
theorem saturate_sign (w : ℕ) (z : ℤ) : (0 ≤ z → 0 ≤ saturate w z) ∧ (z < 0 → saturate w z < 0) := by
  have hpos : (0 : ℤ) < 2 ^ (w - 1) := by positivity
  unfold saturate
  omega

end ModbusProxy.Quantize
