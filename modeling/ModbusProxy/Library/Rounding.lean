import Mathlib.Data.Int.Log
import Mathlib.Data.Rat.Floor
import Mathlib.Tactic

/-!
# Rounding to nearest

A number is rounded to the nearest integer, and of two that are equally near to the even
one. Rounding to `p` binary digits is the same in units of the last of them: the unit is a
power of two, and there are between `2 ^ (p - 1)` and `2 ^ p` of it in the number. There
are no least and no greatest exponents here.
-/

namespace ModbusProxy.Rounding

/-! ### To integers -/

/-- The nearest integer, and of two nearest ones the even one. -/
def nearestEven (x : ℚ) : ℤ :=
  if x - ⌊x⌋ < 1 / 2 then ⌊x⌋
  else if 1 / 2 < x - ⌊x⌋ then ⌊x⌋ + 1
  else ⌊x⌋ + ⌊x⌋ % 2

/-- The integers that a number is rounded to. -/
theorem nearestEven_eq {x : ℚ} {z : ℤ} (h : |x - z| < 1 / 2 ∨ |x - z| = 1 / 2 ∧ 2 ∣ z) : nearestEven x = z := by
  have hlow := Int.floor_le x
  have hhigh := Int.lt_floor_add_one x
  have habs : |x - z| ≤ 1 / 2 := h.elim le_of_lt fun h => h.1.le
  obtain ⟨h1, h2⟩ := abs_le.mp habs
  -- the integer is next to the number, on one side or the other
  have hz : z = ⌊x⌋ ∨ z = ⌊x⌋ + 1 := by
    have hlt : (⌊x⌋ : ℚ) < z + 1 := by linarith
    have hgt : (z : ℚ) < ⌊x⌋ + 2 := by linarith
    have hlt' : ⌊x⌋ < z + 1 := by exact_mod_cast hlt
    have hgt' : z < ⌊x⌋ + 2 := by exact_mod_cast hgt
    omega
  unfold nearestEven
  rcases hz with hz | hz
  · rw [hz] at h h2
    rcases h with h | ⟨h, heven⟩
    · exact (if_pos (abs_lt.mp h).2).trans hz.symm
    · have hhalf : x - ⌊x⌋ = 1 / 2 := by rwa [abs_of_nonneg (by linarith)] at h
      rw [if_neg (by rw [hhalf]; exact lt_irrefl _), if_neg (by rw [hhalf]; exact lt_irrefl _), hz]
      omega
  · rw [hz] at h h1
    push_cast at h h1
    rcases h with h | ⟨h, hodd⟩
    · have hgt : 1 / 2 < x - ⌊x⌋ := by linarith [(abs_lt.mp h).1]
      rw [if_neg (by linarith), if_pos hgt, hz]
    · have hhalf : x - ⌊x⌋ = 1 / 2 := by
        rw [abs_of_nonpos (by linarith)] at h
        linarith
      rw [if_neg (by rw [hhalf]; exact lt_irrefl _), if_neg (by rw [hhalf]; exact lt_irrefl _), hz]
      omega

@[simp] theorem nearestEven_intCast (z : ℤ) : nearestEven z = z :=
  nearestEven_eq (.inl (by rw [sub_self, abs_zero]; norm_num))

/-- Rounding moves a number by at most one half. -/
theorem abs_nearestEven_sub_le (x : ℚ) : |(nearestEven x : ℚ) - x| ≤ 1 / 2 := by
  have hlow := Int.floor_le x
  have hhigh := Int.lt_floor_add_one x
  have hmod : (0 : ℚ) ≤ (⌊x⌋ % 2 : ℤ) ∧ ((⌊x⌋ % 2 : ℤ) : ℚ) ≤ 1 := by
    constructor
    · exact_mod_cast Int.emod_nonneg _ (by decide)
    · exact_mod_cast (show ⌊x⌋ % 2 ≤ 1 by omega)
  unfold nearestEven
  split
  · rw [abs_of_nonpos (by linarith)]
    linarith
  · split
    · push_cast
      rw [abs_of_nonneg (by linarith)]
      linarith
    · push_cast
      rw [abs_le]
      constructor <;> linarith [hmod.1, hmod.2]

/-- Rounding to decimals moves a number by half a unit of the last one at most. -/
theorem abs_nearestEven_div_sub_le (y : ℚ) (d : ℕ) : |(nearestEven (y * 10 ^ d) : ℚ) / 10 ^ d - y| ≤ 1 / (2 * 10 ^ d) := by
  have hpos : (0 : ℚ) < 10 ^ d := by positivity
  have heq : (nearestEven (y * 10 ^ d) : ℚ) / 10 ^ d - y = (nearestEven (y * 10 ^ d) - y * 10 ^ d) / 10 ^ d := by
    rw [sub_div, mul_div_cancel_right₀ _ hpos.ne']
  rw [heq, abs_div, abs_of_pos hpos, ← div_div]
  exact div_le_div_of_nonneg_right (abs_nearestEven_sub_le _) hpos.le

theorem nearestEven_neg (x : ℚ) : nearestEven (-x) = -nearestEven x := by
  apply nearestEven_eq
  have hneg : |-x - ((-nearestEven x : ℤ) : ℚ)| = |(nearestEven x : ℚ) - x| := by
    push_cast
    congr 1
    ring
  rw [hneg]
  rcases lt_or_eq_of_le (abs_nearestEven_sub_le x) with hlt | heq
  · exact .inl hlt
  · refine .inr ⟨heq, ?_⟩
    -- only half an integer is moved by one half
    have hlow := Int.floor_le x
    have hhigh := Int.lt_floor_add_one x
    unfold nearestEven at heq ⊢
    split at heq
    · rw [abs_of_nonpos (by linarith)] at heq
      linarith
    · split at heq
      · push_cast at heq
        rw [abs_of_nonneg (by linarith)] at heq
        linarith
      · rw [if_neg (by assumption), if_neg (by assumption)]
        omega

theorem nearestEven_mono : Monotone nearestEven := by
  intro x y hxy
  by_contra hlt
  have hx := abs_le.mp (abs_nearestEven_sub_le x)
  have hy := abs_le.mp (abs_nearestEven_sub_le y)
  have hle : nearestEven y + 1 ≤ nearestEven x := by omega
  have hle' : (nearestEven y : ℚ) + 1 ≤ nearestEven x := by exact_mod_cast hle
  -- the two differ by one, and the numbers are equal and half-way between them
  have heq : x = y := by linarith
  rw [heq] at hlt
  exact hlt le_rfl

/-! ### To binary digits -/

/-- The unit of the last of `p` binary digits of a number. -/
def unit (p : ℕ) (x : ℚ) : ℚ := 2 ^ (Int.log 2 |x| + 1 - p)

/-- The number rounded to `p` binary digits. -/
def toBinary (p : ℕ) (x : ℚ) : ℚ := nearestEven (x / unit p x) * unit p x

variable {p : ℕ} {x : ℚ}

theorem unit_pos (p : ℕ) (x : ℚ) : 0 < unit p x := zpow_pos (by norm_num) _

@[simp] theorem unit_neg (p : ℕ) (x : ℚ) : unit p (-x) = unit p x := by rw [unit, unit, abs_neg]

theorem two_zpow_mul_pow (e : ℤ) (n : ℕ) : (2 : ℚ) ^ e * 2 ^ n = 2 ^ (e + n) := by
  rw [zpow_add₀ (by norm_num), zpow_natCast]

/-- The number of units in a number has `p` digits. -/
theorem unit_mul_le (hx : x ≠ 0) : unit p x * 2 ^ p ≤ 2 * |x| ∧ |x| < unit p x * 2 ^ p := by
  have hpos : 0 < |x| := abs_pos.mpr hx
  have hlow := Int.zpow_log_le_self (b := 2) (by decide) hpos
  have hhigh := Int.lt_zpow_succ_log_self (b := 2) (by decide) |x|
  push_cast at hlow hhigh
  have hunit : unit p x * 2 ^ p = 2 ^ (Int.log 2 |x| + 1) := by
    rw [unit, two_zpow_mul_pow, sub_add_cancel]
  rw [hunit]
  refine ⟨?_, hhigh⟩
  rw [zpow_add_one₀ (by norm_num)]
  linarith

/-- A power of two of which there are so many in a number is its unit. -/
theorem unit_eq {e : ℤ} (hlow : (2 : ℚ) ^ e * 2 ^ p ≤ 2 * |x|) (hhigh : |x| < (2 : ℚ) ^ e * 2 ^ p) : unit p x = 2 ^ e := by
  rw [two_zpow_mul_pow] at hlow hhigh
  have hpos : (0 : ℚ) < 2 ^ (e + p) := zpow_pos (by norm_num) _
  have hx : 0 < |x| := by linarith
  have hlog : Int.log 2 |x| = e + p - 1 := by
    refine le_antisymm ?_ ((Int.zpow_le_iff_le_log (by decide) hx).mp ?_)
    · have hlt := (Int.lt_zpow_iff_log_lt (b := 2) (x := e + p) (by decide) hx).mp (by exact_mod_cast hhigh)
      omega
    · push_cast
      rw [zpow_sub_one₀ (by norm_num)]
      linarith
  rw [unit, hlog]
  congr 1
  omega

theorem toBinary_zero (p : ℕ) : toBinary p 0 = 0 := by
  rw [toBinary, zero_div, ← Int.cast_zero, nearestEven_intCast, Int.cast_zero, zero_mul]

theorem toBinary_neg (p : ℕ) (x : ℚ) : toBinary p (-x) = -toBinary p x := by
  rw [toBinary, toBinary, unit_neg, neg_div, nearestEven_neg, Int.cast_neg, neg_mul]

/-- **Rounding moves a number by at most half a unit.** -/
theorem abs_toBinary_sub_le (p : ℕ) (x : ℚ) : |toBinary p x - x| ≤ unit p x / 2 := by
  have hpos := unit_pos p x
  have heq : toBinary p x - x = ((nearestEven (x / unit p x) : ℚ) - x / unit p x) * unit p x := by
    rw [toBinary]
    field_simp
  rw [heq, abs_mul, abs_of_pos hpos]
  have h := mul_le_mul_of_nonneg_right (abs_nearestEven_sub_le (x / unit p x)) hpos.le
  linarith

/-- **The relative error.** -/
theorem abs_toBinary_sub_le_mul (p : ℕ) (x : ℚ) : |toBinary p x - x| ≤ |x| / 2 ^ p := by
  by_cases hx : x = 0
  · rw [hx, toBinary_zero, sub_self]
    simp
  · have hpow : (0 : ℚ) < 2 ^ p := by positivity
    refine (abs_toBinary_sub_le p x).trans ?_
    rw [le_div_iff₀ hpow]
    linarith [(unit_mul_le (p := p) hx).1]

/-- The multiples of a power of two that a number is rounded to, where that power is its unit. -/
theorem toBinary_eq {e z : ℤ} (hlow : (2 : ℚ) ^ e * 2 ^ p ≤ 2 * |x|) (hhigh : |x| < (2 : ℚ) ^ e * 2 ^ p)
    (h : |x - z * 2 ^ e| < 2 ^ e / 2 ∨ |x - z * 2 ^ e| = 2 ^ e / 2 ∧ 2 ∣ z) : toBinary p x = z * 2 ^ e := by
  have hpos : (0 : ℚ) < 2 ^ e := zpow_pos (by norm_num) _
  have hdiv : |x / 2 ^ e - z| = |x - z * 2 ^ e| / 2 ^ e := by
    rw [← abs_of_pos hpos, ← abs_div, abs_of_pos hpos]
    congr 1
    field_simp
  rw [toBinary, unit_eq hlow hhigh]
  congr 2
  apply nearestEven_eq
  rw [hdiv, div_lt_iff₀ hpos, div_eq_iff hpos.ne']
  exact h.imp (fun h => by linarith) fun h => ⟨by rw [h.1]; ring, h.2⟩

/-- A multiple of a power of two with at most `p` digits is not changed. -/
theorem toBinary_mul_zpow (hp : 0 < p) {z : ℤ} (hz : |z| ≤ 2 ^ p) (e : ℤ) : toBinary p (z * 2 ^ e) = z * 2 ^ e := by
  by_cases hzero : z = 0
  · rw [hzero, Int.cast_zero, zero_mul, toBinary_zero]
  have hx : (z : ℚ) * 2 ^ e ≠ 0 := mul_ne_zero (by exact_mod_cast hzero) (zpow_pos (by norm_num) _).ne'
  obtain ⟨hlow, hhigh⟩ := unit_mul_le (p := p) hx
  generalize hu : Int.log 2 |(z : ℚ) * 2 ^ e| + 1 - p = u at *
  have hunit : unit p ((z : ℚ) * 2 ^ e) = 2 ^ u := by rw [unit, hu]
  rw [hunit] at hlow hhigh
  have hpos : (0 : ℚ) < 2 ^ e := zpow_pos (by norm_num) _
  have hdigits : |(z : ℚ)| ≤ 2 ^ p := by exact_mod_cast hz
  have habs : |(z : ℚ) * 2 ^ e| = |(z : ℚ)| * 2 ^ e := by rw [abs_mul, abs_of_pos hpos]
  rcases le_or_gt u e with hle | hgt
  · -- the number is a multiple of its unit
    obtain ⟨n, rfl⟩ := Int.le.dest hle
    have hmul : (z : ℚ) * 2 ^ (u + n) = ((z * 2 ^ n : ℤ) : ℚ) * 2 ^ u := by
      rw [zpow_add₀ (by norm_num), zpow_natCast]
      push_cast
      ring
    rw [hmul] at hlow hhigh ⊢
    refine toBinary_eq hlow hhigh (.inl ?_)
    rw [sub_self, abs_zero]
    have := zpow_pos (show (0 : ℚ) < 2 by norm_num) u
    linarith
  · -- only a number with a digit more has a larger unit: the power of two itself
    have hpow : (0 : ℚ) < 2 ^ p := by positivity
    rw [habs] at hlow
    have hsmall := hlow.trans (mul_le_mul_of_nonneg_left (mul_le_mul_of_nonneg_right hdigits hpos.le) zero_le_two)
    have hu' : (2 : ℚ) ^ u ≤ 2 ^ (e + 1) := by
      rw [zpow_add_one₀ (by norm_num)]
      refine le_of_mul_le_mul_right ?_ hpow
      linarith
    have hle := (zpow_le_zpow_iff_right₀ (by norm_num : (1 : ℚ) < 2)).mp hu'
    obtain rfl : u = e + 1 := by omega
    have htop : |(z : ℚ)| = 2 ^ p := by
      refine le_antisymm hdigits (le_of_mul_le_mul_right ?_ hpos)
      rw [zpow_add_one₀ (by norm_num)] at hlow
      linarith
    rw [← habs] at hlow
    have heven : (2 : ℤ) ∣ z := by
      have h : |z| = 2 ^ p := by exact_mod_cast htop
      rw [← dvd_abs, h]
      exact dvd_pow_self 2 hp.ne'
    obtain ⟨w, rfl⟩ := heven
    have hmul : ((2 * w : ℤ) : ℚ) * 2 ^ e = (w : ℚ) * 2 ^ (e + 1) := by
      rw [zpow_add_one₀ (by norm_num)]
      push_cast
      ring
    rw [hmul] at hlow hhigh ⊢
    refine toBinary_eq hlow hhigh (.inl ?_)
    rw [sub_self, abs_zero]
    have := zpow_pos (show (0 : ℚ) < 2 by norm_num) (e + 1)
    linarith

theorem toBinary_intCast (hp : 0 < p) {z : ℤ} (hz : |z| ≤ 2 ^ p) : toBinary p z = z := by
  have h := toBinary_mul_zpow hp hz 0
  rwa [zpow_zero, mul_one] at h

end ModbusProxy.Rounding
