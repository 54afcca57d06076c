import Mathlib.Data.BitVec
import Mathlib.Tactic

/-!
# Exact arithmetic of machine integers

An operation on words of `w` bits is exact if it gives what the operation on the
integers gives. This module has when a product is exact, with and without a sign, and
when the balance of three words is.
-/

namespace ModbusProxy.Exact

variable {w : ℕ}

/-- A product of unsigned words. -/
theorem toNat_mul_iff (x y : BitVec w) : (x * y).toNat = x.toNat * y.toNat ↔ x.toNat * y.toNat < 2 ^ w := by
  rw [BitVec.toNat_mul]
  exact Nat.mod_eq_iff_lt (by positivity)

/-- A product of signed words. -/
theorem toInt_mul_iff (x y : BitVec (w + 1)) :
    (x * y).toInt = x.toInt * y.toInt ↔ -2 ^ w ≤ x.toInt * y.toInt ∧ x.toInt * y.toInt < 2 ^ w := by
  have hhalf : ((2 ^ (w + 1) : ℕ) : ℤ) = 2 * 2 ^ w := by
    push_cast
    ring
  rw [BitVec.toInt_mul, Int.bmod_eq_iff (by positivity), hhalf]
  constructor
  · rintro ⟨hlow, hhigh, -⟩
    omega
  · rintro ⟨hlow, hhigh⟩
    exact ⟨by omega, by omega, by simp⟩

/-- A signed word in more bits without a sign: a negative one is counted from the end. -/
theorem toNat_signExtend (x : BitVec w) (v : ℕ) : ((x.signExtend v).toNat : ℤ) = x.toInt % 2 ^ v := by
  have hpos : (0 : ℤ) < 2 ^ v := by positivity
  rw [BitVec.signExtend, BitVec.toNat_ofInt]
  push_cast
  exact Int.toNat_of_nonneg (Int.emod_nonneg _ hpos.ne')

/-- A residue that is the number with a floor at zero, if the number does not lie a whole
turn below, is the number. -/
theorem emod_eq_max_iff {x m : ℤ} (hm : 0 < m) (hlow : -m < x) : x % m = max 0 x ↔ 0 ≤ x ∧ x < m := by
  constructor
  · intro h
    rcases le_or_gt 0 x with hx | hx
    · have hlt := Int.emod_lt_of_pos x hm
      rw [h, max_eq_right hx] at hlt
      exact ⟨hx, hlt⟩
    · rw [max_eq_left hx.le] at h
      obtain ⟨k, rfl⟩ := Int.dvd_of_emod_eq_zero h
      have hk : -1 < k := by nlinarith
      have hk' : k < 0 := by nlinarith
      omega
  · rintro ⟨hx, hlt⟩
    rw [Int.emod_eq_of_lt hx hlt, max_eq_right hx]

theorem toNat_sub_add (x y z : BitVec w) :
    ((x - y + z).toNat : ℤ) = ((x.toNat : ℤ) - y.toNat + z.toNat) % 2 ^ w := by
  have hy := y.isLt.le
  have hturn : (2 ^ w - (y.toNat : ℤ) + x.toNat + z.toNat) = x.toNat - y.toNat + z.toNat + 2 ^ w := by ring
  rw [BitVec.toNat_add, BitVec.toNat_sub]
  push_cast [hy]
  rw [Int.emod_add_emod, hturn, Int.add_emod_right]

/-- A balance of unsigned words: what goes out is subtracted before the rest comes in, and
the difference may well be negative. -/
theorem toNat_sub_add_iff (x y z : BitVec w) :
    ((x - y + z).toNat : ℤ) = max 0 ((x.toNat : ℤ) - y.toNat + z.toNat) ↔
      0 ≤ (x.toNat : ℤ) - y.toNat + z.toNat ∧ (x.toNat : ℤ) - y.toNat + z.toNat < 2 ^ w := by
  have hy : (y.toNat : ℤ) < 2 ^ w := by exact_mod_cast y.isLt
  rw [toNat_sub_add]
  exact emod_eq_max_iff (by positivity) (by omega)

end ModbusProxy.Exact
