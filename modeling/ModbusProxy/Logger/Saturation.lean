import ModbusProxy.Logger.Pack

/-!
# How the integer powers are stored

Of the six integer powers of a sample `update_cached_values` puts three into fields of 22
bits and three into fields of 19. The latter are limited on both sides; the former are
limited above only, and to the limit of an unsigned field.

## What is proved

Which powers are stored saturated (`stored_power_iff`).
-/

namespace ModbusProxy.Logger

open Quantize

/-- The integer powers. -/
inductive Power where
  | pPv | pPv1 | pPv2 | pGrid | pLoad | pBat
  deriving DecidableEq

/-- The value that `update_cached_values` is given. -/
def Power.input (s : Sample) : Power → Int32
  | .pPv => s.values.inverter.pvDcW
  | .pPv1 => s.values.inverter.pv1Power
  | .pPv2 => s.values.inverter.pv2Power
  | .pGrid => s.values.energyMeter.pGridW
  | .pLoad => s.values.energyMeter.pLoadW
  | .pBat => s.values.battery.batteryPowerW

/-- The bits of its field. -/
def Power.width : Power → ℕ
  | .pPv | .pPv1 | .pPv2 => 22
  | .pGrid | .pLoad | .pBat => 19

/-- What is read back from the field. -/
def Power.stored (v : CachedSolarValues) : Power → ℤ
  | .pPv => v.pPv.toInt
  | .pPv1 => v.pPv1.toInt
  | .pPv2 => v.pPv2.toInt
  | .pGrid => v.pGrid.toInt
  | .pLoad => v.pLoad.toInt
  | .pBat => v.pBat.toInt

/-- The power is stored saturated, and so with its sign. -/
structure Power.Saturated (p : Power) (slot : CachedSolarValues) (s : Sample) : Prop where
  /-- The number next to it that the field can represent. -/
  stored : p.stored (updateCachedValue slot s) = saturate p.width (p.input s).toInt
  /-- A power that is not negative stays so. -/
  nonneg : 0 ≤ (p.input s).toInt → 0 ≤ p.stored (updateCachedValue slot s)
  /-- A negative power stays negative. -/
  neg : (p.input s).toInt < 0 → p.stored (updateCachedValue slot s) < 0

/-- A power of the photovoltaics is in the range of its field, or so far below that the bits
are those of the least number. -/
def Power.Fits (s : Sample) : Power → Prop
  | .pGrid | .pLoad | .pBat => True
  | p => (minIntN p.width ≤ (p.input s).toInt ∧ (p.input s).toInt ≤ maxIntN p.width) ∨
      ((p.input s).toInt < minIntN p.width ∧ (2 ^ p.width : ℤ) ∣ (p.input s).toInt - minIntN p.width)

theorem clampInt_eq_saturate {n : ℕ} (x : Int32) : clampInt n x = saturate n x.toInt := by
  have hpos : (0 : ℤ) < 2 ^ (n - 1) := by positivity
  unfold clampInt saturate maxIntN minIntN
  omega

/-- Limited on both sides, a power is stored saturated. -/
theorem stored_clampInt {n : ℕ} (hn : 0 < n) (x : Int32) :
    (BitVec.ofInt n (clampInt n x)).toInt = saturate n x.toInt := by
  rw [clampInt_eq_saturate, toInt_ofInt_of_mem hn (saturate_mem n x.toInt)]

/-- Limited above only, and too far, a power is stored saturated in its range, and by chance
below it. -/
theorem stored_clampAbove_iff {n : ℕ} (hn : 0 < n) (x : Int32) :
    (BitVec.ofInt n (clampAbove n x)).toInt = saturate n x.toInt ↔
      (minIntN n ≤ x.toInt ∧ x.toInt ≤ maxIntN n) ∨
        (x.toInt < minIntN n ∧ (2 ^ n : ℤ) ∣ x.toInt - minIntN n) := by
  have hpow : (2 : ℤ) ^ n = 2 * 2 ^ (n - 1) := by rw [← pow_succ', Nat.sub_add_cancel hn]
  have hpos : (0 : ℤ) < 2 ^ (n - 1) := by positivity
  rw [toInt_ofInt_eq_iff hn (saturate_mem n x.toInt), clampAbove]
  unfold minIntN maxIntN maxUIntN
  rcases lt_or_ge (2 ^ (n - 1) - 1) x.toInt with hgt | hle
  -- the limits differ by half the range of the field
  · rw [if_pos hgt, saturate_of_gt hgt, hpow]
    constructor
    · rintro ⟨k, hk⟩
      have hhalf : (2 : ℤ) ^ (n - 1) * 1 = 2 ^ (n - 1) * (2 * k) := by linarith
      have hone := mul_left_cancel₀ hpos.ne' hhalf
      omega
    · omega
  rw [if_neg (not_lt.mpr hle)]
  rcases lt_or_ge x.toInt (-2 ^ (n - 1)) with hlt | hge
  · rw [saturate_of_lt hlt]
    exact ⟨fun h => .inr ⟨hlt, h⟩, fun h => (h.resolve_left fun hmem => absurd hmem.1 (not_le.mpr hlt)).2⟩
  · rw [saturate_of_mem ⟨hge, hle⟩, sub_self]
    exact ⟨fun _ => .inl ⟨hge, hle⟩, fun _ => dvd_zero _⟩

theorem Power.saturated_iff_stored (p : Power) (slot : CachedSolarValues) (s : Sample) :
    p.Saturated slot s ↔ p.stored (updateCachedValue slot s) = saturate p.width (p.input s).toInt := by
  obtain ⟨hnonneg, hneg⟩ := saturate_sign p.width (p.input s).toInt
  exact ⟨fun h => h.stored, fun h => ⟨h, fun hv => h ▸ hnonneg hv, fun hv => h ▸ hneg hv⟩⟩

theorem Power.stored_iff_fits (p : Power) (slot : CachedSolarValues) (s : Sample) :
    p.stored (updateCachedValue slot s) = saturate p.width (p.input s).toInt ↔ p.Fits s := by
  cases p with
  | pPv => exact stored_clampAbove_iff (by decide) s.values.inverter.pvDcW
  | pPv1 => exact stored_clampAbove_iff (by decide) s.values.inverter.pv1Power
  | pPv2 => exact stored_clampAbove_iff (by decide) s.values.inverter.pv2Power
  | pGrid => exact iff_true_intro (stored_clampInt (by decide) s.values.energyMeter.pGridW)
  | pLoad => exact iff_true_intro (stored_clampInt (by decide) s.values.energyMeter.pLoadW)
  | pBat => exact iff_true_intro (stored_clampInt (by decide) s.values.battery.batteryPowerW)

/-- For every sample: a power is stored saturated, and so with its sign, if and only if it
fits; and among samples in which it fits it is stored monotonically. -/
theorem stored_power_iff (p : Power) (slot slot' : CachedSolarValues) (s s' : Sample) :
    (p.Saturated slot s ↔ p.Fits s) ∧
      (p.Fits s → p.Fits s' → (p.input s).toInt ≤ (p.input s').toInt →
        p.stored (updateCachedValue slot s) ≤ p.stored (updateCachedValue slot' s')) := by
  refine ⟨(p.saturated_iff_stored slot s).trans (p.stored_iff_fits slot s), fun h h' hle => ?_⟩
  rw [(p.stored_iff_fits slot s).mpr h, (p.stored_iff_fits slot' s').mpr h']
  exact saturate_monotone p.width hle

/-- Two megawatts and some are stored as `-1`. -/
theorem pv_power_not_saturated :
    ¬∀ (p : Power) (slot : CachedSolarValues) (s : Sample), p.Saturated slot s := by
  intro h
  have hstored := (h .pPv default
    { (default : Sample) with values := { (default : PvValues) with inverter.pvDcW := 2097152 } }).stored
  exact absurd hstored (by decide +kernel)

end ModbusProxy.Logger
