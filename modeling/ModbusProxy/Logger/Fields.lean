import ModbusProxy.Logger.Pack

/-!
# What a record says of its sample

A record has some fifty numbers, and each should be its own input to within one unit of
the resolution with which it is stored. Two hand-written lists lie in between, the one
that packs and the one that prints, and in five places they do not fit together: one
field is never packed, one is packed from another's input, one is not scaled back, and
two are cut off below what their bits could hold.

## What is proved

`reports_iff`: for an input in the range of its field, the printed number is the input to
within one unit, whatever else is in the sample or was in the slot (`Reports`), exactly if
the field and the input are none of those (`Field.Good`).
-/

namespace ModbusProxy.Logger

open Quantize

/-! ### Inputs, resolutions and ranges -/

/-- The input that a field of the record is named after. -/
def Field.input (s : Sample) : Field → ℚ
  | .pPv => s.values.inverter.pvDcW.toInt
  | .pPv1 => s.values.inverter.pv1Power.toInt
  | .pPv2 => s.values.inverter.pv2Power.toInt
  | .uPv1 => s.values.inverter.pv1Voltage
  | .uPv2 => s.values.inverter.pv2Voltage
  | .iPv1 => s.values.inverter.pv1Current
  | .iPv2 => s.values.inverter.pv2Current
  | .pInvAc => s.values.inverter.invAcW.toInt
  | .pGrid => s.values.energyMeter.pGridW.toInt
  | .pLoad => s.values.energyMeter.pLoadW.toInt
  | .pBat => s.values.battery.batteryPowerW.toInt
  | .soc => s.values.battery.batterySoc
  | .freq => s.values.energyMeter.gridFreqHz
  | .iL k => s.values.energyMeter.current k
  | .uL k => s.values.energyMeter.voltage k
  | .pL k => s.values.energyMeter.powerReal k
  | .sL k => s.values.energyMeter.powerApparent k
  | .energyProdDay => s.values.inverter.dailyPvEnergyWh.toNat
  | .energyProdWh => s.values.inverter.totalPvEnergyWh.toNat
  | .energyInvDay => s.values.inverter.dailyInvEnergyWh.toNat
  | .energyInvWh => s.values.inverter.totalInvEnergyWh.toNat
  | .energyBatChrgDay => s.values.battery.dailyBatteryChargeWh.toNat
  | .energyBatDiscDay => s.values.battery.dailyBatteryDischargeWh.toNat
  | .energyBatChrg => s.values.battery.totalBatteryChargeWh.toNat
  | .energyBatDisc => s.values.battery.totalBatteryDischargeWh.toNat
  | .energyExpWh => s.values.energyMeter.energyRealProdWh.toNat
  | .energyImpWh => s.values.energyMeter.energyRealConsWh.toNat
  | .nrgIL k => s.nrgkick.current k
  | .chargingPower => s.nrgkick.chargingPower
  | .chargedEnergy => s.nrgkick.chargedEnergy.toNat
  | .housingTemp => s.nrgkick.housingTemp
  | .cpStatus => s.nrgkick.cpStatus.toNat
  | .switchedRelais => s.nrgkick.switchedRelais.toNat
  | .warningCode => s.nrgkick.warningCode.toNat
  | .errorCode => s.nrgkick.errorCode.toNat
  | .connectorTempL k => s.nrgkick.connectorTemp k
  | .maxCurrentToEv => s.nrgkick.maxCurrentToEv
  | .userSetCurrent => s.nrgkick.userSetCurrent
  | .boilerTemp => s.canEz3.boilerTemp
  | .slPower => s.canEz3.slPower.toNat
  | .slTemp => s.canEz3.slTemp
  | .slStatus => s.canEz3.slStatus.toNat
  | .ts => s.ts

/-- A field stores multiples of one part in `scale`. -/
def Field.scale : Field → ℕ
  | .uPv1 | .uPv2 | .uL _ | .pL _ | .sL _ | .soc | .maxCurrentToEv | .userSetCurrent | .boilerTemp | .slTemp => 10
  | .iPv1 | .iPv2 | .freq | .iL _ | .housingTemp | .connectorTempL _ => 100
  | .nrgIL _ | .chargingPower => 1000
  | _ => 1

/-- The bits of a field, and whether they are signed. -/
def Field.bits : Field → Bool × ℕ
  | .pPv | .pPv1 | .pPv2 | .uPv1 | .uPv2 | .iPv1 | .iPv2 | .freq | .pL _ | .sL _ => (true, 22)
  | .pInvAc | .pGrid | .pLoad | .pBat => (true, 19)
  | .iL _ => (true, 20)
  | .chargingPower | .housingTemp | .connectorTempL _ | .boilerTemp | .slTemp => (true, 16)
  | .soc => (false, 10)
  | .uL _ => (false, 12)
  | .nrgIL _ | .maxCurrentToEv | .userSetCurrent | .slPower | .slStatus => (false, 16)
  | .cpStatus => (false, 3)
  | .switchedRelais => (false, 4)
  | .warningCode | .errorCode => (false, 8)
  | .energyExpWh | .energyImpWh => (false, 64)
  | _ => (false, 32)

/-- The least integer that a field of bits represents. -/
def leastOf : Bool × ℕ → ℤ
  | (true, n) => minIntN n
  | (false, _) => 0

/-- The greatest integer that a field of bits represents. -/
def greatestOf : Bool × ℕ → ℤ
  | (true, n) => maxIntN n
  | (false, n) => maxUIntN n

/-- The number lies in the range that the storage of the field can represent. -/
def Field.InRange (f : Field) (x : ℚ) : Prop :=
  (leastOf f.bits : ℚ) ≤ x * f.scale ∧ x * f.scale ≤ greatestOf f.bits

/-- The number that the record has for a field, after a sample was stored in a slot. -/
def Field.printed (f : Field) (slot : CachedSolarValues) (s : Sample) : ℚ := ((updateCachedValue slot s).print f).number

/-- **The record reports the input of a field.** -/
structure Reports (f : Field) (slot : CachedSolarValues) (s : Sample) : Prop where
  /-- The printed number is the input to within one unit of the stored resolution. -/
  close : |f.printed slot s - f.input s| < 1 / f.scale
  /-- It depends on nothing else in the sample, and on nothing that was in the slot. -/
  own : ∀ slot' s', f.input s' = f.input s → f.printed slot' s' = f.printed slot s

/-- The fields, and inputs of fields, that come through. -/
def Field.Good : Field → ℚ → Prop
  -- never stored
  | .pInvAc, _ => False
  -- stored from `user_set_current`
  | .maxCurrentToEv, _ => False
  -- stored in milliamperes and printed as amperes
  | .nrgIL _, x => x < 1 / 1000
  -- limited to 100 where the bits go up to 102.3
  | .soc, x => x < 1001 / 10
  -- limited to 20 of 22 bits
  | .freq, x => -524289 / 100 < x ∧ x < 524288 / 100
  | _, _ => True

/-! ### What is stored, and what is printed of it -/

/-- A number of no more decimals than are printed is printed as it is. -/
theorem number_fixed {d s : ℕ} (hs : 0 < s) (hd : s ∣ 10 ^ d) (z : ℤ) : (Printed.fixed d ((z : ℚ) / s)).number = z / s := by
  obtain ⟨t, ht⟩ := hd
  have hs' : (s : ℚ) ≠ 0 := by exact_mod_cast hs.ne'
  have hten : (10 : ℚ) ^ d = s * t := by exact_mod_cast ht
  have hint : (z : ℚ) / s * 10 ^ d = ((z * t : ℤ) : ℚ) := by
    rw [hten]
    push_cast
    field_simp
  rw [Printed.number, hint, round_intCast, ← hint, mul_div_assoc, div_self (by positivity), mul_one]

theorem clampScaled_of_mem {n scale : ℕ} {x : ℚ} (h : (minIntN n : ℚ) ≤ x * scale ∧ x * scale ≤ maxIntN n) :
    clampScaled n scale x = trunc (x * scale) := by
  have hle := le_trunc h.1
  have hge := trunc_le h.2
  unfold clampScaled
  split <;> rw [if_neg (by omega)]

theorem clampUnsigned_of_mem {n scale : ℕ} {x : ℚ} (hx : 0 ≤ x) (h : x * scale ≤ maxUIntN n) :
    clampUnsigned n scale x = trunc (x * scale) := by
  have hge := trunc_le h
  rw [clampUnsigned, if_pos hx, if_neg (by omega)]

theorem clampInt_of_mem {n : ℕ} {x : Int32} (h : minIntN n ≤ x.toInt ∧ x.toInt ≤ maxIntN n) : clampInt n x = x.toInt := by
  unfold clampInt
  split <;> rw [if_neg (by omega)]

theorem clampAbove_of_le {n : ℕ} {x : Int32} (h : x.toInt ≤ maxIntN n) : clampAbove n x = x.toInt := by
  rw [clampAbove, if_neg (by omega)]

section Stored

variable {n scale d : ℕ} {x : ℚ}

/-- A limited number in a signed field, printed. -/
theorem number_clampScaled (hn : 0 < n) (hs : 0 < scale) (hd : scale ∣ 10 ^ d)
    (h : (minIntN n : ℚ) ≤ x * scale ∧ x * scale ≤ maxIntN n) :
    (Printed.fixed d (((BitVec.ofInt n (clampScaled n scale x)).toInt : ℚ) / scale)).number =
      (trunc (x * scale) : ℚ) / scale := by
  rw [clampScaled_of_mem h, toInt_ofInt_of_mem hn ⟨le_trunc h.1, trunc_le h.2⟩, number_fixed hs hd]

/-- A number in a signed field, printed. -/
theorem number_signed (hn : 0 < n) (hs : 0 < scale) (hd : scale ∣ 10 ^ d)
    (h : (minIntN n : ℚ) ≤ x * scale ∧ x * scale ≤ maxIntN n) :
    (Printed.fixed d (((BitVec.ofInt n (trunc (x * scale))).toInt : ℚ) / scale)).number =
      (trunc (x * scale) : ℚ) / scale := by
  rw [toInt_ofInt_of_mem hn ⟨le_trunc h.1, trunc_le h.2⟩, number_fixed hs hd]

/-- A number in an unsigned field, printed. -/
theorem number_unsigned (hs : 0 < scale) (hd : scale ∣ 10 ^ d)
    (h : (0 : ℚ) ≤ x * scale ∧ x * scale ≤ maxUIntN n) :
    (Printed.fixed d (((BitVec.ofInt n (trunc (x * scale))).toNat : ℚ) / scale)).number =
      (trunc (x * scale) : ℚ) / scale := by
  have hnat := toNat_ofInt_of_mem (w := n) ⟨le_trunc (by exact_mod_cast h.1), trunc_le h.2⟩
  rw [← Int.cast_natCast, hnat, number_fixed hs hd]

end Stored

/-- An integer is printed as it is. -/
theorem number_int (z : ℤ) : (Printed.int z).number = (trunc ((z : ℚ) * (1 : ℕ)) : ℚ) / (1 : ℕ) := by
  rw [Nat.cast_one, mul_one, div_one, trunc_intCast, Printed.number]

theorem number_nat (n : ℕ) : (Printed.int n).number = (trunc ((n : ℚ) * (1 : ℕ)) : ℚ) / (1 : ℕ) := by
  rw [← Int.cast_natCast n]
  exact number_int n

/-- An integer stored in the range of its field. -/
theorem stored_int {n : ℕ} {x : Int32} (hn : 0 < n)
    (h : (minIntN n : ℚ) ≤ (x.toInt : ℚ) * (1 : ℕ) ∧ (x.toInt : ℚ) * (1 : ℕ) ≤ maxIntN n) :
    (BitVec.ofInt n (clampInt n x)).toInt = x.toInt ∧ (BitVec.ofInt n (clampAbove n x)).toInt = x.toInt := by
  simp only [Nat.cast_one, mul_one, Int.cast_le] at h
  rw [clampInt_of_mem h, clampAbove_of_le h.2]
  exact ⟨toInt_ofInt_of_mem hn h, toInt_ofInt_of_mem hn h⟩

/-- A status stored in the range of its field. -/
theorem stored_nat {n x : ℕ} (h : (x : ℚ) * (1 : ℕ) ≤ maxUIntN n) : ((BitVec.ofInt n x).toNat : ℤ) = x := by
  rw [Nat.cast_one, mul_one] at h
  exact toNat_ofInt_of_mem ⟨Int.natCast_nonneg x, by exact_mod_cast h⟩

/-- The time stored in the range of its field. -/
theorem stored_ts {x : ℤ} (h : (0 : ℚ) ≤ (x : ℚ) * (1 : ℕ) ∧ (x : ℚ) * (1 : ℕ) ≤ maxUIntN 32) :
    ((BitVec.ofInt 32 x).toNat : ℤ) = x := by
  rw [Nat.cast_one, mul_one] at h
  exact toNat_ofInt_of_mem ⟨by exact_mod_cast h.1, by exact_mod_cast h.2⟩

/-- A state of charge below the limit is stored in tenths. -/
theorem trunc_clampSoc {x : ℚ} (h0 : 0 ≤ x) (h : x < 1001 / 10) : trunc (clampSoc x) = trunc (x * 10) := by
  unfold clampSoc
  split
  · rw [show x = 0 by linarith, zero_mul]
  · split
    · rfl
    · have h1000 : trunc (x * 10) = 1000 := trunc_eq (by decide) (by push_cast; linarith) (by push_cast; linarith)
      rw [h1000]
      exact trunc_intCast 1000

/-- The frequency is limited to 20 bits. -/
theorem clampScaled_freq {x : ℚ} :
    clampScaled 20 100 x = if x < 524288 / 100 then if -524289 / 100 < x then trunc (x * (100 : ℕ)) else -524288
      else 524287 := by
  have hmax : maxIntN 20 = 524287 := by decide
  have hmin : minIntN 20 = -524288 := by decide
  unfold clampScaled
  by_cases hx : 0 ≤ x
  · have hle := trunc_le_self (x := x * (100 : ℕ)) (by positivity)
    rw [if_pos hx]
    by_cases hlt : x < 524288 / 100
    · have hin : trunc (x * (100 : ℕ)) < 524288 := by
        exact_mod_cast (lt_of_le_of_lt hle (by push_cast; linarith) : (trunc (x * (100 : ℕ)) : ℚ) < 524288)
      rw [if_neg (by omega), if_pos hlt, if_pos (by linarith)]
    · have hout : 524288 ≤ trunc (x * (100 : ℕ)) := le_trunc (by push_cast; linarith)
      rw [if_pos (by omega), if_neg hlt, hmax]
  · have hneg : x * (100 : ℕ) < 0 := by push_cast; linarith
    have hle := self_le_trunc hneg
    rw [if_neg hx, if_pos (show x < 524288 / 100 by linarith)]
    by_cases hlt : -524289 / 100 < x
    · have hin : -524289 < trunc (x * (100 : ℕ)) := by
        exact_mod_cast (lt_of_lt_of_le (by push_cast; linarith) hle : (-524289 : ℚ) < trunc (x * (100 : ℕ)))
      rw [if_neg (by omega), if_pos hlt]
    · have hout : trunc (x * (100 : ℕ)) ≤ -524289 := trunc_le (by push_cast; linarith)
      rw [if_pos (by omega), if_neg hlt, hmin]

theorem Field.scale_pos (f : Field) : 0 < f.scale := by
  cases f <;> exact Nat.succ_pos _

/-- A field that comes through prints its input, cut off to the resolution. -/
theorem printed_eq {f : Field} {s : Sample} (hrange : f.InRange (f.input s)) (hgood : f.Good (f.input s))
    (slot : CachedSolarValues) : f.printed slot s = (trunc (f.input s * f.scale) : ℚ) / f.scale := by
  cases f <;> simp only [Field.printed, updateCachedValue, CachedSolarValues.print, Field.input, Field.scale,
    Field.InRange, Field.bits, Field.Good, leastOf, greatestOf] at hrange hgood ⊢
  case uPv1 | uPv2 | iPv1 | iPv2 | iL | pL | sL =>
    exact_mod_cast number_clampScaled (by decide) (by decide) (by decide) hrange
  case chargingPower | housingTemp | connectorTempL | boilerTemp | slTemp =>
    exact_mod_cast number_signed (by decide) (by decide) (by decide) hrange
  case userSetCurrent =>
    exact_mod_cast number_unsigned (by decide) (by decide) (by exact_mod_cast hrange)
  case energyProdDay | energyProdWh | energyInvDay | energyInvWh | energyBatChrgDay | energyBatDiscDay
    | energyBatChrg | energyBatDisc | energyExpWh | energyImpWh | chargedEnergy | warningCode | errorCode
    | slPower | slStatus =>
    exact number_nat _
  case pPv | pPv1 | pPv2 =>
    rw [(stored_int (by decide) hrange).2]
    exact number_int _
  case pGrid | pLoad | pBat =>
    rw [(stored_int (by decide) hrange).1]
    exact number_int _
  case cpStatus | switchedRelais =>
    rw [stored_nat hrange.2]
    exact number_nat _
  case ts =>
    rw [stored_ts (by exact_mod_cast hrange)]
    exact number_int _
  case uL k =>
    have h0 : 0 ≤ s.values.energyMeter.voltage k := by
      have := hrange.1
      push_cast at this
      linarith
    rw [clampUnsigned_of_mem h0 hrange.2]
    exact_mod_cast number_unsigned (by decide) (by decide) (by exact_mod_cast hrange)
  case soc =>
    have h0 : 0 ≤ s.values.battery.batterySoc := by
      have := hrange.1
      push_cast at this
      linarith
    rw [trunc_clampSoc h0 hgood]
    exact_mod_cast number_unsigned (by decide) (by decide) (by exact_mod_cast hrange)
  case freq =>
    rw [clampScaled_freq, if_pos hgood.2, if_pos hgood.1]
    exact_mod_cast number_signed (by decide) (by decide) (by decide) hrange
  case nrgIL k =>
    have hzero : trunc (s.nrgkick.current k * 1000) = 0 := by
      refine trunc_eq (Int.le_refl 0) (by have := hrange.1; push_cast at this ⊢; linarith) ?_
      push_cast
      linarith
    rw [Nat.cast_ofNat, hzero]
    simp [Printed.number]

/-! ### Where it goes wrong -/

/-- Amperes that are printed as milliamperes are off by more than one unit. -/
theorem nrg_far {x : ℚ} (hx : 1 / 1000 ≤ x) : 1 / 1000 ≤ |(trunc (x * 1000) : ℚ) - x| := by
  have hone : (1 : ℤ) ≤ trunc (x * 1000) := le_trunc (by push_cast; linarith)
  have hone' : (1 : ℚ) ≤ trunc (x * 1000) := by exact_mod_cast hone
  have hclose := abs_lt.mp (abs_trunc_sub_lt (x * 1000))
  have hpos : (0 : ℚ) ≤ (trunc (x * 1000) : ℚ) - x := by linarith
  rw [abs_of_nonneg hpos]
  linarith

/-- `p_inv_ac` prints what was in the slot. -/
theorem printed_pInvAc (slot : CachedSolarValues) (s : Sample) : Field.pInvAc.printed slot s = slot.pInvAc.toInt := rfl

/-- `max_current_to_ev` prints what the user has set. -/
theorem printed_maxCurrentToEv (slot : CachedSolarValues) (s : Sample) :
    Field.maxCurrentToEv.printed slot s = Field.userSetCurrent.printed slot s := rfl

theorem printed_userSetCurrent_of_int (slot : CachedSolarValues) (s : Sample) {z : ℤ} (hz : 0 ≤ z ∧ z ≤ 6553)
    (h : s.nrgkick.userSetCurrent = z) : Field.userSetCurrent.printed slot s = z := by
  have hmax : greatestOf Field.userSetCurrent.bits = 65535 := by decide
  have hinput : Field.userSetCurrent.input s = z := h
  have hrange : Field.userSetCurrent.InRange (Field.userSetCurrent.input s) := by
    rw [Field.InRange, hmax, hinput]
    constructor
    · exact_mod_cast (show (0 : ℤ) ≤ z * 10 by omega)
    · exact_mod_cast (show z * 10 ≤ (65535 : ℤ) by omega)
  have hscaled : (z : ℚ) * (Field.userSetCurrent.scale : ℕ) = ((z * 10 : ℤ) : ℚ) := by
    push_cast
    rfl
  rw [printed_eq hrange trivial, hinput, hscaled, trunc_intCast]
  simp [Field.scale]

theorem printed_nrgIL {slot : CachedSolarValues} {s : Sample} {k : Fin 3}
    (hrange : (Field.nrgIL k).InRange ((Field.nrgIL k).input s)) :
    (Field.nrgIL k).printed slot s = trunc (s.nrgkick.current k * 1000) := by
  have hbits : leastOf (Field.nrgIL k).bits = 0 ∧ greatestOf (Field.nrgIL k).bits = maxUIntN 16 := ⟨rfl, rfl⟩
  have hscale : ((Field.nrgIL k).scale : ℚ) = 1000 := Nat.cast_ofNat
  rw [Field.InRange, hbits.1, hbits.2, hscale, Int.cast_zero] at hrange
  have hrange' : (0 : ℚ) ≤ s.nrgkick.current k * 1000 ∧ s.nrgkick.current k * 1000 ≤ maxUIntN 16 := hrange
  have hnat := toNat_ofInt_of_mem (w := 16) ⟨trunc_nonneg hrange'.1, trunc_le hrange'.2⟩
  have hnum := number_fixed (s := 1) (d := 2) (by decide) (by decide) (trunc (s.nrgkick.current k * 1000))
  rw [Nat.cast_one, div_one] at hnum
  rw [← hnum, ← hnat]
  rfl

theorem printed_soc {slot : CachedSolarValues} {s : Sample} (h : 100 < s.values.battery.batterySoc) :
    Field.soc.printed slot s = 100 := by
  have hclamp : clampSoc s.values.battery.batterySoc = (1000 : ℤ) := by
    rw [clampSoc, if_neg (by linarith), if_neg (by linarith)]
    rfl
  have hstored : (BitVec.ofInt 10 (trunc (clampSoc s.values.battery.batterySoc))).toNat = 1000 := by
    rw [hclamp, trunc_intCast]
    decide
  simp only [Field.printed, updateCachedValue, CachedSolarValues.print, hstored]
  have hnum := number_fixed (s := 10) (d := 6) (by decide) (by decide) 1000
  norm_num at hnum ⊢
  exact hnum

theorem printed_freq {slot : CachedSolarValues} {s : Sample} {z : ℤ}
    (hz : clampScaled 20 100 s.values.energyMeter.gridFreqHz = z) (hbits : (BitVec.ofInt 22 z).toInt = z) :
    Field.freq.printed slot s = z / 100 := by
  have hnum := number_fixed (s := 100) (d := 2) (by decide) (by decide) z
  rw [Nat.cast_ofNat] at hnum
  simp only [Field.printed, updateCachedValue, CachedSolarValues.print, hz, hbits]
  exact hnum

/-- The fields and inputs that do not come through are not reported. -/
theorem Reports.good {f : Field} {slot : CachedSolarValues} {s : Sample} (hrange : f.InRange (f.input s))
    (h : Reports f slot s) : f.Good (f.input s) := by
  have hclose := h.close
  cases f <;> try trivial
  case pInvAc =>
    have h0 := h.own { slot with pInvAc := 0 } s rfl
    have h1 := h.own { slot with pInvAc := 1 } s rfl
    have h01 : ((0 : BitVec 19).toInt : ℚ) = (1 : BitVec 19).toInt := h0.trans h1.symm
    exact absurd h01 (by decide)
  case maxCurrentToEv =>
    have h0 := h.own slot { s with nrgkick := { s.nrgkick with userSetCurrent := 0 } } rfl
    have h1 := h.own slot { s with nrgkick := { s.nrgkick with userSetCurrent := 1 } } rfl
    rw [printed_maxCurrentToEv, printed_userSetCurrent_of_int (z := 0) _ _ (by decide) (by simp)] at h0
    rw [printed_maxCurrentToEv, printed_userSetCurrent_of_int (z := 1) _ _ (by decide) (by simp)] at h1
    exact absurd (h0.trans h1.symm) (by decide)
  case nrgIL k =>
    rw [printed_nrgIL hrange] at hclose
    by_contra hbad
    simp only [Field.Good, Field.input, not_lt] at hbad
    exact absurd hclose (not_lt.mpr (by simpa [Field.scale, Field.input] using nrg_far hbad))
  case soc =>
    by_contra hbad
    simp only [Field.Good, Field.input, not_lt] at hbad
    rw [printed_soc (by linarith)] at hclose
    simp only [Field.input, Field.scale] at hclose
    have := (abs_lt.mp hclose).1
    push_cast at this
    linarith
  case freq =>
    have hlimit := clampScaled_freq (x := s.values.energyMeter.gridFreqHz)
    simp only [Field.input, Field.scale] at hclose
    simp only [Field.Good, Field.input]
    by_cases hlt : s.values.energyMeter.gridFreqHz < 524288 / 100
    · refine ⟨?_, hlt⟩
      by_contra hgt
      rw [if_pos hlt, if_neg hgt] at hlimit
      rw [printed_freq hlimit (by decide)] at hclose
      have := (abs_lt.mp hclose).2
      push_cast at this
      linarith
    · rw [if_neg hlt] at hlimit
      rw [printed_freq hlimit (by decide)] at hclose
      have := (abs_lt.mp hclose).1
      push_cast at this
      linarith

/-! ### The reporting law -/

/-- **Logged fields report their own input, exactly.** For every field of the record, every
slot and every sample whose input of the field is in the range of its storage, the record
reports the input if and only if the field and the input are good. -/
theorem reports_iff (f : Field) (slot : CachedSolarValues) (s : Sample) (hrange : f.InRange (f.input s)) :
    Reports f slot s ↔ f.Good (f.input s) := by
  refine ⟨fun h => h.good hrange, fun hgood => ⟨?_, fun slot' s' hinput => ?_⟩⟩
  · rw [printed_eq hrange hgood]
    exact abs_trunc_div_sub_lt (Nat.cast_pos.mpr f.scale_pos) _
  · rw [printed_eq hrange hgood, printed_eq (by rwa [hinput]) (by rwa [hinput]), hinput]

/-- A temperature of 21.5 degrees is reported. -/
theorem reports_slTemp : Reports .slTemp default { (default : Sample) with canEz3 := ⟨0, 43 / 2, 0, 0⟩ } := by
  have hbits : leastOf Field.slTemp.bits = -32768 ∧ greatestOf Field.slTemp.bits = 32767 := by decide
  refine (reports_iff .slTemp default { (default : Sample) with canEz3 := ⟨0, 43 / 2, 0, 0⟩ } ?_).mpr trivial
  rw [Field.InRange, hbits.1, hbits.2]
  simp only [Field.input, Field.scale]
  norm_num

/-- The power of the inverter is not reported: what the slot held before is printed. -/
theorem not_reports :
    ¬ ∀ (f : Field) (slot : CachedSolarValues) (s : Sample), f.InRange (f.input s) → Reports f slot s := by
  intro h
  have hbits : leastOf Field.pInvAc.bits = -262144 ∧ greatestOf Field.pInvAc.bits = 262143 := by decide
  have hzero : Field.input default .pInvAc = 0 := by
    have hpower : (default : Sample).values.inverter.invAcW.toInt = 0 := by decide
    rw [Field.input, hpower, Int.cast_zero]
  have hone : (1 : BitVec 19).toInt = 1 := by decide
  have hclose := (h .pInvAc { (default : CachedSolarValues) with pInvAc := 1 } default (by
    rw [Field.InRange, hbits.1, hbits.2, hzero]
    norm_num)).close
  rw [printed_pInvAc, hzero, hone] at hclose
  norm_num [Field.scale] at hclose

end ModbusProxy.Logger
