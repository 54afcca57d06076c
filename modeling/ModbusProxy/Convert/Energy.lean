import ModbusProxy.Convert.Defined
import ModbusProxy.Library.Exact

/-!
# Energies

The converters bring the energies of the devices to watt-hours, `huawei_get_values` takes
the yield of the panels from the counters of the inverter and the battery, and the
apparent energy from the meter's. All of it is done in the integer types of the members.

## What is proved

`apparent_exact_iff`: what is under the root is the sum of the two squares exactly within
a range of the counters, and in the direction of production only if as much was
produced as consumed. `counters_exact_iff`: the counters and the yields are those of the
integers exactly if they fit in their members, the yields also from below.
-/

namespace ModbusProxy.Convert

open Memory Endian Poll Runs Exact

/-! ### The apparent energy -/

/-- The number under the root. -/
def radicand (real : UInt64) (reactive : Int32) : ℤ := real.toNat + reactive.toInt

/-- The apparent energies of a meter are made of the consumed, the produced and the reactive
energy without a product that wraps. -/
structure ApparentExact (cons prod reactive : Int32) (meter : EnergyMeter) : Prop where
  /-- The consumed energy in watt-hours. -/
  scaled : (cons * 10).toInt = cons.toInt * 10
  /-- Its square. -/
  squared : (realSquare (toUInt64 (cons * 10))).toNat =
    (toUInt64 (cons * 10)).toNat * (toUInt64 (cons * 10)).toNat
  /-- The first product of the reactive energy. -/
  reactiveScaled : (reactive * 10).toInt = reactive.toInt * 10
  /-- The second. -/
  reactiveSquared : (reactive * 10 * reactive).toInt = (reactive * 10).toInt * reactive.toInt
  /-- The third. -/
  reactiveSquaredScaled : (reactiveSquare reactive).toInt = (reactive * 10 * reactive).toInt * 10
  /-- With a positive reactive energy. -/
  consumed : 0 < reactive →
    meter.energyApparentConsVah =
        apparentEnergy (realSquare (toUInt64 (cons * 10))) (reactiveSquare reactive) ∧
      radicand (realSquare (toUInt64 (cons * 10))) (reactiveSquare reactive) =
        (10 * cons.toInt) ^ 2 + (10 * reactive.toInt) ^ 2 ∧
      meter.energyApparentProdVah = 0
  /-- With none, or a negative one. -/
  produced : ¬ 0 < reactive →
    meter.energyApparentProdVah =
        apparentEnergy (realSquare (toUInt64 (cons * 10))) (reactiveSquare reactive) ∧
      radicand (realSquare (toUInt64 (cons * 10))) (reactiveSquare reactive) =
        (10 * prod.toInt) ^ 2 + (10 * reactive.toInt) ^ 2 ∧
      meter.energyApparentConsVah = 0

/-- The range of the energies in which their squares can be added. -/
structure ApparentFits (cons prod reactive : ℤ) : Prop where
  /-- The consumed energy. -/
  cons_nonneg : 0 ≤ cons
  /-- Ten times the consumed energy is an `int32_t`. -/
  cons_le : cons ≤ 214748364
  /-- A hundred squares of the reactive energy are an `int32_t`. -/
  reactive_le : |reactive| ≤ 4634
  /-- As much was produced as consumed. -/
  produced : reactive ≤ 0 → prod = cons ∨ prod = -cons

theorem int32_mul_iff (x y : Int32) :
    (x * y).toInt = x.toInt * y.toInt ↔ -2 ^ 31 ≤ x.toInt * y.toInt ∧ x.toInt * y.toInt < 2 ^ 31 :=
  toInt_mul_iff (w := 31) x.toBitVec y.toBitVec

theorem toNat_toUInt64 (x : Int32) : ((toUInt64 x).toNat : ℤ) = x.toInt % 2 ^ 64 :=
  toNat_signExtend x.toBitVec 64

/-- The square of the converted energy is exact unless the energy is negative. -/
theorem realSquare_iff (x : Int32) :
    (realSquare (toUInt64 x)).toNat = (toUInt64 x).toNat * (toUInt64 x).toNat ↔ 0 ≤ x.toInt := by
  have hlow := x.le_toInt
  have hhigh := x.toInt_lt
  have hword := toNat_toUInt64 x
  have hexact : (realSquare (toUInt64 x)).toNat = (toUInt64 x).toNat * (toUInt64 x).toNat ↔
      (toUInt64 x).toNat * (toUInt64 x).toNat < 2 ^ 64 :=
    toNat_mul_iff (toUInt64 x).toBitVec (toUInt64 x).toBitVec
  rw [hexact]
  constructor
  · intro hlt
    by_contra hneg
    have hbig : 2 ^ 63 ≤ (toUInt64 x).toNat := by omega
    nlinarith
  · intro hpos
    have hsmall : (toUInt64 x).toNat < 2 ^ 31 := by omega
    nlinarith

/-- Within the range every product is exact, and the number under the root is the sum of the
squares of the consumed and the reactive energy. -/
theorem radicand_eq {cons reactive : Int32} (hcons : 0 ≤ cons.toInt) (hscaled : (cons * 10).toInt = cons.toInt * 10)
    (hreal : (realSquare (toUInt64 (cons * 10))).toNat = (toUInt64 (cons * 10)).toNat * (toUInt64 (cons * 10)).toNat)
    (hreactive : (reactiveSquare reactive).toInt = reactive.toInt * 10 * reactive.toInt * 10) :
    radicand (realSquare (toUInt64 (cons * 10))) (reactiveSquare reactive) =
      (10 * cons.toInt) ^ 2 + (10 * reactive.toInt) ^ 2 := by
  have hhigh := (cons * 10).toInt_lt
  have hword : ((toUInt64 (cons * 10)).toNat : ℤ) = cons.toInt * 10 := by
    rw [toNat_toUInt64, ← hscaled]
    omega
  rw [radicand, hreal, hreactive]
  push_cast
  rw [hword]
  ring

/-- The products of the reactive energy are exact exactly if the last one is in range. -/
theorem reactiveSquare_iff (x : Int32) :
    ((x * 10).toInt = x.toInt * 10 ∧ (x * 10 * x).toInt = (x * 10).toInt * x.toInt ∧
        (reactiveSquare x).toInt = (x * 10 * x).toInt * 10) ↔ |x.toInt| ≤ 4634 := by
  have hten : (10 : Int32).toInt = 10 := rfl
  rw [abs_le]
  constructor
  · rintro ⟨h1, h2, h3⟩
    have hlast := ((int32_mul_iff (x * 10 * x) 10).mp h3).2
    rw [h2, h1, hten] at hlast
    constructor <;> by_contra hout <;> nlinarith
  · rintro ⟨hlow, hhigh⟩
    have hsquare : 0 ≤ x.toInt * x.toInt := mul_self_nonneg _
    have hbound : x.toInt * x.toInt ≤ 4634 * 4634 := by nlinarith
    have h1 : (x * 10).toInt = x.toInt * 10 := (int32_mul_iff x 10).mpr (by rw [hten]; omega)
    have h2 : (x * 10 * x).toInt = (x * 10).toInt * x.toInt := by
      refine (int32_mul_iff (x * 10) x).mpr ?_
      rw [h1]
      constructor <;> nlinarith
    refine ⟨h1, h2, (int32_mul_iff (x * 10 * x) 10).mpr ?_⟩
    rw [h2, h1, hten]
    constructor <;> nlinarith

theorem scaled_iff (x : Int32) : (x * 10).toInt = x.toInt * 10 ↔ -214748364 ≤ x.toInt ∧ x.toInt ≤ 214748364 := by
  have hten : (10 : Int32).toInt = 10 := rfl
  have hexact := int32_mul_iff x 10
  rw [hten] at hexact
  rw [hexact]
  omega

section Range

variable {cons prod reactive : Int32}

theorem pos_iff_toInt_pos : 0 < reactive ↔ 0 < reactive.toInt := Int32.lt_iff_toInt_lt

/-- What is exact is in the range. -/
theorem ApparentExact.fits {meter : EnergyMeter} (h : ApparentExact cons prod reactive meter) :
    ApparentFits cons.toInt prod.toInt reactive.toInt := by
  have hrange := (scaled_iff cons).mp h.scaled
  have hnonneg : 0 ≤ cons.toInt := by
    have hsquared := (realSquare_iff _).mp h.squared
    rw [h.scaled] at hsquared
    omega
  refine ⟨hnonneg, hrange.2,
    (reactiveSquare_iff reactive).mp ⟨h.reactiveScaled, h.reactiveSquared, h.reactiveSquaredScaled⟩, fun hle => ?_⟩
  have hreactive : (reactiveSquare reactive).toInt = reactive.toInt * 10 * reactive.toInt * 10 := by
    rw [h.reactiveSquaredScaled, h.reactiveSquared, h.reactiveScaled]
  -- with both squares exact, those of the produced and the consumed energy are the same
  have hquantity := (h.produced (by rw [pos_iff_toInt_pos]; omega)).2.1
  rw [radicand_eq hnonneg h.scaled h.squared hreactive] at hquantity
  exact sq_eq_sq_iff_eq_or_eq_neg.mp (by linarith)

/-- What is in the range is exact, if both directions take the root of the same number. -/
theorem ApparentFits.exact (h : ApparentFits cons.toInt prod.toInt reactive.toInt) {meter : EnergyMeter}
    (hcons : meter.energyApparentConsVah =
      if 0 < reactive then apparentEnergy (realSquare (toUInt64 (cons * 10))) (reactiveSquare reactive) else 0)
    (hprod : meter.energyApparentProdVah =
      if 0 < reactive then 0 else apparentEnergy (realSquare (toUInt64 (cons * 10))) (reactiveSquare reactive)) :
    ApparentExact cons prod reactive meter := by
  obtain ⟨hnonneg, hle, hreactive, hproduced⟩ := h
  have hscaled : (cons * 10).toInt = cons.toInt * 10 := (scaled_iff cons).mpr ⟨by omega, hle⟩
  have hsquared := (realSquare_iff (cons * 10)).mpr (by rw [hscaled]; omega)
  obtain ⟨h1, h2, h3⟩ := (reactiveSquare_iff reactive).mpr hreactive
  have hquantity := radicand_eq hnonneg hscaled hsquared (by rw [h3, h2, h1])
  refine ⟨hscaled, hsquared, h1, h2, h3, fun hpos => ?_, fun hnonpos => ?_⟩
  · rw [if_pos hpos] at hcons hprod
    exact ⟨hcons, hquantity, hprod⟩
  · rw [if_neg hnonpos] at hcons hprod
    refine ⟨hprod, ?_, hcons⟩
    rw [pos_iff_toInt_pos, not_lt] at hnonpos
    rw [hquantity]
    rcases hproduced hnonpos with heq | heq
    · rw [heq]
    · rw [heq]
      ring

end Range

section Apparent

variable (reg : ℕ → UInt16)

/-- `energy_real_cons` of the registers. -/
def energyRealCons : Int32 := (u32 reg 37121).toInt32

/-- `energy_real_prod` of the registers. -/
def energyRealProd : Int32 := (u32 reg 37119).toInt32

/-- `energy_reactive_cons` of the registers. -/
def energyReactiveCons : Int32 := (u32 reg 37123).toInt32

theorem huaweiOf_apparent_iff :
    ApparentExact (energyRealCons reg) (energyRealProd reg) (energyReactiveCons reg) (huaweiOf reg).energyMeter ↔
      ApparentFits (energyRealCons reg).toInt (energyRealProd reg).toInt (energyReactiveCons reg).toInt := by
  refine ⟨fun h => h.fits, fun h => h.exact ?_ ?_⟩
  · simp only [huaweiOf, huaweiGetValues, huaweiMeter, read_meter, meterOf_energyReactiveCons, meterOf_energyRealCons]
    rfl
  · simp only [huaweiOf, huaweiGetValues, huaweiMeter, read_meter, meterOf_energyReactiveCons, meterOf_energyRealCons]
    rfl

end Apparent

/-- The meter's apparent energies in a world. -/
def ApparentExactIn (w : World) (b : Before HuaweiLocals PvValues) : Prop :=
  ApparentExact (energyRealCons (w.registers .huawei)) (energyRealProd (w.registers .huawei))
    (energyReactiveCons (w.registers .huawei)) (huaweiIn w b).energyMeter

/-- **Apparent energies.** In every state with an inverter, the number under the root is the
square of the real energy in the direction of the reactive one, plus the square of the
reactive energy, and no product wraps, exactly if the consumed energy is not negative
and a tenth of an `int32_t` at most, the reactive energy is 4634 at most in either
direction, and, unless it is positive, as much was produced as consumed. -/
theorem apparent_exact_iff (evs : List Event)
    (hfound : ((run World.step .init evs).findClient .huawei).isSome = true) (b : Before HuaweiLocals PvValues) :
    let reg := (run World.step .init evs).registers .huawei
    ApparentExactIn (run World.step .init evs) b ↔
      ApparentFits (energyRealCons reg).toInt (energyRealProd reg).toInt (energyReactiveCons reg).toInt := by
  intro reg
  rw [ApparentExactIn, huaweiIn_eq evs hfound]
  exact huaweiOf_apparent_iff reg

/-- The low and the high half of a 32-bit number. -/
def halves (x : UInt32) : UInt16 × UInt16 := ((x >>> 16).toUInt16, x.toUInt16)

/-- A meter with the given energies is polled. -/
def energiesPolled (cons prod reactive : UInt32) : List Event :=
  [.startClient .huawei "inverter" 502,
    .poll 0 ⟨4, deviceReply fun a =>
      if a = 37119 then (halves prod).1 else if a = 37120 then (halves prod).2
      else if a = 37121 then (halves cons).1 else if a = 37122 then (halves cons).2
      else if a = 37123 then (halves reactive).1 else if a = 37124 then (halves reactive).2
      else 0⟩]

/-- Of 50 Wh consumed, 70 Wh produced and -10 varh the consumed energy is taken for the
produced one; 46350 varh squared wrap to a negative number. -/
theorem apparent_wrong :
    ¬ ApparentExactIn (run World.step .init (energiesPolled 5 7 0xFFFFFFFF)) default ∧
      ¬ ApparentExactIn (run World.step .init (energiesPolled 0 0 4635)) default :=
  ⟨fun h => absurd (h.produced (by decide +kernel)).2.1 (by decide +kernel),
    fun h => absurd h.reactiveSquaredScaled (by decide +kernel)⟩

/-- 300 Wh and 400 varh consumed. -/
theorem apparent_exact_consumed :
    ApparentExactIn (run World.step .init (energiesPolled 30 0 40)) default := by
  have hexact := apparent_exact_iff (energiesPolled 30 0 40) (by decide +kernel) default
  exact hexact.mpr ⟨by decide +kernel, by decide +kernel, by decide +kernel, by decide +kernel⟩

/-! ### The counters -/

section Counters

variable (reg : ℕ → UInt16)

/-- The yield of the panels today, by the registers. -/
def dailyYield : ℤ := 10 * (u32 reg 32114).toNat - 10 * (u32 reg 37786).toNat + 10 * (u32 reg 37784).toNat

/-- The yield of the panels in total, by the registers. -/
def totalYield : ℤ := 100 * (u32 reg 32106).toNat - 10 * (u32 reg 37782).toNat + 10 * (u32 reg 37780).toNat

/-- The counters are the registers' in watt-hours, and the yields those of the counters, or
zero where these are negative. -/
structure CountersExact (v : PvValues) : Prop where
  /-- `total_inv_energy_wh`. -/
  totalInv : v.inverter.totalInvEnergyWh.toNat = (u32 reg 32106).toNat * 100
  /-- `daily_inv_energy_wh`. -/
  dailyInv : v.inverter.dailyInvEnergyWh.toNat = (u32 reg 32114).toNat * 10
  /-- `total_battery_charge_wh`. -/
  totalCharge : v.battery.totalBatteryChargeWh.toNat = (u32 reg 37780).toNat * 10
  /-- `total_battery_discharge_wh`. -/
  totalDischarge : v.battery.totalBatteryDischargeWh.toNat = (u32 reg 37782).toNat * 10
  /-- `daily_battery_charge_wh`. -/
  dailyCharge : v.battery.dailyBatteryChargeWh.toNat = (u32 reg 37784).toNat * 10
  /-- `daily_battery_discharge_wh`. -/
  dailyDischarge : v.battery.dailyBatteryDischargeWh.toNat = (u32 reg 37786).toNat * 10
  /-- `daily_pv_energy_wh`. -/
  dailyPv : (v.inverter.dailyPvEnergyWh.toNat : ℤ) = max 0 (dailyYield reg)
  /-- `total_pv_energy_wh`. -/
  totalPv : (v.inverter.totalPvEnergyWh.toNat : ℤ) = max 0 (totalYield reg)

/-- The registers' counters and yields fit in `uint32_t`. -/
structure CountersFit : Prop where
  /-- The counter in steps of 100 Wh. -/
  totalInv : (u32 reg 32106).toNat ≤ 42949672
  /-- The counters in steps of 10 Wh. -/
  tens : ∀ a ∈ [32114, 37780, 37782, 37784, 37786], (u32 reg a).toNat ≤ 429496729
  /-- The yield of the day. -/
  daily : 0 ≤ dailyYield reg ∧ dailyYield reg < 2 ^ 32
  /-- The yield in total. -/
  total : 0 ≤ totalYield reg ∧ totalYield reg < 2 ^ 32

theorem uint32_mul_iff (x y : UInt32) : (x * y).toNat = x.toNat * y.toNat ↔ x.toNat * y.toNat < 2 ^ 32 :=
  toNat_mul_iff x.toBitVec y.toBitVec

theorem uint32_balance_iff (x y z : UInt32) :
    ((x - y + z).toNat : ℤ) = max 0 ((x.toNat : ℤ) - y.toNat + z.toNat) ↔
      0 ≤ (x.toNat : ℤ) - y.toNat + z.toNat ∧ (x.toNat : ℤ) - y.toNat + z.toNat < 2 ^ 32 :=
  toNat_sub_add_iff x.toBitVec y.toBitVec z.toBitVec

/-- A counter in steps of 10 Wh. -/
theorem tens_iff (a : ℕ) : (u32 reg a * 10).toNat = (u32 reg a).toNat * 10 ↔ (u32 reg a).toNat ≤ 429496729 := by
  refine (uint32_mul_iff (u32 reg a) 10).trans ?_
  rw [show (10 : UInt32).toNat = 10 from rfl]
  omega

/-- A counter in steps of 100 Wh. -/
theorem hundreds_iff (a : ℕ) : (u32 reg a * 100).toNat = (u32 reg a).toNat * 100 ↔ (u32 reg a).toNat ≤ 42949672 := by
  refine (uint32_mul_iff (u32 reg a) 100).trans ?_
  rw [show (100 : UInt32).toNat = 100 from rfl]
  omega

/-- The counters are the registers' scaled in 32 bits. -/
theorem huaweiOf_counters :
    (huaweiOf reg).inverter.totalInvEnergyWh = u32 reg 32106 * 100 ∧
      (huaweiOf reg).inverter.dailyInvEnergyWh = u32 reg 32114 * 10 ∧
      (huaweiOf reg).battery.totalBatteryChargeWh = u32 reg 37780 * 10 ∧
      (huaweiOf reg).battery.totalBatteryDischargeWh = u32 reg 37782 * 10 ∧
      (huaweiOf reg).battery.dailyBatteryChargeWh = u32 reg 37784 * 10 ∧
      (huaweiOf reg).battery.dailyBatteryDischargeWh = u32 reg 37786 * 10 := by
  simp only [huaweiOf, huaweiGetValues, huaweiInverter, huaweiBattery, read_uint32]
  exact ⟨rfl, rfl, rfl, rfl, rfl, rfl⟩

/-- A yield of counters that are exact. -/
theorem yield_iff {inv discharge charge : UInt32} {yield : ℤ}
    (hyield : (inv.toNat : ℤ) - discharge.toNat + charge.toNat = yield) :
    ((inv - discharge + charge).toNat : ℤ) = max 0 yield ↔ 0 ≤ yield ∧ yield < 2 ^ 32 := by
  rw [← hyield]
  exact uint32_balance_iff inv discharge charge

theorem dailyPv_iff
    (hinv : (huaweiOf reg).inverter.dailyInvEnergyWh.toNat = (u32 reg 32114).toNat * 10)
    (hcharge : (huaweiOf reg).battery.dailyBatteryChargeWh.toNat = (u32 reg 37784).toNat * 10)
    (hdischarge : (huaweiOf reg).battery.dailyBatteryDischargeWh.toNat = (u32 reg 37786).toNat * 10) :
    ((huaweiOf reg).inverter.dailyPvEnergyWh.toNat : ℤ) = max 0 (dailyYield reg) ↔
      0 ≤ dailyYield reg ∧ dailyYield reg < 2 ^ 32 := by
  refine yield_iff ?_
  change ((huaweiOf reg).inverter.dailyInvEnergyWh.toNat : ℤ) - (huaweiOf reg).battery.dailyBatteryDischargeWh.toNat +
    (huaweiOf reg).battery.dailyBatteryChargeWh.toNat = dailyYield reg
  rw [hinv, hcharge, hdischarge, dailyYield]
  push_cast
  ring

theorem totalPv_iff
    (hinv : (huaweiOf reg).inverter.totalInvEnergyWh.toNat = (u32 reg 32106).toNat * 100)
    (hcharge : (huaweiOf reg).battery.totalBatteryChargeWh.toNat = (u32 reg 37780).toNat * 10)
    (hdischarge : (huaweiOf reg).battery.totalBatteryDischargeWh.toNat = (u32 reg 37782).toNat * 10) :
    ((huaweiOf reg).inverter.totalPvEnergyWh.toNat : ℤ) = max 0 (totalYield reg) ↔
      0 ≤ totalYield reg ∧ totalYield reg < 2 ^ 32 := by
  refine yield_iff ?_
  change ((huaweiOf reg).inverter.totalInvEnergyWh.toNat : ℤ) - (huaweiOf reg).battery.totalBatteryDischargeWh.toNat +
    (huaweiOf reg).battery.totalBatteryChargeWh.toNat = totalYield reg
  rw [hinv, hcharge, hdischarge, totalYield]
  push_cast
  ring

theorem huaweiOf_counters_iff : CountersExact reg (huaweiOf reg) ↔ CountersFit reg := by
  obtain ⟨hinv, hdinv, hcharge, hdischarge, hdcharge, hddischarge⟩ := huaweiOf_counters reg
  constructor
  · intro h
    refine ⟨(hundreds_iff reg _).mp (hinv ▸ h.totalInv), fun a ha => (tens_iff reg a).mp ?_,
      (dailyPv_iff reg h.dailyInv h.dailyCharge h.dailyDischarge).mp h.dailyPv,
      (totalPv_iff reg h.totalInv h.totalCharge h.totalDischarge).mp h.totalPv⟩
    simp only [List.mem_cons, List.not_mem_nil, or_false] at ha
    rcases ha with rfl | rfl | rfl | rfl | rfl
    exacts [hdinv ▸ h.dailyInv, hcharge ▸ h.totalCharge, hdischarge ▸ h.totalDischarge, hdcharge ▸ h.dailyCharge,
      hddischarge ▸ h.dailyDischarge]
  · intro h
    have htens {a : ℕ} (ha : a ∈ [32114, 37780, 37782, 37784, 37786]) := (tens_iff reg a).mpr (h.tens a ha)
    have hinv' := (congrArg UInt32.toNat hinv).trans ((hundreds_iff reg _).mpr h.totalInv)
    have hdinv' := (congrArg UInt32.toNat hdinv).trans (htens (by simp))
    have hcharge' := (congrArg UInt32.toNat hcharge).trans (htens (by simp))
    have hdischarge' := (congrArg UInt32.toNat hdischarge).trans (htens (by simp))
    have hdcharge' := (congrArg UInt32.toNat hdcharge).trans (htens (by simp))
    have hddischarge' := (congrArg UInt32.toNat hddischarge).trans (htens (by simp))
    exact ⟨hinv', hdinv', hcharge', hdischarge', hdcharge', hddischarge',
      (dailyPv_iff reg hdinv' hdcharge' hddischarge').mpr h.daily,
      (totalPv_iff reg hinv' hcharge' hdischarge').mpr h.total⟩

/-- The boiler's power in steps of 10 W is a `uint16_t`. -/
theorem canEz3Of_slPower_iff : (canEz3Of reg).slPower.toNat = (reg 2).toNat * 10 ↔ (reg 2).toNat ≤ 6553 := by
  have hpower : (canEz3Of reg).slPower = reg 2 * 10 := by
    simp only [canEz3Of, canEz3GetValues, read_uint16]
    rfl
  have hscaled : (reg 2 * 10).toNat = (reg 2).toNat * 10 ↔ (reg 2).toNat * 10 < 2 ^ 16 :=
    toNat_mul_iff (reg 2).toBitVec 10
  rw [hpower, hscaled]
  omega

end Counters

/-- **Counters and yields.** In every state with an inverter, the counters and the yields of
the panels are those of the integers, floored at zero, exactly if they fit in
`uint32_t`; in every state with a boiler its power is scaled exactly up to 6553. -/
theorem counters_exact_iff (evs : List Event) :
    let w := run World.step .init evs
    ((w.findClient .huawei).isSome = true → ∀ b,
        (CountersExact (w.registers .huawei) (huaweiIn w b) ↔ CountersFit (w.registers .huawei))) ∧
      ((w.findClient .canEz3).isSome = true → ∀ b,
        ((canEz3In w b).slPower.toNat = (w.registers .canEz3 2).toNat * 10 ↔ (w.registers .canEz3 2).toNat ≤ 6553)) := by
  intro w
  refine ⟨fun hfound b => ?_, fun hfound b => ?_⟩
  · rw [huaweiIn_eq evs hfound]
    exact huaweiOf_counters_iff _
  · rw [canEz3In_eq evs hfound]
    exact canEz3Of_slPower_iff _

/-- An inverter with a battery and a boiler are polled, with counters of the day and the
boiler's power. -/
def countersPolled (daily charge discharge power : UInt16) : List Event :=
  [.startClient .huawei "inverter" 502, .startClient .canEz3 "boiler" 502,
    .poll 0 ⟨2, deviceReply fun a => if a = 32115 then daily else 0⟩,
    .poll 0 ⟨5, deviceReply fun a => if a = 37785 then charge else if a = 37787 then discharge else 0⟩,
    .poll 1 ⟨0, deviceReply fun a => if a = 2 then power else 0⟩]

/-- With 10 Wh discharged and none yielded the yield is 4294967286 Wh; 65540 W of the boiler
are 4 W. -/
theorem counters_wrap :
    ¬ CountersExact ((run World.step .init (countersPolled 0 0 1 6554)).registers .huawei)
        (huaweiIn (run World.step .init (countersPolled 0 0 1 6554)) default) ∧
      (canEz3In (run World.step .init (countersPolled 0 0 1 6554)) default).slPower.toNat ≠
        ((run World.step .init (countersPolled 0 0 1 6554)).registers .canEz3 2).toNat * 10 :=
  ⟨fun h => absurd h.dailyPv (by decide +kernel), by decide +kernel⟩

/-- More discharged than yielded, but less than yielded and charged. -/
theorem counters_exact_discharged :
    CountersExact ((run World.step .init (countersPolled 1 3 2 6553)).registers .huawei)
        (huaweiIn (run World.step .init (countersPolled 1 3 2 6553)) default) ∧
      (canEz3In (run World.step .init (countersPolled 1 3 2 6553)) default).slPower.toNat =
        ((run World.step .init (countersPolled 1 3 2 6553)).registers .canEz3 2).toNat * 10 := by
  have hexact := counters_exact_iff (countersPolled 1 3 2 6553)
  refine ⟨(hexact.1 (by decide +kernel) default).mpr ⟨by decide +kernel, by decide +kernel, ?_, ?_⟩,
    (hexact.2 (by decide +kernel) default).mpr (by decide +kernel)⟩
  · decide +kernel
  · decide +kernel

end ModbusProxy.Convert
