import ModbusProxy.Library.Quantize
import ModbusProxy.Logger.Sample

/-!
# Packing a sample into a slot of the cache

The logger keeps its samples in packed structures (`cached_solar_values_t`): powers,
currents and the like are scaled and put into bit fields by `update_cached_values`, and
unpacked again for the record that `solar_logger_post_data` sends.

## The model

A bit field, and a field that is assigned a floating point value, is a bit vector; the
others have the type that they have in C. A conversion of a number out of the range of
the target is undefined in C if the number is a `float`; here its bits are those of the
cut-off number. A printed number is the rational that its digits say.
-/

namespace ModbusProxy.Logger

open Quantize

/-! ### Slots -/

/-- `cached_solar_values_t`. -/
structure CachedSolarValues where
  /-- `p_inv_ac :19`. -/
  pInvAc : BitVec 19
  /-- `p_grid :19`. -/
  pGrid : BitVec 19
  /-- `p_load :19`. -/
  pLoad : BitVec 19
  /-- `p_bat :19`. -/
  pBat : BitVec 19
  /-- `cp_status :3`. -/
  cpStatus : BitVec 3
  /-- `uploaded :1`. -/
  uploaded : Bool
  /-- `nrg_i_l1`, `nrg_i_l2`, `nrg_i_l3`. -/
  nrgIL : Fin 3 → BitVec 16
  /-- `p_nrgkick`. -/
  pNrgkick : BitVec 16
  /-- `i_l1 :20`, `i_l2 :20`, `i_l3 :20`. -/
  iL : Fin 3 → BitVec 20
  /-- `u_l1 :12`, `u_l2 :12`, `u_l3 :12`. -/
  uL : Fin 3 → BitVec 12
  /-- `ts`. -/
  ts : BitVec 32
  /-- `p_l1 :22`, `p_l2 :22`, `p_l3 :22`. -/
  pL : Fin 3 → BitVec 22
  /-- `s_l1 :22`, `s_l2 :22`, `s_l3 :22`. -/
  sL : Fin 3 → BitVec 22
  /-- `freq :22`. -/
  freq : BitVec 22
  /-- `p_pv :22`. -/
  pPv : BitVec 22
  /-- `bat_soc_f10 :10`. -/
  batSocF10 : BitVec 10
  /-- `energy_prod_day`. -/
  energyProdDay : UInt32
  /-- `energy_prod_wh`. -/
  energyProdWh : UInt32
  /-- `energy_inv_day`. -/
  energyInvDay : UInt32
  /-- `energy_inv_wh`. -/
  energyInvWh : UInt32
  /-- `energy_bat_chrg_day`. -/
  energyBatChrgDay : UInt32
  /-- `energy_bat_disc_day`. -/
  energyBatDiscDay : UInt32
  /-- `energy_bat_chrg`. -/
  energyBatChrg : UInt32
  /-- `energy_bat_disc`. -/
  energyBatDisc : UInt32
  /-- `p_pv1 :22`. -/
  pPv1 : BitVec 22
  /-- `p_pv2 :22`. -/
  pPv2 : BitVec 22
  /-- `u_pv1 :22`. -/
  uPv1 : BitVec 22
  /-- `u_pv2 :22`. -/
  uPv2 : BitVec 22
  /-- `i_pv1 :22`. -/
  iPv1 : BitVec 22
  /-- `i_pv2 :22`. -/
  iPv2 : BitVec 22
  /-- `energy_exp_wh`. -/
  energyExpWh : UInt64
  /-- `energy_imp_wh`. -/
  energyImpWh : UInt64
  /-- `warning_code`. -/
  warningCode : UInt8
  /-- `error_code`. -/
  errorCode : UInt8
  /-- `connector_temp_l1`, `connector_temp_l2`, `connector_temp_l3`. -/
  connectorTempL : Fin 3 → BitVec 16
  /-- `max_current_to_ev`. -/
  maxCurrentToEv : BitVec 16
  /-- `user_set_current`. -/
  userSetCurrent : BitVec 16
  /-- `charged_energy`. -/
  chargedEnergy : UInt32
  /-- `housing_temp`. -/
  housingTemp : BitVec 16
  /-- `switched_relais :4`. -/
  switchedRelais : BitVec 4
  /-- `boiler_temp`. -/
  boilerTemp : BitVec 16
  /-- `sl_temp`. -/
  slTemp : BitVec 16
  /-- `sl_power`. -/
  slPower : UInt16
  /-- `sl_status`. -/
  slStatus : UInt16
  deriving Inhabited

/-! ### Limits -/

/-- `MAX_UINTN`. -/
def maxUIntN (n : ℕ) : ℤ := 2 ^ n - 1

/-- `MAX_INTN`. -/
def maxIntN (n : ℕ) : ℤ := 2 ^ (n - 1) - 1

/-- `MIN_INTN`. -/
def minIntN (n : ℕ) : ℤ := -2 ^ (n - 1)

/-- `x >= 0 ? ((int32_t)(x * scale) > MAX_INTN(n) ? MAX_INTN(n) : (int32_t)(x * scale)) :
((int32_t)(x * scale) < MIN_INTN(n) ? MIN_INTN(n) : (int32_t)(x * scale))`. -/
def clampScaled (n scale : ℕ) (x : ℚ) : ℤ :=
  if 0 ≤ x then
    if trunc (x * scale) > maxIntN n then maxIntN n else trunc (x * scale)
  else
    if trunc (x * scale) < minIntN n then minIntN n else trunc (x * scale)

/-- `x >= 0 ? ((uint32_t)(x * scale) > MAX_UINTN(n) ? MAX_UINTN(n) : (uint32_t)(x * scale)) : (0)`. -/
def clampUnsigned (n scale : ℕ) (x : ℚ) : ℤ :=
  if 0 ≤ x then
    if trunc (x * scale) > maxUIntN n then maxUIntN n else trunc (x * scale)
  else 0

/-- `x >= 0 ? (x > MAX_INTN(n) ? MAX_INTN(n) : x) : (x < MIN_INTN(n) ? MIN_INTN(n) : x)`. -/
def clampInt (n : ℕ) (x : Int32) : ℤ :=
  if 0 ≤ x.toInt then
    if x.toInt > maxIntN n then maxIntN n else x.toInt
  else
    if x.toInt < minIntN n then minIntN n else x.toInt

/-- `x > MAX_INTN(n) ? MAX_UINTN(n) : x`, without a lower limit. -/
def clampAbove (n : ℕ) (x : Int32) : ℤ := if x.toInt > maxIntN n then maxUIntN n else x.toInt

/-- `x <= 0 ? 0 : (x <= 100 ? (x * 10) : 1000)`. -/
def clampSoc (x : ℚ) : ℚ := if x ≤ 0 then 0 else if x ≤ 100 then x * 10 else 1000

/-! ### Packing -/

/-- The assignments of `update_cached_values` to `cached_values[cache_index]`. -/
def updateCachedValue (slot : CachedSolarValues) (s : Sample) : CachedSolarValues :=
  { slot with
    ts := .ofInt 32 s.ts
    pPv := .ofInt 22 (clampAbove 22 s.values.inverter.pvDcW)
    pPv1 := .ofInt 22 (clampAbove 22 s.values.inverter.pv1Power)
    pPv2 := .ofInt 22 (clampAbove 22 s.values.inverter.pv2Power)
    uPv1 := .ofInt 22 (clampScaled 22 10 s.values.inverter.pv1Voltage)
    uPv2 := .ofInt 22 (clampScaled 22 10 s.values.inverter.pv2Voltage)
    iPv1 := .ofInt 22 (clampScaled 22 100 s.values.inverter.pv1Current)
    iPv2 := .ofInt 22 (clampScaled 22 100 s.values.inverter.pv2Current)
    energyProdDay := s.values.inverter.dailyPvEnergyWh
    energyProdWh := s.values.inverter.totalPvEnergyWh
    energyInvDay := s.values.inverter.dailyInvEnergyWh
    energyInvWh := s.values.inverter.totalInvEnergyWh
    energyBatChrgDay := s.values.battery.dailyBatteryChargeWh
    energyBatDiscDay := s.values.battery.dailyBatteryDischargeWh
    energyBatChrg := s.values.battery.totalBatteryChargeWh
    energyBatDisc := s.values.battery.totalBatteryDischargeWh
    pGrid := .ofInt 19 (clampInt 19 s.values.energyMeter.pGridW)
    pLoad := .ofInt 19 (clampInt 19 s.values.energyMeter.pLoadW)
    energyExpWh := s.values.energyMeter.energyRealProdWh
    energyImpWh := s.values.energyMeter.energyRealConsWh
    freq := .ofInt 22 (clampScaled 20 100 s.values.energyMeter.gridFreqHz)
    iL := fun k => .ofInt 20 (clampScaled 20 100 (s.values.energyMeter.current k))
    uL := fun k => .ofInt 12 (clampUnsigned 12 10 (s.values.energyMeter.voltage k))
    pL := fun k => .ofInt 22 (clampScaled 22 10 (s.values.energyMeter.powerReal k))
    sL := fun k => .ofInt 22 (clampScaled 22 10 (s.values.energyMeter.powerApparent k))
    batSocF10 := .ofInt 10 (trunc (clampSoc s.values.battery.batterySoc))
    pBat := .ofInt 19 (clampInt 19 s.values.battery.batteryPowerW)
    switchedRelais := .ofInt 4 s.nrgkick.switchedRelais.toNat
    cpStatus := .ofInt 3 s.nrgkick.cpStatus.toNat
    chargedEnergy := s.nrgkick.chargedEnergy
    warningCode := s.nrgkick.warningCode
    errorCode := s.nrgkick.errorCode
    connectorTempL := fun k => .ofInt 16 (trunc (s.nrgkick.connectorTemp k * 100))
    nrgIL := fun k => .ofInt 16 (trunc (s.nrgkick.current k * 1000))
    pNrgkick := .ofInt 16 (trunc (s.nrgkick.chargingPower * 1000))
    housingTemp := .ofInt 16 (trunc (s.nrgkick.housingTemp * 100))
    maxCurrentToEv := .ofInt 16 (trunc (s.nrgkick.userSetCurrent * 10))
    userSetCurrent := .ofInt 16 (trunc (s.nrgkick.userSetCurrent * 10))
    boilerTemp := .ofInt 16 (trunc (s.canEz3.boilerTemp * 10))
    slTemp := .ofInt 16 (trunc (s.canEz3.slTemp * 10))
    slPower := s.canEz3.slPower
    slStatus := s.canEz3.slStatus
    uploaded := false }

/-! ### Records -/

/-- A number in a record, as the conversion of its format prints it. -/
inductive Printed where
  /-- `%d`, `%u`, `%lu`, `%hhu`. -/
  | int (z : ℤ)
  /-- `%.1f` and so on, with the number of decimals. -/
  | fixed (decimals : ℕ) (q : ℚ)

/-- The number that the digits say. -/
def Printed.number : Printed → ℚ
  | .int z => z
  | .fixed decimals q => (round (q * 10 ^ decimals) : ℚ) / 10 ^ decimals

/-- The fields of a record. -/
inductive Field where
  | pPv | pPv1 | pPv2 | uPv1 | uPv2 | iPv1 | iPv2 | pInvAc | pGrid | pLoad | pBat | soc | freq
  | iL (k : Fin 3) | uL (k : Fin 3) | pL (k : Fin 3) | sL (k : Fin 3)
  | energyProdDay | energyProdWh | energyInvDay | energyInvWh | energyBatChrgDay | energyBatDiscDay
  | energyBatChrg | energyBatDisc | energyExpWh | energyImpWh
  | nrgIL (k : Fin 3) | chargingPower | chargedEnergy | housingTemp | cpStatus | switchedRelais | warningCode
  | errorCode | connectorTempL (k : Fin 3) | maxCurrentToEv | userSetCurrent | boilerTemp | slPower | slTemp
  | slStatus | ts
  deriving DecidableEq

/-- What the format of a record prints for a field of a slot. -/
def CachedSolarValues.print (v : CachedSolarValues) : Field → Printed
  | .pPv => .int v.pPv.toInt
  | .pPv1 => .int v.pPv1.toInt
  | .pPv2 => .int v.pPv2.toInt
  | .uPv1 => .fixed 1 (v.uPv1.toInt / 10)
  | .uPv2 => .fixed 1 (v.uPv2.toInt / 10)
  | .iPv1 => .fixed 2 (v.iPv1.toInt / 100)
  | .iPv2 => .fixed 2 (v.iPv2.toInt / 100)
  | .pInvAc => .int v.pInvAc.toInt
  | .pGrid => .int v.pGrid.toInt
  | .pLoad => .int v.pLoad.toInt
  | .pBat => .int v.pBat.toInt
  | .soc => .fixed 6 (v.batSocF10.toNat / 10)
  | .freq => .fixed 2 (v.freq.toInt / 100)
  | .iL k => .fixed 2 ((v.iL k).toInt / 100)
  | .uL k => .fixed 1 ((v.uL k).toNat / 10)
  | .pL k => .fixed 2 ((v.pL k).toInt / 10)
  | .sL k => .fixed 2 ((v.sL k).toInt / 10)
  | .energyProdDay => .int v.energyProdDay.toNat
  | .energyProdWh => .int v.energyProdWh.toNat
  | .energyInvDay => .int v.energyInvDay.toNat
  | .energyInvWh => .int v.energyInvWh.toNat
  | .energyBatChrgDay => .int v.energyBatChrgDay.toNat
  | .energyBatDiscDay => .int v.energyBatDiscDay.toNat
  | .energyBatChrg => .int v.energyBatChrg.toNat
  | .energyBatDisc => .int v.energyBatDisc.toNat
  | .energyExpWh => .int v.energyExpWh.toNat
  | .energyImpWh => .int v.energyImpWh.toNat
  | .nrgIL k => .fixed 2 (v.nrgIL k).toNat
  | .chargingPower => .fixed 3 (v.pNrgkick.toInt / 1000)
  | .chargedEnergy => .int v.chargedEnergy.toNat
  | .housingTemp => .fixed 2 (v.housingTemp.toInt / 100)
  | .cpStatus => .int v.cpStatus.toNat
  | .switchedRelais => .int v.switchedRelais.toNat
  | .warningCode => .int v.warningCode.toNat
  | .errorCode => .int v.errorCode.toNat
  | .connectorTempL k => .fixed 2 ((v.connectorTempL k).toInt / 100)
  | .maxCurrentToEv => .fixed 1 (v.maxCurrentToEv.toNat / 10)
  | .userSetCurrent => .fixed 1 (v.userSetCurrent.toNat / 10)
  | .boilerTemp => .fixed 1 (v.boilerTemp.toInt / 10)
  | .slPower => .int v.slPower.toNat
  | .slTemp => .fixed 1 (v.slTemp.toInt / 10)
  | .slStatus => .int v.slStatus.toNat
  | .ts => .int v.ts.toNat

/-- The name of a field in a record. The timestamp, which ends it, has none. -/
def Field.name : Field → String
  | .pPv => "p_pv"
  | .pPv1 => "p_pv1"
  | .pPv2 => "p_pv2"
  | .uPv1 => "u_pv1"
  | .uPv2 => "u_pv2"
  | .iPv1 => "i_pv1"
  | .iPv2 => "i_pv2"
  | .pInvAc => "p_inv_ac"
  | .pGrid => "p_grid"
  | .pLoad => "p_load"
  | .pBat => "p_bat"
  | .soc => "soc"
  | .freq => "freq"
  | .iL k => ["i_l1", "i_l2", "i_l3"].get k
  | .uL k => ["u_l1", "u_l2", "u_l3"].get k
  | .pL k => ["p_l1", "p_l2", "p_l3"].get k
  | .sL k => ["s_l1", "s_l2", "s_l3"].get k
  | .energyProdDay => "energy_prod_day"
  | .energyProdWh => "energy_prod_wh"
  | .energyInvDay => "energy_inv_day"
  | .energyInvWh => "energy_inv_wh"
  | .energyBatChrgDay => "energy_bat_chrg_day"
  | .energyBatDiscDay => "energy_bat_disc_day"
  | .energyBatChrg => "energy_bat_chrg"
  | .energyBatDisc => "energy_bat_disc"
  | .energyExpWh => "energy_exp_wh"
  | .energyImpWh => "energy_imp_wh"
  | .nrgIL k => ["nrg_i_l1", "nrg_i_l2", "nrg_i_l3"].get k
  | .chargingPower => "charging_power"
  | .chargedEnergy => "charged_energy"
  | .housingTemp => "housing_temp"
  | .cpStatus => "cp_status"
  | .switchedRelais => "switched_relais"
  | .warningCode => "warning_code"
  | .errorCode => "error_code"
  | .connectorTempL k => ["connector_temp_l1", "connector_temp_l2", "connector_temp_l3"].get k
  | .maxCurrentToEv => "max_current_to_ev"
  | .userSetCurrent => "user_set_current"
  | .boilerTemp => "boiler_temp"
  | .slPower => "sl_power"
  | .slTemp => "sl_temp"
  | .slStatus => "sl_status"
  | .ts => ""

/-- The fields in the order in which a record has them. -/
def recordFields : List Field :=
  [.pPv, .pPv1, .pPv2, .uPv1, .uPv2, .iPv1, .iPv2, .pInvAc, .pGrid, .pLoad, .pBat, .soc, .freq, .iL 0, .uL 0, .iL 1,
    .uL 1, .iL 2, .uL 2, .pL 0, .pL 1, .pL 2, .sL 0, .sL 1, .sL 2, .energyProdDay, .energyProdWh, .energyInvDay,
    .energyInvWh, .energyBatChrgDay, .energyBatDiscDay, .energyBatChrg, .energyBatDisc, .energyExpWh, .energyImpWh,
    .nrgIL 0, .nrgIL 1, .nrgIL 2, .chargingPower, .chargedEnergy, .housingTemp, .cpStatus, .switchedRelais,
    .warningCode, .errorCode, .connectorTempL 0, .connectorTempL 1, .connectorTempL 2, .maxCurrentToEv,
    .userSetCurrent, .boilerTemp, .slPower, .slTemp, .slStatus, .ts]

/-- The record that `solar_logger_post_data` formats from a slot. -/
def formatRecord (v : CachedSolarValues) : List (String × Printed) := recordFields.map fun f => (f.name, v.print f)

end ModbusProxy.Logger
