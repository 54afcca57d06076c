import Mathlib.Data.Rat.Defs

/-!
# Samples

The three structures that the converters fill and the logger stores, `pv_values_t` of
`system.h`, `nrgkick_values_t` and `can_ez3_values_t`. A `float` is the rational number
that it stands for.
-/

namespace ModbusProxy.Logger

/-- `pv_values_t.inverter`. -/
structure Inverter where
  /-- `pv_dc_w`. -/
  pvDcW : Int32
  /-- `pv1_voltage`. -/
  pv1Voltage : ℚ
  /-- `pv1_current`. -/
  pv1Current : ℚ
  /-- `pv1_power`. -/
  pv1Power : Int32
  /-- `pv2_voltage`. -/
  pv2Voltage : ℚ
  /-- `pv2_current`. -/
  pv2Current : ℚ
  /-- `pv2_power`. -/
  pv2Power : Int32
  /-- `inv_ac_w`. -/
  invAcW : Int32
  /-- `daily_pv_energy_wh`. -/
  dailyPvEnergyWh : UInt32
  /-- `daily_inv_energy_wh`. -/
  dailyInvEnergyWh : UInt32
  /-- `total_pv_energy_wh`. -/
  totalPvEnergyWh : UInt32
  /-- `total_inv_energy_wh`. -/
  totalInvEnergyWh : UInt32
  deriving Inhabited

/-- `pv_values_t.energy_meter`, of which the logger stores all but the apparent energies. -/
structure EnergyMeter where
  /-- `current`. -/
  current : Fin 3 → ℚ
  /-- `voltage`. -/
  voltage : Fin 3 → ℚ
  /-- `power_real`. -/
  powerReal : Fin 3 → ℚ
  /-- `power_apparent`. -/
  powerApparent : Fin 3 → ℚ
  /-- `energy_real_cons_wh`. -/
  energyRealConsWh : UInt64
  /-- `energy_real_prod_wh`. -/
  energyRealProdWh : UInt64
  /-- `p_grid_w`. -/
  pGridW : Int32
  /-- `p_load_w`. -/
  pLoadW : Int32
  /-- `grid_freq_hz`. -/
  gridFreqHz : ℚ
  deriving Inhabited

/-- `pv_values_t.battery`, of which the logger stores all but the working mode. -/
structure Battery where
  /-- `battery_power_w`. -/
  batteryPowerW : Int32
  /-- `battery_soc`. -/
  batterySoc : ℚ
  /-- `daily_battery_charge_wh`. -/
  dailyBatteryChargeWh : UInt32
  /-- `daily_battery_discharge_wh`. -/
  dailyBatteryDischargeWh : UInt32
  /-- `total_battery_charge_wh`. -/
  totalBatteryChargeWh : UInt32
  /-- `total_battery_discharge_wh`. -/
  totalBatteryDischargeWh : UInt32
  deriving Inhabited

/-- `pv_values_t`. -/
structure PvValues where
  /-- `inverter`. -/
  inverter : Inverter
  /-- `energy_meter`. -/
  energyMeter : EnergyMeter
  /-- `battery`. -/
  battery : Battery
  deriving Inhabited

/-- `nrgkick_values_t`. -/
structure NrgkickValues where
  /-- `current`. -/
  current : Fin 3 → ℚ
  /-- `connector_temp`. -/
  connectorTemp : Fin 3 → ℚ
  /-- `charged_energy`. -/
  chargedEnergy : UInt32
  /-- `charging_power`. -/
  chargingPower : ℚ
  /-- `housing_temp`. -/
  housingTemp : ℚ
  /-- `cp_status`. -/
  cpStatus : UInt8
  /-- `switched_relais`. -/
  switchedRelais : UInt8
  /-- `warning_code`. -/
  warningCode : UInt8
  /-- `error_code`. -/
  errorCode : UInt8
  /-- `max_current_to_ev`. -/
  maxCurrentToEv : ℚ
  /-- `user_set_current`. -/
  userSetCurrent : ℚ
  deriving Inhabited

/-- `can_ez3_values_t`. -/
structure CanEz3Values where
  /-- `boiler_temp`. -/
  boilerTemp : ℚ
  /-- `sl_temp`. -/
  slTemp : ℚ
  /-- `sl_power`. -/
  slPower : UInt16
  /-- `sl_status`. -/
  slStatus : UInt16
  deriving Inhabited

/-- What one call of `solar_logger_post_data` stores: its arguments and the time. -/
structure Sample where
  /-- `huawei_data`. -/
  values : PvValues
  /-- `nrgkick_data`. -/
  nrgkick : NrgkickValues
  /-- `can_ez3_data`. -/
  canEz3 : CanEz3Values
  /-- What `time` returned. -/
  ts : ℤ
  deriving Inhabited

end ModbusProxy.Logger
