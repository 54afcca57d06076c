import ModbusProxy.Convert.CanEz3
import ModbusProxy.Convert.Huawei
import ModbusProxy.Convert.Nrgkick
import ModbusProxy.Http.Page
import ModbusProxy.Library.FloatBits
import ModbusProxy.Library.JsonPrint

/-!
# The page with values

For `TYPE_URI_VALUES`, `build_payload` lets the converters fill three structures and prints
them with one format.

## The model

The format is the one of the source, and `asprintf` is `Printf.printf`. A member that is a
`float` in the packed structure of the wallbox is the one with its bytes. What `%u` prints of
a negative `int32_t` is the number of its bits.
-/

namespace ModbusProxy.Http

open Binary32 ModbusProxy.Convert CString Endian JsonText Memory Poll Printf

/-! ### What is printed -/

/-- A member of `nrgkick_values_t` that is a `float`. -/
def nrgkickFloat (values : NrgkickValues) (x : NrgkickMember) : Float32 := Float32.ofBits (ofBytes (values.get x))

/-- A member of `nrgkick_values_t` that is an unsigned integer, promoted. -/
def nrgkickUnsigned (values : NrgkickValues) (x : NrgkickMember) : UInt32 := ofBytes (values.get x)

section Body

variable (values : PvValues) (nrgkick : NrgkickValues) (canEz3 : CanEz3Values)

end Body

/-! ### The members of the page -/

/-- A number on the page. -/
inductive PageMember where
  | pvDcW | pv1Voltage | pv1Current | pv1Power | pv2Voltage | pv2Current | pv2Power | invAcW
  | totalPvEnergyWh | totalInvEnergyWh | dailyPvEnergyWh | dailyInvEnergyWh
  | pGridW | pLoadW | freqHz
  | current (k : Fin 3) | voltage (k : Fin 3) | powerReal (k : Fin 3) | powerApparent (k : Fin 3)
  | energyApparentConsVah | energyRealConsWh | energyApparentProdVah | energyRealProdWh
  | batteryPowerW | batterySoc | batteryWorkingMode
  | totalChargedEnergyWh | totalDischargedEnergyWh | dailyChargedEnergyWh | dailyDischargedEnergyWh
  | userSetCurrent | maxCurrentToEv | power | chargedEnergy | housingTemp
  | cpStatus | switchedRelais | warningCode | errorCode
  | evCurrent (k : Fin 3) | connectorTemp (k : Fin 3)
  | boilerTemp | slPower | slTemp | slStatus
  deriving DecidableEq

namespace PageMember

/-- The name of a phase. -/
def phase : Fin 3 → String
  | 0 => "L1"
  | 1 => "L2"
  | 2 => "L3"

/-- Where the number is found. -/
def path : PageMember → List String
  | pvDcW => ["inverter", "pv_dc_w"]
  | pv1Voltage => ["inverter", "pv1_voltage"]
  | pv1Current => ["inverter", "pv1_current"]
  | pv1Power => ["inverter", "pv1_power"]
  | pv2Voltage => ["inverter", "pv2_voltage"]
  | pv2Current => ["inverter", "pv2_current"]
  | pv2Power => ["inverter", "pv2_power"]
  | invAcW => ["inverter", "inv_ac_w"]
  | totalPvEnergyWh => ["inverter", "total_pv_energy_wh"]
  | totalInvEnergyWh => ["inverter", "total_inv_energy_wh"]
  | dailyPvEnergyWh => ["inverter", "daily_pv_energy_wh"]
  | dailyInvEnergyWh => ["inverter", "daily_inv_energy_wh"]
  | pGridW => ["energy_meter", "p_grid_w"]
  | pLoadW => ["energy_meter", "p_load_w"]
  | freqHz => ["energy_meter", "freq_hz"]
  | current k => ["energy_meter", phase k, "current"]
  | voltage k => ["energy_meter", phase k, "voltage"]
  | powerReal k => ["energy_meter", phase k, "power_real"]
  | powerApparent k => ["energy_meter", phase k, "power_apparent"]
  | energyApparentConsVah => ["energy_meter", "energy_apparent_cons_vah"]
  | energyRealConsWh => ["energy_meter", "energy_real_cons_wh"]
  | energyApparentProdVah => ["energy_meter", "energy_apparent_prod_vah"]
  | energyRealProdWh => ["energy_meter", "energy_real_prod_wh"]
  | batteryPowerW => ["battery", "battery_power_w"]
  | batterySoc => ["battery", "battery_soc"]
  | batteryWorkingMode => ["battery", "battery_working_mode"]
  | totalChargedEnergyWh => ["battery", "total_charged_energy_wh"]
  | totalDischargedEnergyWh => ["battery", "total_discharged_energy_wh"]
  | dailyChargedEnergyWh => ["battery", "daily_charged_energy_wh"]
  | dailyDischargedEnergyWh => ["battery", "daily_discharged_energy_wh"]
  | userSetCurrent => ["nrgkick", "user_set_current"]
  | maxCurrentToEv => ["nrgkick", "max_current_to_ev"]
  | power => ["nrgkick", "power"]
  | chargedEnergy => ["nrgkick", "charged_energy"]
  | housingTemp => ["nrgkick", "housing_temp"]
  | cpStatus => ["nrgkick", "cp_status"]
  | switchedRelais => ["nrgkick", "switched_relais"]
  | warningCode => ["nrgkick", "warning_code"]
  | errorCode => ["nrgkick", "error_code"]
  | evCurrent k => ["nrgkick", phase k, "current"]
  | connectorTemp k => ["nrgkick", phase k, "connector_temp"]
  | boilerTemp => ["smartload", "boiler_temp"]
  | slPower => ["smartload", "sl_power"]
  | slTemp => ["smartload", "sl_temp"]
  | slStatus => ["smartload", "sl_status"]

/-- How it is printed. -/
def conversion : PageMember → Conversion
  | pvDcW | totalPvEnergyWh | totalInvEnergyWh | dailyPvEnergyWh | dailyInvEnergyWh | batteryWorkingMode
  | totalChargedEnergyWh | totalDischargedEnergyWh | dailyChargedEnergyWh | dailyDischargedEnergyWh | chargedEnergy
  | slPower | slStatus => .u
  | pv1Power | pv2Power | invAcW | pGridW | pLoadW | batteryPowerW => .d
  | energyApparentConsVah | energyRealConsWh | energyApparentProdVah | energyRealProdWh => .lu
  | cpStatus | switchedRelais | warningCode | errorCode => .hhu
  | powerReal _ | powerApparent _ => .f 0
  | pv1Voltage | pv2Voltage | voltage _ | userSetCurrent | maxCurrentToEv | boilerTemp | slTemp => .f 1
  | pv1Current | pv2Current | current _ | batterySoc | housingTemp | connectorTemp _ => .f 2
  | freqHz | power | evCurrent _ => .f 3

/-- What is printed. -/
def arg (values : PvValues) (nrgkick : NrgkickValues) (canEz3 : CanEz3Values) : PageMember → Arg
  | pvDcW => .int32 values.inverter.pvDcW.toUInt32
  | pv1Voltage => .double values.inverter.pv1Voltage
  | pv1Current => .double values.inverter.pv1Current
  | pv1Power => .int32 values.inverter.pv1Power.toUInt32
  | pv2Voltage => .double values.inverter.pv2Voltage
  | pv2Current => .double values.inverter.pv2Current
  | pv2Power => .int32 values.inverter.pv2Power.toUInt32
  | invAcW => .int32 values.inverter.invAcW.toUInt32
  | totalPvEnergyWh => .int32 values.inverter.totalPvEnergyWh
  | totalInvEnergyWh => .int32 values.inverter.totalInvEnergyWh
  | dailyPvEnergyWh => .int32 values.inverter.dailyPvEnergyWh
  | dailyInvEnergyWh => .int32 values.inverter.dailyInvEnergyWh
  | pGridW => .int32 values.energyMeter.pGridW.toUInt32
  | pLoadW => .int32 values.energyMeter.pLoadW.toUInt32
  | freqHz => .double values.energyMeter.gridFreqHz
  | current k => .double (values.energyMeter.current k)
  | voltage k => .double (values.energyMeter.voltage k)
  | powerReal k => .double (values.energyMeter.powerReal k)
  | powerApparent k => .double (values.energyMeter.powerApparent k)
  | energyApparentConsVah => .int64 values.energyMeter.energyApparentConsVah
  | energyRealConsWh => .int64 values.energyMeter.energyRealConsWh
  | energyApparentProdVah => .int64 values.energyMeter.energyApparentProdVah
  | energyRealProdWh => .int64 values.energyMeter.energyRealProdWh
  | batteryPowerW => .int32 values.battery.batteryPowerW.toUInt32
  | batterySoc => .double values.battery.batterySoc
  | batteryWorkingMode => .int32 values.battery.batteryWorkingMode.toUInt32
  | totalChargedEnergyWh => .int32 values.battery.totalBatteryChargeWh
  | totalDischargedEnergyWh => .int32 values.battery.totalBatteryDischargeWh
  | dailyChargedEnergyWh => .int32 values.battery.dailyBatteryChargeWh
  | dailyDischargedEnergyWh => .int32 values.battery.dailyBatteryDischargeWh
  | userSetCurrent => .double (nrgkickFloat nrgkick .userSetCurrent)
  | maxCurrentToEv => .double (nrgkickFloat nrgkick .maxCurrentToEv)
  | power => .double (nrgkickFloat nrgkick .chargingPower)
  | chargedEnergy => .int32 (nrgkickUnsigned nrgkick .chargedEnergy)
  | housingTemp => .double (nrgkickFloat nrgkick .housingTemp)
  | cpStatus => .int32 (nrgkickUnsigned nrgkick .cpStatus)
  | switchedRelais => .int32 (nrgkickUnsigned nrgkick .switchedRelais)
  | warningCode => .int32 (nrgkickUnsigned nrgkick .warningCode)
  | errorCode => .int32 (nrgkickUnsigned nrgkick .errorCode)
  | evCurrent k => .double (nrgkickFloat nrgkick (.current k))
  | connectorTemp k => .double (nrgkickFloat nrgkick (.connectorTemp k))
  | boilerTemp => .double canEz3.boilerTemp
  | slPower => .int32 canEz3.slPower.toUInt32
  | slTemp => .double canEz3.slTemp
  | slStatus => .int32 canEz3.slStatus.toUInt32

end PageMember

/-- All numbers in the order in which they are printed. -/
def PageMember.all : List PageMember :=
  [.pvDcW, .pv1Voltage, .pv1Current, .pv1Power, .pv2Voltage, .pv2Current, .pv2Power, .invAcW,
    .totalPvEnergyWh, .totalInvEnergyWh, .dailyPvEnergyWh, .dailyInvEnergyWh,
    .pGridW, .pLoadW, .freqHz,
    .current 0, .voltage 0, .powerReal 0, .powerApparent 0, .current 1, .voltage 1, .powerReal 1, .powerApparent 1,
    .current 2, .voltage 2, .powerReal 2, .powerApparent 2,
    .energyApparentConsVah, .energyRealConsWh, .energyApparentProdVah, .energyRealProdWh,
    .batteryPowerW, .batterySoc, .batteryWorkingMode,
    .totalChargedEnergyWh, .totalDischargedEnergyWh, .dailyChargedEnergyWh, .dailyDischargedEnergyWh,
    .userSetCurrent, .maxCurrentToEv, .power, .chargedEnergy, .housingTemp,
    .cpStatus, .switchedRelais, .warningCode, .errorCode,
    .evCurrent 0, .connectorTemp 0, .evCurrent 1, .connectorTemp 1, .evCurrent 2, .connectorTemp 2,
    .boilerTemp, .slPower, .slTemp, .slStatus]

section Read

variable {values : PvValues} {nrgkick : NrgkickValues} {canEz3 : CanEz3Values}

end Read

end ModbusProxy.Http
