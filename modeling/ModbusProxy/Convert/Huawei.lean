import ModbusProxy.Convert.Reader

/-!
# The inverter

`huawei_get_values` of `huawei_modbus_converter.c` fills a `pv_values_t` from the Huawei
registers: the inverter and its panels, the battery, and the energy meter, whose
registers are read at once into a packed structure.

## The model

A member that is assigned once is a `let`; one that a call fills is the member after the
call, read from the member before it. The elements of the arrays are assigned one by one.
The products of `int32_t` wrap, where C leaves them undefined.

## What is proved

`huaweiGetValues_eq`: on registers, whatever was in the structure and in the local
variables, the result is `huaweiOf`. `huaweiGetValues_congr`: only the calls of
`huaweiCalls` are made, and each range lies in one block (`huaweiCalls_held`). The
members of the meter's structure are registers (`meterOf_int32` and the like).
-/

namespace ModbusProxy.Convert

open Memory Endian Poll Runs

/-! ### The structures -/

/-- `pv_values_t.inverter`. -/
structure Inverter where
  /-- `pv_dc_w`. -/
  pvDcW : Int32
  /-- `pv1_voltage`. -/
  pv1Voltage : Float32
  /-- `pv1_current`. -/
  pv1Current : Float32
  /-- `pv1_power`. -/
  pv1Power : Int32
  /-- `pv2_voltage`. -/
  pv2Voltage : Float32
  /-- `pv2_current`. -/
  pv2Current : Float32
  /-- `pv2_power`. -/
  pv2Power : Int32
  /-- `inv_ac_w`. -/
  invAcW : Int32
  /-- `daily_pv_energy_wh`. -/
  dailyPvEnergyWh : UInt32
  /-- `daily_inv_energy_wh`. -/
  dailyInvEnergyWh : UInt32
  /-- `total_pv_energy_wh`. -/
  totalPvEnergyWh : UInt32
  /-- `total_inv_energy_wh`. -/
  totalInvEnergyWh : UInt32
  deriving Inhabited

/-- `pv_values_t.energy_meter`. -/
structure EnergyMeter where
  /-- `current`. -/
  current : Fin 3 → Float32
  /-- `voltage`. -/
  voltage : Fin 3 → Float32
  /-- `power_real`. -/
  powerReal : Fin 3 → Float32
  /-- `power_apparent`. -/
  powerApparent : Fin 3 → Float32
  /-- `energy_apparent_cons_vah`. -/
  energyApparentConsVah : UInt64
  /-- `energy_real_cons_wh`. -/
  energyRealConsWh : UInt64
  /-- `energy_apparent_prod_vah`. -/
  energyApparentProdVah : UInt64
  /-- `energy_real_prod_wh`. -/
  energyRealProdWh : UInt64
  /-- `p_grid_w`. -/
  pGridW : Int32
  /-- `p_load_w`. -/
  pLoadW : Int32
  /-- `grid_freq_hz`. -/
  gridFreqHz : Float32
  deriving Inhabited

/-- `pv_values_t.battery`. -/
structure Battery where
  /-- `battery_power_w`. -/
  batteryPowerW : Int32
  /-- `battery_soc`. -/
  batterySoc : Float32
  /-- `battery_working_mode`. -/
  batteryWorkingMode : UInt8
  /-- `daily_battery_charge_wh`. -/
  dailyBatteryChargeWh : UInt32
  /-- `daily_battery_discharge_wh`. -/
  dailyBatteryDischargeWh : UInt32
  /-- `total_battery_charge_wh`. -/
  totalBatteryChargeWh : UInt32
  /-- `total_battery_discharge_wh`. -/
  totalBatteryDischargeWh : UInt32
  deriving Inhabited

/-- `pv_values_t`. -/
structure PvValues where
  /-- `inverter`. -/
  inverter : Inverter
  /-- `energy_meter`. -/
  energyMeter : EnergyMeter
  /-- `battery`. -/
  battery : Battery
  deriving Inhabited

/-- `huawei_em_request_t`, a packed structure: its members lie one behind the other, in the
order in which the accessors below name them. -/
structure HuaweiEmRequest where
  /-- The bytes. -/
  bytes : List UInt8
  /-- `sizeof`. -/
  length_bytes : bytes.length = 74

instance : Stored HuaweiEmRequest where
  size := 74
  toBytes em := em.bytes
  ofBytes bs := ⟨(bs ++ List.replicate 74 0).take 74, by simp⟩
  length_toBytes em := em.length_bytes
  ofBytes_toBytes em := by simp only [List.take_left' em.length_bytes]

instance : Inhabited HuaweiEmRequest := ⟨ofBytes []⟩

namespace HuaweiEmRequest

/-- The member at an offset. -/
def member {α : Type} [Stored α] (em : HuaweiEmRequest) (offset : ℕ) : α :=
  ofBytes ((em.bytes.drop offset).take (Stored.size α))

variable (em : HuaweiEmRequest)

/-- `power_real_l3`. -/
def powerRealL3 : Int32 := em.member 0
/-- `power_real_l2`. -/
def powerRealL2 : Int32 := em.member 4
/-- `power_real_l1`. -/
def powerRealL1 : Int32 := em.member 8
/-- `meter_type`, behind the three line voltages. -/
def meterType : UInt16 := em.member 24
/-- `energy_reactive_cons`. -/
def energyReactiveCons : Int32 := em.member 26
/-- `energy_real_cons`. -/
def energyRealCons : Int32 := em.member 30
/-- `energy_real_prod`. -/
def energyRealProd : Int32 := em.member 34
/-- `grid_freq`. -/
def gridFreq : Int16 := em.member 38
/-- `power_sf`. -/
def powerSf : Int16 := em.member 40
/-- `total_real_power`, behind `total_reactive_power`. -/
def totalRealPower : Int32 := em.member 46
/-- `current_l3`. -/
def currentL3 : Int32 := em.member 50
/-- `current_l2`. -/
def currentL2 : Int32 := em.member 54
/-- `current_l1`. -/
def currentL1 : Int32 := em.member 58
/-- `voltage_l3`. -/
def voltageL3 : Int32 := em.member 62
/-- `voltage_l2`. -/
def voltageL2 : Int32 := em.member 66
/-- `voltage_l1`. -/
def voltageL1 : Int32 := em.member 70

end HuaweiEmRequest

/-- The local variables of `huawei_get_values`. -/
structure HuaweiLocals where
  /-- `temp_bat_soc`. -/
  tempBatSoc : UInt16
  /-- `temp_bat_working_mode`. -/
  tempBatWorkingMode : UInt16
  /-- `temp_pv1_current`. -/
  tempPv1Current : Int16
  /-- `temp_pv2_current`. -/
  tempPv2Current : Int16
  /-- `temp_pv1_voltage`. -/
  tempPv1Voltage : Int16
  /-- `temp_pv2_voltage`. -/
  tempPv2Voltage : Int16
  /-- `em`. -/
  em : HuaweiEmRequest
  deriving Inhabited

/-! ### The converter -/

/-- The members of the inverter up to the battery's; its photovoltaic energies follow
later. -/
def huaweiInverter (r : Reader) (loc : HuaweiLocals) (values : Inverter) : Inverter :=
  let tempPv1Voltage := r.read 0 32016 1 true loc.tempPv1Voltage
  let pv1Voltage := float tempPv1Voltage.toInt / float 10
  let tempPv1Current := r.read 1 32017 1 true loc.tempPv1Current
  let pv1Current := float tempPv1Current.toInt / float 100
  let tempPv2Voltage := r.read 2 32018 1 true loc.tempPv2Voltage
  let pv2Voltage := float tempPv2Voltage.toInt / float 10
  let tempPv2Current := r.read 3 32019 1 true loc.tempPv2Current
  let pv2Current := float tempPv2Current.toInt / float 100
  { values with
    pv1Voltage := pv1Voltage
    pv1Current := pv1Current
    pv1Power := toInt32 (pv1Voltage * pv1Current)
    pv2Voltage := pv2Voltage
    pv2Current := pv2Current
    pv2Power := toInt32 (pv2Voltage * pv2Current)
    pvDcW := r.read 4 32064 2 true values.pvDcW
    invAcW := r.read 5 32080 2 true values.invAcW
    totalInvEnergyWh := r.read 6 32106 2 true values.totalInvEnergyWh * 100
    dailyInvEnergyWh := r.read 7 32114 2 true values.dailyInvEnergyWh * 10 }

/-- The members of the battery. -/
def huaweiBattery (r : Reader) (loc : HuaweiLocals) (values : Battery) : Battery :=
  let batteryPowerW : Int32 := r.read 8 37765 2 true values.batteryPowerW
  let tempBatSoc := r.read 9 37760 1 true loc.tempBatSoc
  let tempBatWorkingMode := r.read 10 47086 1 true loc.tempBatWorkingMode
  { values with
    batteryPowerW := -batteryPowerW
    batterySoc := float tempBatSoc.toNat / float 10
    batteryWorkingMode := tempBatWorkingMode.toUInt8
    totalBatteryChargeWh := r.read 11 37780 2 true values.totalBatteryChargeWh * 10
    totalBatteryDischargeWh := r.read 12 37782 2 true values.totalBatteryDischargeWh * 10
    dailyBatteryChargeWh := r.read 13 37784 2 true values.dailyBatteryChargeWh * 10
    dailyBatteryDischargeWh := r.read 14 37786 2 true values.dailyBatteryDischargeWh * 10 }

/-- `(uint64_t) x` of an `int32_t`. -/
def toUInt64 (x : Int32) : UInt64 := x.toInt64.toUInt64

/-- What is squared of the real energy, before the conversion to `double`. -/
def realSquare (energyWh : UInt64) : UInt64 := energyWh * energyWh

/-- What is squared of the reactive energy, before the conversion to `double`. -/
def reactiveSquare (energyReactiveCons : Int32) : Int32 := energyReactiveCons * 10 * energyReactiveCons * 10

/-- `(uint64_t) sqrt((double) (…) + (…))`. -/
def apparentEnergy (real : UInt64) (reactive : Int32) : UInt64 :=
  (real.toFloat + Float.ofInt reactive.toInt).sqrt.toUInt64

/-- The members of the energy meter from its registers, and the load from the inverter's
power. -/
def huaweiMeter (em : HuaweiEmRequest) (invAcW : Int32) (values : EnergyMeter) : EnergyMeter :=
  let powerSf := if em.powerSf = 0 then 1 else em.powerSf
  let pGridW := -em.totalRealPower
  let voltage := Function.update values.voltage 0 (float em.voltageL1.toInt / float 10)
  let powerReal := Function.update values.powerReal 0 (-float em.powerRealL1.toInt)
  let current := Function.update values.current 0 (-float em.currentL1.toInt / float 100)
  let powerApparent :=
    Function.update values.powerApparent 0 (-(float em.powerRealL1.toInt / float powerSf.toInt))
  let energyRealConsWh := toUInt64 (em.energyRealCons * 10)
  let energyRealProdWh := toUInt64 (em.energyRealProd * 10)
  let apparent := apparentEnergy (realSquare energyRealConsWh) (reactiveSquare em.energyReactiveCons)
  { pGridW := pGridW
    gridFreqHz := float em.gridFreq.toInt / float 100
    powerReal :=
      if em.meterType ≠ 0 then
        Function.update (Function.update powerReal 1 (-float em.powerRealL2.toInt)) 2 (-float em.powerRealL3.toInt)
      else Function.update (Function.update powerReal 1 (float 0)) 2 (float 0)
    current :=
      if em.meterType ≠ 0 then
        Function.update (Function.update current 1 (-float em.currentL2.toInt / float 100)) 2
          (-float em.currentL3.toInt / float 100)
      else Function.update (Function.update current 1 (float 0)) 2 (float 0)
    voltage :=
      if em.meterType ≠ 0 then
        -- the third voltage, too, is taken from `voltage_l1`
        Function.update (Function.update voltage 1 (float em.voltageL2.toInt / float 10)) 2
          (float em.voltageL1.toInt / float 10)
      else Function.update (Function.update voltage 1 (float 0)) 2 (float 0)
    powerApparent :=
      if em.meterType ≠ 0 then
        Function.update (Function.update powerApparent 1 (-(float em.powerRealL2.toInt / float powerSf.toInt))) 2
          (-(float em.powerRealL3.toInt / float powerSf.toInt))
      else Function.update (Function.update powerApparent 1 (float 0)) 2 (float 0)
    energyRealConsWh := energyRealConsWh
    energyRealProdWh := energyRealProdWh
    -- the consumed energy is squared in both directions
    energyApparentConsVah := if 0 < em.energyReactiveCons then apparent else 0
    energyApparentProdVah := if 0 < em.energyReactiveCons then 0 else apparent
    pLoadW := invAcW + pGridW }

/-- `huawei_get_values`. -/
def huaweiGetValues (r : Reader) (loc : HuaweiLocals) (values : PvValues) : PvValues :=
  let inverter := huaweiInverter r loc values.inverter
  let battery := huaweiBattery r loc values.battery
  let em := r.read 15 37101 37 true loc.em
  { inverter :=
      { inverter with
        dailyPvEnergyWh :=
          inverter.dailyInvEnergyWh - battery.dailyBatteryDischargeWh + battery.dailyBatteryChargeWh
        totalPvEnergyWh :=
          inverter.totalInvEnergyWh - battery.totalBatteryDischargeWh + battery.totalBatteryChargeWh }
    energyMeter := huaweiMeter em inverter.invAcW values.energyMeter
    battery := battery }

/-! ### Its calls -/

/-- The calls of `huawei_get_values`, in their order. -/
def huaweiCalls : List Call :=
  [⟨0, 32016, 1⟩, ⟨1, 32017, 1⟩, ⟨2, 32018, 1⟩, ⟨3, 32019, 1⟩, ⟨4, 32064, 2⟩, ⟨5, 32080, 2⟩, ⟨6, 32106, 2⟩,
    ⟨7, 32114, 2⟩, ⟨8, 37765, 2⟩, ⟨9, 37760, 1⟩, ⟨10, 47086, 1⟩, ⟨11, 37780, 2⟩, ⟨12, 37782, 2⟩, ⟨13, 37784, 2⟩,
    ⟨14, 37786, 2⟩, ⟨15, 37101, 37⟩]

theorem huaweiCalls_held : HeldBy huaweiRegisters huaweiCalls := by decide

/-- No other calls are made. -/
theorem huaweiGetValues_congr {r r' : Reader} (h : r.AgreeOn r' true huaweiCalls) (loc : HuaweiLocals)
    (values : PvValues) : huaweiGetValues r loc values = huaweiGetValues r' loc values := by
  simp only [Reader.AgreeOn, huaweiCalls, List.forall_mem_cons, List.not_mem_nil, IsEmpty.forall_iff,
    implies_true, and_true] at h
  simp only [huaweiGetValues, huaweiInverter, huaweiBattery, Reader.read, h]

/-! ### On registers -/

/-- The meter's structure as the registers fill it. -/
def meterOf (reg : ℕ → UInt16) : HuaweiEmRequest := ofBytes (hostBytes true 37 fun k => reg (37101 + k))

section Meter

variable (reg : ℕ → UInt16)

@[simp] theorem read_meter (call : ℕ) (em : HuaweiEmRequest) :
    (registerReader reg).read call 37101 37 true em = meterOf reg :=
  read_registerReader reg (by rfl) call 37101 true em

/-- The bytes of a member are those of its registers, the last one first. -/
theorem slice_meterOf {i m : ℕ} (h : i + m ≤ 37) :
    ((meterOf reg).bytes.drop (2 * i)).take (2 * m) = hostBytes true m fun k => reg (37101 + (37 - i - m + k)) := by
  have hbytes : (meterOf reg).bytes = hostBytes true 37 fun k => reg (37101 + k) := List.take_left' (by simp)
  rw [hbytes, slice_hostBytes _ h]

theorem meterOf_int32 {i : ℕ} (h : i + 2 ≤ 37) :
    (meterOf reg).member (2 * i) = (u32 reg (37101 + (37 - i - 2))).toInt32 := by
  have hbytes := slice_meterOf reg h
  exact congrArg UInt32.toInt32 ((congrArg ofBytes hbytes).trans (ofBytes_words _))

theorem meterOf_uint16 {i : ℕ} (h : i + 1 ≤ 37) : (meterOf reg).member (2 * i) = reg (37101 + (37 - i - 1)) := by
  have hbytes := slice_meterOf reg h
  exact (congrArg ofBytes hbytes).trans (ofBytes_word true _)

theorem meterOf_int16 {i : ℕ} (h : i + 1 ≤ 37) :
    (meterOf reg).member (2 * i) = (reg (37101 + (37 - i - 1))).toInt16 :=
  congrArg UInt16.toInt16 (meterOf_uint16 reg h)

@[simp] theorem meterOf_powerRealL3 : (meterOf reg).powerRealL3 = (u32 reg 37136).toInt32 :=
  meterOf_int32 reg (i := 0) (by omega)

@[simp] theorem meterOf_powerRealL2 : (meterOf reg).powerRealL2 = (u32 reg 37134).toInt32 :=
  meterOf_int32 reg (i := 2) (by omega)

@[simp] theorem meterOf_powerRealL1 : (meterOf reg).powerRealL1 = (u32 reg 37132).toInt32 :=
  meterOf_int32 reg (i := 4) (by omega)

@[simp] theorem meterOf_meterType : (meterOf reg).meterType = reg 37125 :=
  meterOf_uint16 reg (i := 12) (by omega)

@[simp] theorem meterOf_energyReactiveCons : (meterOf reg).energyReactiveCons = (u32 reg 37123).toInt32 :=
  meterOf_int32 reg (i := 13) (by omega)

@[simp] theorem meterOf_energyRealCons : (meterOf reg).energyRealCons = (u32 reg 37121).toInt32 :=
  meterOf_int32 reg (i := 15) (by omega)

@[simp] theorem meterOf_energyRealProd : (meterOf reg).energyRealProd = (u32 reg 37119).toInt32 :=
  meterOf_int32 reg (i := 17) (by omega)

@[simp] theorem meterOf_gridFreq : (meterOf reg).gridFreq = (reg 37118).toInt16 :=
  meterOf_int16 reg (i := 19) (by omega)

@[simp] theorem meterOf_powerSf : (meterOf reg).powerSf = (reg 37117).toInt16 :=
  meterOf_int16 reg (i := 20) (by omega)

@[simp] theorem meterOf_totalRealPower : (meterOf reg).totalRealPower = (u32 reg 37113).toInt32 :=
  meterOf_int32 reg (i := 23) (by omega)

@[simp] theorem meterOf_currentL3 : (meterOf reg).currentL3 = (u32 reg 37111).toInt32 :=
  meterOf_int32 reg (i := 25) (by omega)

@[simp] theorem meterOf_currentL2 : (meterOf reg).currentL2 = (u32 reg 37109).toInt32 :=
  meterOf_int32 reg (i := 27) (by omega)

@[simp] theorem meterOf_currentL1 : (meterOf reg).currentL1 = (u32 reg 37107).toInt32 :=
  meterOf_int32 reg (i := 29) (by omega)

@[simp] theorem meterOf_voltageL3 : (meterOf reg).voltageL3 = (u32 reg 37105).toInt32 :=
  meterOf_int32 reg (i := 31) (by omega)

@[simp] theorem meterOf_voltageL2 : (meterOf reg).voltageL2 = (u32 reg 37103).toInt32 :=
  meterOf_int32 reg (i := 33) (by omega)

@[simp] theorem meterOf_voltageL1 : (meterOf reg).voltageL1 = (u32 reg 37101).toInt32 :=
  meterOf_int32 reg (i := 35) (by omega)

end Meter

/-- An array whose three elements are assigned. -/
@[simp] theorem update_three (xs : Fin 3 → Float32) (a b c : Float32) :
    Function.update (Function.update (Function.update xs 0 a) 1 b) 2 c = ![a, b, c] := by
  funext k
  fin_cases k <;> rfl

/-- Every member of the meter is assigned. -/
theorem huaweiMeter_eq (em : HuaweiEmRequest) (invAcW : Int32) (values values' : EnergyMeter) :
    huaweiMeter em invAcW values = huaweiMeter em invAcW values' := by
  simp only [huaweiMeter, update_three]

/-- What `huawei_get_values` makes of registers. -/
def huaweiOf (reg : ℕ → UInt16) : PvValues := huaweiGetValues (registerReader reg) default default

/-- On registers, every member of the structure is assigned from them. -/
theorem huaweiGetValues_eq (reg : ℕ → UInt16) (loc : HuaweiLocals) (values : PvValues) :
    huaweiGetValues (registerReader reg) loc values = huaweiOf reg := by
  simp only [huaweiOf, huaweiGetValues, huaweiInverter, huaweiBattery, read_int16, read_uint16, read_int32,
    read_uint32, read_meter]
  rw [huaweiMeter_eq _ _ values.energyMeter]

end ModbusProxy.Convert
