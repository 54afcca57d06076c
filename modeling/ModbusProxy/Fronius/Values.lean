import ModbusProxy.Convert.Huawei
import ModbusProxy.Fronius.Transfer
import ModbusProxy.Library.CString
import ModbusProxy.Library.Fill
import ModbusProxy.Library.Json

/-!
# Values from the inverter's pages

`fronius_get_values` of `fronius_solar_api.c` fills a `pv_values_t` from three JSON
documents: the inverter's values, the meter's values and the power flow.

## The model

A document is a JSON value with `double` numbers. Of an item the readers use `valueint` and
`valuedouble`, which `cJSON_Parse` sets for a number, and leaves zero otherwise, but for
`true`, whose `valueint` is one. A reader gives up by `goto exit` and leaves what it has
assigned.

## What is proved

When success means that the values are those of the documents (`fresh_iff`).
-/

namespace ModbusProxy.Fronius

open ModbusProxy.Convert CString Fill

/-! ### Items -/

/-- `valueint` of a number, which `parse_number` saturates. -/
def saturated (number : Float) : Int32 :=
  if 2147483647 ≤ number then 2147483647
  else if number ≤ -2147483648 then -2147483648
  else number.toInt32

/-- `valueint`. -/
def valueint : Json Float → Int32
  | .number n => saturated n
  | .bool true => 1
  | _ => 0

/-- `valuedouble`. -/
def valuedouble : Json Float → Float
  | .number n => n
  | _ => 0

/-- `cJSON_IsNumber`. -/
def cJSONIsNumber : Json Float → Bool
  | .number _ => true
  | _ => false

/-! ### The readers -/

/-- What a reader gets from `http_get`, and from `cJSON_Parse` for the string. -/
structure Reply where
  /-- What `http_get` returns. -/
  rc : Status
  /-- `status_code`. -/
  statusCode : ℤ
  /-- `json`. -/
  json : Option (Json Float)

/-- A reader parses the string that `http_get` has left, if there is one. -/
def Reply.of (parse : List UInt8 → Option (Json Float)) (fetched : Fetched) : Reply :=
  ⟨fetched.rc, fetched.statusCode, fetched.response.bind parse⟩

/-- `data`, where a reader gets so far. -/
def Reply.data (reply : Reply) : Option (Json Float) :=
  if reply.rc ≠ .ok then none
  else if reply.statusCode ≠ 200 then none
  else reply.json.bind (Json.follow [ascii "Body", ascii "Data"])

/-- `value`, the number in an item of the inverter. -/
def deviceValue (data : Json Float) (name : String) : Option (Json Float) := do
  let item ← data.member (ascii name)
  let value ← item.member (ascii "Value")
  if cJSONIsNumber value then some value else none

/-- `get_ivnerter_realtime_data`. -/
def getInverterRealtimeData (reply : Reply) : Fill PvValues PUnit := do
  let data ← require reply.data
  let idc ← require (deviceValue data "IDC")
  modify fun values => { values with inverter.pv1Current := float (valueint idc).toInt }
  let idc2 ← require (deviceValue data "IDC2")
  modify fun values => { values with inverter.pv2Current := float (valueint idc2).toInt }
  let udc ← require (deviceValue data "UDC")
  modify fun values => { values with inverter.pv1Voltage := float (valueint udc).toInt }
  let udc2 ← require (deviceValue data "UDC2")
  modify fun values => { values with inverter.pv2Voltage := float (valueint udc2).toInt }
  let pac ← require (deviceValue data "PAC")
  modify fun values => { values with inverter.invAcW := valueint pac }
  let totalEnergy ← require (deviceValue data "TOTAL_ENERGY")
  modify fun values => { values with inverter.totalPvEnergyWh := (valueint totalEnergy).toUInt32 }
  modify fun values =>
    { values with inverter.pv1Power := toInt32 (values.inverter.pv1Voltage * values.inverter.pv1Current) }
  modify fun values =>
    { values with inverter.pv2Power := toInt32 (values.inverter.pv2Voltage * values.inverter.pv2Current) }
  modify fun values => { values with inverter.pvDcW := values.inverter.pv1Power + values.inverter.pv2Power }
  modify fun values =>
    { values with
      inverter.dailyPvEnergyWh := 0
      inverter.dailyInvEnergyWh := 0
      inverter.totalInvEnergyWh := 0 }

/-- `key` of a phase, which `snprintf` cuts off. The phases are numbered from one. -/
def phaseKey (name : String) (k : Fin 3) : List UInt8 := (ascii name ++ ascii (toString (k.val + 1))).take 24

/-- `current`, with the sign of the power. -/
def phaseCurrent (current real : Float) : Float32 :=
  if 0 ≤ real.toFloat32 then current.toFloat32.abs else -current.toFloat32.abs

/-- What a pass of the loop over the phases assigns. -/
def assignPhase (current voltage real apparent : Float) (k : Fin 3) (values : PvValues) : PvValues :=
  { values with
    energyMeter.powerReal := Function.update values.energyMeter.powerReal k real.toFloat32
    energyMeter.current := Function.update values.energyMeter.current k (phaseCurrent current real)
    energyMeter.voltage := Function.update values.energyMeter.voltage k voltage.toFloat32
    energyMeter.powerApparent := Function.update values.energyMeter.powerApparent k apparent.toFloat32 }

/-- A pass of the loop. -/
def meterPhase (id : Json Float) (k : Fin 3) : Fill PvValues PUnit := do
  let current ← require (id.member (phaseKey "Current_AC_Phase_" k))
  let voltage ← require (id.member (phaseKey "Voltage_AC_Phase_" k))
  let real ← require (id.member (phaseKey "PowerReal_P_Phase_" k))
  let apparent ← require (id.member (phaseKey "PowerApparent_S_Phase_" k))
  modify (assignPhase (valuedouble current) (valuedouble voltage) (valuedouble real) (valuedouble apparent) k)

/-- What follows the loop. -/
def meterTotals (id : Json Float) : Fill PvValues PUnit := do
  let energyRealCons ← require (id.member (ascii "EnergyReal_WAC_Sum_Consumed"))
  let energyRealProd ← require (id.member (ascii "EnergyReal_WAC_Sum_Produced"))
  modify fun values =>
    { values with
      energyMeter.energyRealConsWh := toUInt64 (valueint energyRealCons)
      energyMeter.energyRealProdWh := toUInt64 (valueint energyRealProd) }
  let freq ← require (id.member (ascii "Frequency_Phase_Average"))
  modify fun values => { values with energyMeter.gridFreqHz := (valuedouble freq).toFloat32 }

/-- `get_meter_realtime_data`. -/
def getMeterRealtimeData (reply : Reply) : Fill PvValues PUnit := do
  let data ← require reply.data
  let id ← require (data.member (ascii "0"))
  let gridPower ← require (id.member (ascii "PowerReal_P_Sum"))
  modify fun values => { values with energyMeter.pGridW := valueint gridPower }
  (List.finRange 3).forM (meterPhase id)
  meterTotals id

/-- The state of charge, where the inverter is in the document. -/
def powerflowInverter (data : Json Float) : Fill PvValues PUnit :=
  match data.follow [ascii "Inverters", ascii "1"] with
  | none => pure ⟨⟩
  | some id => do
    let soc ← require (id.member (ascii "SOC"))
    modify fun values => { values with battery.batterySoc := (valuedouble soc).toFloat32 }

/-- The powers, where the site is in the document. -/
def powerflowSite (data : Json Float) : Fill PvValues PUnit :=
  match data.member (ascii "Site") with
  | none => pure ⟨⟩
  | some site => do
    let pAkku ← require (site.member (ascii "P_Akku"))
    let pLoad ← require (site.member (ascii "P_Load"))
    modify fun values =>
      { values with
        battery.batteryPowerW := valueint pAkku
        energyMeter.pLoadW := valueint pLoad }

/-- `get_powerflow_realtime_data`. -/
def getPowerflowRealtimeData (reply : Reply) : Fill PvValues PUnit := do
  let data ← require reply.data
  powerflowInverter data
  powerflowSite data

/-- The three replies. -/
structure Replies where
  /-- To `GetInverterRealtimeData`. -/
  inverter : Reply
  /-- To `GetMeterRealtimeData`. -/
  meter : Reply
  /-- To `GetPowerFlowRealtimeData`. -/
  powerflow : Reply

/-- The readers, one after the other. -/
def readers (replies : Replies) : Fill PvValues PUnit := do
  getInverterRealtimeData replies.inverter
  getMeterRealtimeData replies.meter
  getPowerflowRealtimeData replies.powerflow

/-- `fronius_get_values`: what it returns, and the structure after it. -/
def froniusGetValues (replies : Replies) (values : PvValues) : Status × PvValues :=
  match readers replies values with
  | .ok _ values' => (.ok, values')
  | .error _ values' => (.error, values')

/-! ### What is asked of it -/

/-- The documents. -/
inductive Page where
  /-- `GetInverterRealtimeData`. -/
  | inverter
  /-- `GetMeterRealtimeData`. -/
  | meter
  /-- `GetPowerFlowRealtimeData`. -/
  | powerflow

/-- Three documents. -/
abbrev Documents : Type := Page → Json Float

/-- A document that is returned with status 200. -/
def Reply.document (doc : Json Float) : Reply := ⟨.ok, 200, some doc⟩

/-- The replies with the documents. -/
def Documents.replies (docs : Documents) : Replies :=
  ⟨.document (docs .inverter), .document (docs .meter), .document (docs .powerflow)⟩

/-- Pages that are delivered in one chunk each are read as their documents. -/
theorem Documents.replies_of_transfers {parse : List UInt8 → Option (Json Float)} {docs : Documents}
    {pages : Page → List Chunk} (hpages : ∀ page, Reassembles (pages page))
    (hparse : ∀ page, parse (body (pages page) ++ [0]) = some (docs page)) (statusCode : Page → ℤ) :
    let reply (page : Page) : Reply := .of parse (httpGet (succeeding (pages page) 200) none (statusCode page))
    (⟨reply .inverter, reply .meter, reply .powerflow⟩ : Replies) = docs.replies := by
  intro reply
  have hreply (page : Page) : reply page = .document (docs page) := by
    change Reply.of parse (httpGet (succeeding (pages page) 200) none (statusCode page)) = _
    rw [hpages page, Reply.of, Option.bind_some, hparse page]
    rfl
  rw [hreply, hreply, hreply]
  rfl

/-- The members of the documents that values are taken from. -/
inductive Member where
  /-- `IDC`. -/
  | idc
  /-- `IDC2`. -/
  | idc2
  /-- `UDC`. -/
  | udc
  /-- `UDC2`. -/
  | udc2
  /-- `PAC`. -/
  | pac
  /-- `TOTAL_ENERGY`. -/
  | totalEnergy
  /-- `PowerReal_P_Sum`. -/
  | gridPower
  /-- `Current_AC_Phase_1` and so on. -/
  | current (k : Fin 3)
  /-- `Voltage_AC_Phase_1` and so on. -/
  | voltage (k : Fin 3)
  /-- `PowerReal_P_Phase_1` and so on. -/
  | real (k : Fin 3)
  /-- `PowerApparent_S_Phase_1` and so on. -/
  | apparent (k : Fin 3)
  /-- `EnergyReal_WAC_Sum_Consumed`. -/
  | energyRealCons
  /-- `EnergyReal_WAC_Sum_Produced`. -/
  | energyRealProd
  /-- `Frequency_Phase_Average`. -/
  | frequency
  /-- `SOC`. -/
  | soc
  /-- `P_Akku`. -/
  | pAkku
  /-- `P_Load`. -/
  | pLoad

/-- The document of a member. -/
def Member.page : Member → Page
  | .idc | .idc2 | .udc | .udc2 | .pac | .totalEnergy => .inverter
  | .soc | .pAkku | .pLoad => .powerflow
  | _ => .meter

/-- Where a member is in the data of its document. -/
def Member.path : Member → List (List UInt8)
  | .idc => [ascii "IDC", ascii "Value"]
  | .idc2 => [ascii "IDC2", ascii "Value"]
  | .udc => [ascii "UDC", ascii "Value"]
  | .udc2 => [ascii "UDC2", ascii "Value"]
  | .pac => [ascii "PAC", ascii "Value"]
  | .totalEnergy => [ascii "TOTAL_ENERGY", ascii "Value"]
  | .gridPower => [ascii "0", ascii "PowerReal_P_Sum"]
  | .current k => [ascii "0", phaseKey "Current_AC_Phase_" k]
  | .voltage k => [ascii "0", phaseKey "Voltage_AC_Phase_" k]
  | .real k => [ascii "0", phaseKey "PowerReal_P_Phase_" k]
  | .apparent k => [ascii "0", phaseKey "PowerApparent_S_Phase_" k]
  | .energyRealCons => [ascii "0", ascii "EnergyReal_WAC_Sum_Consumed"]
  | .energyRealProd => [ascii "0", ascii "EnergyReal_WAC_Sum_Produced"]
  | .frequency => [ascii "0", ascii "Frequency_Phase_Average"]
  | .soc => [ascii "Inverters", ascii "1", ascii "SOC"]
  | .pAkku => [ascii "Site", ascii "P_Akku"]
  | .pLoad => [ascii "Site", ascii "P_Load"]

/-- The data of a document. -/
def Documents.data (docs : Documents) (page : Page) : Option (Json Float) :=
  (docs page).follow [ascii "Body", ascii "Data"]

/-- What is at a place in the data of a document. -/
def Documents.at (docs : Documents) (page : Page) (path : List (List UInt8)) : Option (Json Float) :=
  (docs.data page).bind (Json.follow path)

/-- The item of a member. -/
def Documents.item (docs : Documents) (m : Member) : Option (Json Float) := docs.at m.page m.path

/-- The inverter's values, of the numbers in the documents. -/
def inverterOf (x : Member → Float) : Inverter :=
  let pv1Voltage := float (saturated (x .udc)).toInt
  let pv1Current := float (saturated (x .idc)).toInt
  let pv2Voltage := float (saturated (x .udc2)).toInt
  let pv2Current := float (saturated (x .idc2)).toInt
  { pv1Voltage, pv1Current, pv2Voltage, pv2Current
    pvDcW := toInt32 (pv1Voltage * pv1Current) + toInt32 (pv2Voltage * pv2Current)
    pv1Power := toInt32 (pv1Voltage * pv1Current)
    pv2Power := toInt32 (pv2Voltage * pv2Current)
    invAcW := saturated (x .pac)
    dailyPvEnergyWh := 0
    dailyInvEnergyWh := 0
    totalPvEnergyWh := (saturated (x .totalEnergy)).toUInt32
    totalInvEnergyWh := 0 }

/-- The meter's values, of the numbers in the documents. -/
def meterOf (x : Member → Float) (values : EnergyMeter) : EnergyMeter :=
  { values with
    current := fun k => phaseCurrent (x (.current k)) (x (.real k))
    voltage := fun k => (x (.voltage k)).toFloat32
    powerReal := fun k => (x (.real k)).toFloat32
    powerApparent := fun k => (x (.apparent k)).toFloat32
    energyRealConsWh := toUInt64 (saturated (x .energyRealCons))
    energyRealProdWh := toUInt64 (saturated (x .energyRealProd))
    pGridW := saturated (x .gridPower)
    pLoadW := saturated (x .pLoad)
    gridFreqHz := (x .frequency).toFloat32 }

/-- The structure with the values of the numbers in the documents. -/
def valuesOf (x : Member → Float) (values : PvValues) : PvValues where
  inverter := inverterOf x
  energyMeter := meterOf x values.energyMeter
  battery :=
    { values.battery with
      batteryPowerW := saturated (x .pAkku)
      batterySoc := (x .soc).toFloat32 }

/-- The fields that come from the documents. -/
structure Fields where
  /-- The inverter's. -/
  inverter : Inverter
  /-- The meter's for each phase: `current`, `voltage`, `power_real` and `power_apparent`. -/
  phases : Fin 3 → Float32 × Float32 × Float32 × Float32
  /-- `energy_real_cons_wh` and `energy_real_prod_wh`. -/
  energies : UInt64 × UInt64
  /-- `p_grid_w` and `p_load_w`. -/
  powers : Int32 × Int32
  /-- `grid_freq_hz`. -/
  gridFreqHz : Float32
  /-- `battery_power_w`. -/
  batteryPowerW : Int32
  /-- `battery_soc`. -/
  batterySoc : Float32

/-- These fields of a structure. -/
def fields (values : PvValues) : Fields where
  inverter := values.inverter
  phases k := (values.energyMeter.current k, values.energyMeter.voltage k, values.energyMeter.powerReal k,
    values.energyMeter.powerApparent k)
  energies := (values.energyMeter.energyRealConsWh, values.energyMeter.energyRealProdWh)
  powers := (values.energyMeter.pGridW, values.energyMeter.pLoadW)
  gridFreqHz := values.energyMeter.gridFreqHz
  batteryPowerW := values.battery.batteryPowerW
  batterySoc := values.battery.batterySoc

/-- These fields, and `energy_apparent_cons_vah` and `energy_apparent_prod_vah`. -/
def fieldsAndApparent (values : PvValues) : Fields × UInt64 × UInt64 :=
  (fields values, values.energyMeter.energyApparentConsVah, values.energyMeter.energyApparentProdVah)

/-- The members are numbers. -/
def Numbers (docs : Documents) (x : Member → Float) : Prop := ∀ m, docs.item m = some (.number (x m))

/-- Success means that the given fields are those of the documents. -/
structure Fresh {α : Type} (get : PvValues → α) (docs : Documents) : Prop where
  /-- Two calls agree. -/
  agree : ∀ values values' w w', froniusGetValues docs.replies values = (.ok, w) →
    froniusGetValues docs.replies values' = (.ok, w') → get w = get w'
  /-- The fields are taken from numbers. -/
  taken : ∀ values w, froniusGetValues docs.replies values = (.ok, w) →
    ∃ x, Numbers docs x ∧ get w = get (valuesOf x default)
  /-- A member that is missing or not a number is an error. -/
  error : ∀ m, (∀ n, docs.item m ≠ some (.number n)) → ∀ values, (froniusGetValues docs.replies values).1 = .error

/-- What the readers require: the inverter's members are numbers; the meter's are there; the
state of charge is there if its inverter is, and the powers are there if the site is. -/
structure Accepted (docs : Documents) : Prop where
  /-- The inverter's document. -/
  inverter : ∀ m : Member, m.page = .inverter → ∃ n, docs.item m = some (.number n)
  /-- The meter's document. -/
  meter : ∀ m : Member, m.page = .meter → (docs.item m).isSome = true
  /-- The power flow's document. -/
  powerflow : (docs.data .powerflow).isSome = true
  /-- Its inverter. -/
  soc : (docs.at .powerflow [ascii "Inverters", ascii "1"]).isSome = true → (docs.item .soc).isSome = true
  /-- Its site. -/
  site : (docs.at .powerflow [ascii "Site"]).isSome = true →
    (docs.item .pAkku).isSome = true ∧ (docs.item .pLoad).isSome = true

/-! ### Items of the documents -/

section Items

variable {docs : Documents} {data : Json Float}

theorem document_data (docs : Documents) (page : Page) : (Reply.document (docs page)).data = docs.data page := rfl

theorem at_of_data {page : Page} (h : docs.data page = some data) (path : List (List UInt8)) :
    docs.at page path = data.follow path := by
  rw [Documents.at, h, Option.bind_some]

theorem item_of_data {m : Member} {page : Page} (hm : m.page = page) (h : docs.data page = some data) :
    docs.item m = data.follow m.path := by
  subst hm
  exact at_of_data h m.path

theorem data_of_item {m : Member} (h : (docs.item m).isSome = true) : ∃ data, docs.data m.page = some data := by
  cases hdata : docs.data m.page with
  | none =>
    rw [Documents.item, Documents.at, hdata] at h
    cases h
  | some data => exact ⟨data, rfl⟩

/-- An item of the meter. -/
theorem item_meter (hdata : docs.data .meter = some data) {id : Json Float} (hid : data.member (ascii "0") = some id)
    {m : Member} (hm : m.page = .meter) {name : List UInt8} (hpath : m.path = [ascii "0", name]) :
    docs.item m = id.member name := by
  rw [item_of_data hm hdata, hpath, Json.follow_two, hid, Option.bind_some]

/-- The meter is there where its power is. -/
theorem exists_meter (h : (docs.item .gridPower).isSome = true) :
    ∃ data id, docs.data .meter = some data ∧ data.member (ascii "0") = some id := by
  obtain ⟨data, hdata⟩ := data_of_item h
  rw [item_of_data rfl hdata, Member.path, Json.follow_two, Option.isSome_iff_exists] at h
  obtain ⟨v, hv⟩ := h
  obtain ⟨id, hid, -⟩ := Option.bind_eq_some_iff.mp hv
  exact ⟨data, id, hdata, hid⟩

/-- The state of charge. -/
theorem item_soc (hdata : docs.data .powerflow = some data) :
    docs.item .soc = (data.follow [ascii "Inverters", ascii "1"]).bind (Json.member (ascii "SOC")) := by
  rw [item_of_data rfl hdata, Json.follow_two, Member.path, Json.follow_cons, Option.bind_assoc]
  exact congrArg _ (funext fun _ => Json.follow_two _ _ _)

/-- An item of the site. -/
theorem item_site (hdata : docs.data .powerflow = some data) {m : Member} (hm : m.page = .powerflow)
    {name : List UInt8} (hpath : m.path = [ascii "Site", name]) :
    docs.item m = (data.member (ascii "Site")).bind (Json.member name) := by
  rw [item_of_data hm hdata, hpath, Json.follow_two]

theorem deviceValue_eq_some {name : String} {v : Json Float} :
    deviceValue data name = some v ↔ ∃ n, v = .number n ∧ data.follow [ascii name, ascii "Value"] = some (.number n) := by
  rw [Json.follow_two, deviceValue]
  simp only [Option.bind_eq_bind, Option.bind_eq_some_iff]
  constructor
  · rintro ⟨item, hitem, value, hvalue, hnumber⟩
    cases value with
    | number n =>
      cases hnumber
      exact ⟨n, rfl, item, hitem, hvalue⟩
    | _ => cases hnumber
  · rintro ⟨n, rfl, item, hitem, hvalue⟩
    exact ⟨item, hitem, _, hvalue, rfl⟩

/-- An item of the inverter is found where its member is a number. -/
theorem exists_deviceValue (hdata : docs.data .inverter = some data) {m : Member} (hm : m.page = .inverter)
    {name : String} (hpath : m.path = [ascii name, ascii "Value"]) :
    (∃ v, deviceValue data name = some v) ↔ ∃ n, docs.item m = some (.number n) := by
  rw [item_of_data hm hdata, hpath]
  simp only [deviceValue_eq_some]
  exact ⟨fun ⟨_, n, _, h⟩ => ⟨n, h⟩, fun ⟨n, h⟩ => ⟨_, n, rfl, h⟩⟩

end Items

/-! ### When the readers succeed -/

section Success

variable (docs : Documents) (values : PvValues)

theorem succeeds_inverter : Succeeds (getInverterRealtimeData (.document (docs .inverter))) values ↔
    ∀ m : Member, m.page = .inverter → ∃ n, docs.item m = some (.number n) := by
  simp only [getInverterRealtimeData, succeeds_require, succeeds_modify, succeeds_modify_last, and_true,
    exists_and_right, document_data]
  constructor
  · rintro ⟨data, hdata, hidc, hidc2, hudc, hudc2, hpac, htotal⟩ m hm
    cases m with
    | idc => exact (exists_deviceValue hdata rfl rfl).mp hidc
    | idc2 => exact (exists_deviceValue hdata rfl rfl).mp hidc2
    | udc => exact (exists_deviceValue hdata rfl rfl).mp hudc
    | udc2 => exact (exists_deviceValue hdata rfl rfl).mp hudc2
    | pac => exact (exists_deviceValue hdata rfl rfl).mp hpac
    | totalEnergy => exact (exists_deviceValue hdata rfl rfl).mp htotal
    | _ => cases hm
  · intro h
    obtain ⟨n, hn⟩ := h .idc rfl
    obtain ⟨data, hdata⟩ := data_of_item (m := .idc) (by rw [hn]; rfl)
    have hvalue (m : Member) (hm : m.page = .inverter) (name : String) (hpath : m.path = [ascii name, ascii "Value"]) :
        ∃ v, deviceValue data name = some v := (exists_deviceValue hdata hm hpath).mpr (h m hm)
    exact ⟨data, hdata, hvalue .idc rfl _ rfl, hvalue .idc2 rfl _ rfl, hvalue .udc rfl _ rfl, hvalue .udc2 rfl _ rfl,
      hvalue .pac rfl _ rfl, hvalue .totalEnergy rfl _ rfl⟩

theorem succeeds_phase (id : Json Float) (k : Fin 3) : Succeeds (meterPhase id k) values ↔
    (∃ v, id.member (phaseKey "Current_AC_Phase_" k) = some v) ∧ (∃ v, id.member (phaseKey "Voltage_AC_Phase_" k) = some v) ∧
      (∃ v, id.member (phaseKey "PowerReal_P_Phase_" k) = some v) ∧
        ∃ v, id.member (phaseKey "PowerApparent_S_Phase_" k) = some v := by
  simp only [meterPhase, succeeds_require, succeeds_modify_last, and_true, exists_and_right]

theorem succeeds_totals (id : Json Float) : Succeeds (meterTotals id) values ↔
    (∃ v, id.member (ascii "EnergyReal_WAC_Sum_Consumed") = some v) ∧
      (∃ v, id.member (ascii "EnergyReal_WAC_Sum_Produced") = some v) ∧
        ∃ v, id.member (ascii "Frequency_Phase_Average") = some v := by
  simp only [meterTotals, succeeds_require, succeeds_modify, succeeds_modify_last, and_true, exists_and_right]

theorem succeeds_meterItem (id : Json Float) :
    Succeeds (do (List.finRange 3).forM (meterPhase id); meterTotals id) values ↔
      (∀ k : Fin 3, (∃ v, id.member (phaseKey "Current_AC_Phase_" k) = some v) ∧
        (∃ v, id.member (phaseKey "Voltage_AC_Phase_" k) = some v) ∧
        (∃ v, id.member (phaseKey "PowerReal_P_Phase_" k) = some v) ∧
          ∃ v, id.member (phaseKey "PowerApparent_S_Phase_" k) = some v) ∧
      (∃ v, id.member (ascii "EnergyReal_WAC_Sum_Consumed") = some v) ∧
        (∃ v, id.member (ascii "EnergyReal_WAC_Sum_Produced") = some v) ∧
          ∃ v, id.member (ascii "Frequency_Phase_Average") = some v := by
  rw [succeeds_seq fun s => succeeds_totals s id, succeeds_forM fun k s => succeeds_phase s id k]
  simp only [List.mem_finRange, forall_const]

theorem succeeds_meter : Succeeds (getMeterRealtimeData (.document (docs .meter))) values ↔
    ∀ m : Member, m.page = .meter → ∃ v, docs.item m = some v := by
  simp only [getMeterRealtimeData, succeeds_require, succeeds_modify, succeeds_meterItem, exists_and_right,
    document_data]
  constructor
  · rintro ⟨data, hdata, id, hid, hgrid, hphases, hcons, hprod, hfreq⟩ m hm
    have hitem (name : List UInt8) (hpath : m.path = [ascii "0", name]) : docs.item m = id.member name :=
      item_meter hdata hid hm hpath
    cases m with
    | gridPower => rw [hitem _ rfl]; exact hgrid
    | current k => rw [hitem _ rfl]; exact (hphases k).1
    | voltage k => rw [hitem _ rfl]; exact (hphases k).2.1
    | real k => rw [hitem _ rfl]; exact (hphases k).2.2.1
    | apparent k => rw [hitem _ rfl]; exact (hphases k).2.2.2
    | energyRealCons => rw [hitem _ rfl]; exact hcons
    | energyRealProd => rw [hitem _ rfl]; exact hprod
    | frequency => rw [hitem _ rfl]; exact hfreq
    | _ => cases hm
  · intro h
    obtain ⟨data, id, hdata, hid⟩ := exists_meter (Option.isSome_iff_exists.mpr (h .gridPower rfl))
    have hitem (m : Member) (hm : m.page = .meter) (name : List UInt8) (hpath : m.path = [ascii "0", name]) :
        ∃ v, id.member name = some v := item_meter hdata hid hm hpath ▸ h m hm
    exact ⟨data, hdata, id, hid, hitem .gridPower rfl _ rfl, fun k => ⟨hitem (.current k) rfl _ rfl,
      hitem (.voltage k) rfl _ rfl, hitem (.real k) rfl _ rfl, hitem (.apparent k) rfl _ rfl⟩,
      hitem .energyRealCons rfl _ rfl, hitem .energyRealProd rfl _ rfl, hitem .frequency rfl _ rfl⟩

theorem succeeds_powerflowInverter (data : Json Float) : Succeeds (powerflowInverter data) values ↔
    ∀ id, data.follow [ascii "Inverters", ascii "1"] = some id → ∃ v, id.member (ascii "SOC") = some v := by
  unfold powerflowInverter
  cases data.follow [ascii "Inverters", ascii "1"] with
  | none => simp
  | some id => simp only [succeeds_require, succeeds_modify_last, and_true, Option.some.injEq, forall_eq']

theorem succeeds_powerflowSite (data : Json Float) : Succeeds (powerflowSite data) values ↔
    ∀ site, data.member (ascii "Site") = some site →
      (∃ v, site.member (ascii "P_Akku") = some v) ∧ ∃ v, site.member (ascii "P_Load") = some v := by
  unfold powerflowSite
  cases data.member (ascii "Site") with
  | none => simp
  | some site =>
    simp only [succeeds_require, succeeds_modify_last, and_true, exists_and_right, Option.some.injEq, forall_eq']

theorem succeeds_powerflow : Succeeds (getPowerflowRealtimeData (.document (docs .powerflow))) values ↔
    ∃ data, docs.data .powerflow = some data ∧
      (∀ id, data.follow [ascii "Inverters", ascii "1"] = some id → ∃ v, id.member (ascii "SOC") = some v) ∧
        ∀ site, data.member (ascii "Site") = some site →
          (∃ v, site.member (ascii "P_Akku") = some v) ∧ ∃ v, site.member (ascii "P_Load") = some v := by
  have hboth (data : Json Float) (s : PvValues) : Succeeds (do powerflowInverter data; powerflowSite data) s ↔ _ :=
    (succeeds_seq (fun s => succeeds_powerflowSite s data) s).trans
      (and_congr_left' (succeeds_powerflowInverter s data))
  simp only [getPowerflowRealtimeData, succeeds_require, hboth, document_data]

theorem accepted_iff : Accepted docs ↔ Succeeds (getInverterRealtimeData (.document (docs .inverter))) values ∧
    Succeeds (getMeterRealtimeData (.document (docs .meter))) values ∧
      Succeeds (getPowerflowRealtimeData (.document (docs .powerflow))) values := by
  rw [succeeds_inverter, succeeds_meter, succeeds_powerflow]
  constructor
  · rintro ⟨hinverter, hmeter, hpowerflow, hsoc', hsite'⟩
    obtain ⟨data, hdata⟩ := Option.isSome_iff_exists.mp hpowerflow
    rw [at_of_data hdata, item_soc hdata] at hsoc'
    rw [at_of_data hdata, Json.follow_one, item_site hdata (m := .pAkku) rfl rfl, item_site hdata (m := .pLoad) rfl rfl]
      at hsite'
    refine ⟨hinverter, fun m hm => Option.isSome_iff_exists.mp (hmeter m hm), data, hdata, fun id hid => ?_,
      fun site hfound => ?_⟩
    · rw [hid] at hsoc'
      exact Option.isSome_iff_exists.mp (hsoc' rfl)
    · rw [hfound] at hsite'
      exact ⟨Option.isSome_iff_exists.mp (hsite' rfl).1, Option.isSome_iff_exists.mp (hsite' rfl).2⟩
  · rintro ⟨hinverter, hmeter, data, hdata, hsoc', hsite'⟩
    refine ⟨hinverter, fun m hm => Option.isSome_iff_exists.mpr (hmeter m hm), by rw [hdata]; rfl, ?_, ?_⟩
    · rw [at_of_data hdata, item_soc hdata]
      intro hid
      obtain ⟨id, hid⟩ := Option.isSome_iff_exists.mp hid
      rw [hid]
      exact Option.isSome_iff_exists.mpr (hsoc' id hid)
    · rw [at_of_data hdata, Json.follow_one, item_site hdata (m := .pAkku) rfl rfl, item_site hdata (m := .pLoad) rfl rfl]
      intro hfound
      obtain ⟨site, hfound⟩ := Option.isSome_iff_exists.mp hfound
      rw [hfound]
      exact ⟨Option.isSome_iff_exists.mpr (hsite' site hfound).1, Option.isSome_iff_exists.mpr (hsite' site hfound).2⟩

theorem succeeds_readers : Succeeds (readers docs.replies) values ↔ Accepted docs := by
  have hpowerflow (s : PvValues) : Succeeds (getPowerflowRealtimeData (.document (docs .powerflow))) s ↔ _ :=
    succeeds_powerflow docs s
  have hmeter (s : PvValues) : Succeeds (do getMeterRealtimeData docs.replies.meter
                                            getPowerflowRealtimeData docs.replies.powerflow) s ↔ _ :=
    (succeeds_seq hpowerflow s).trans (and_congr_left' (succeeds_meter docs s))
  rw [accepted_iff docs values, succeeds_meter, succeeds_powerflow]
  exact succeeds_seq hmeter values

theorem ok_iff : (froniusGetValues docs.replies values).1 = .ok ↔ Accepted docs := by
  rw [← succeeds_readers docs values, froniusGetValues, Succeeds]
  cases readers docs.replies values with
  | ok a s => exact iff_of_true rfl ⟨a, s, rfl⟩
  | error e s => exact iff_of_false (fun h => by cases h) (by rintro ⟨_, _, h⟩; cases h)

end Success

/-! ### What the readers assign -/

theorem update_all {α : Type} (f g : Fin 3 → α) :
    Function.update (Function.update (Function.update f 0 (g 0)) 1 (g 1)) 2 (g 2) = g := by
  funext k
  fin_cases k <;> rfl

/-- The loop over the phases. -/
theorem foldl_phases (x : Member → Float) (s : PvValues) :
    (List.finRange 3).foldl (fun s k => assignPhase (x (.current k)) (x (.voltage k)) (x (.real k)) (x (.apparent k)) k s)
        s =
      { s with
        energyMeter.powerReal := fun k => (x (.real k)).toFloat32
        energyMeter.current := fun k => phaseCurrent (x (.current k)) (x (.real k))
        energyMeter.voltage := fun k => (x (.voltage k)).toFloat32
        energyMeter.powerApparent := fun k => (x (.apparent k)).toFloat32 } := by
  rw [show List.finRange 3 = [0, 1, 2] from rfl]
  simp only [List.foldl_cons, List.foldl_nil, assignPhase]
  rw [update_all _ fun k => (x (.real k)).toFloat32, update_all _ fun k => phaseCurrent (x (.current k)) (x (.real k)),
    update_all _ fun k => (x (.voltage k)).toFloat32, update_all _ fun k => (x (.apparent k)).toFloat32]

section Numbers

variable {docs : Documents} {x : Member → Float} (h : Numbers docs x) (values : PvValues)

include h

theorem data_of_numbers (m : Member) : ∃ data, docs.data m.page = some data := data_of_item (by rw [h m]; rfl)

theorem run_inverter : getInverterRealtimeData (.document (docs .inverter)) values =
    .ok ⟨⟩ { values with inverter := inverterOf x } := by
  obtain ⟨data, hdata⟩ := data_of_numbers h .idc
  have hvalue (m : Member) (hm : m.page = .inverter) (name : String) (hpath : m.path = [ascii name, ascii "Value"]) :
      deviceValue data name = some (.number (x m)) := by
    rw [deviceValue_eq_some]
    refine ⟨x m, rfl, ?_⟩
    rw [← hpath, ← item_of_data hm hdata, h m]
  simp only [getInverterRealtimeData, document_data, show docs.data .inverter = some data from hdata,
    hvalue .idc rfl _ rfl, hvalue .idc2 rfl _ rfl, hvalue .udc rfl _ rfl, hvalue .udc2 rfl _ rfl,
    hvalue .pac rfl _ rfl, hvalue .totalEnergy rfl _ rfl, require_bind, modify_bind, modify_run]
  rfl

theorem run_meter : getMeterRealtimeData (.document (docs .meter)) values =
    .ok ⟨⟩ { values with
      energyMeter := { meterOf x values.energyMeter with pLoadW := values.energyMeter.pLoadW } } := by
  have hgrid : (docs.item .gridPower).isSome = true := by rw [h .gridPower]; rfl
  obtain ⟨data, id, hdata, hid⟩ := exists_meter hgrid
  have hitem (m : Member) (name : List UInt8) (hm : m.page = .meter) (hpath : m.path = [ascii "0", name]) :
      id.member name = some (.number (x m)) := (item_meter hdata hid hm hpath).symm.trans (h m)
  have hphase (k : Fin 3) (s : PvValues) : meterPhase id k s =
      .ok ⟨⟩ (assignPhase (x (.current k)) (x (.voltage k)) (x (.real k)) (x (.apparent k)) k s) := by
    simp only [meterPhase, hitem (.current k) _ rfl rfl, hitem (.voltage k) _ rfl rfl, hitem (.real k) _ rfl rfl,
      hitem (.apparent k) _ rfl rfl, require_bind, modify_run, valuedouble]
  have htotals (s : PvValues) : meterTotals id s = .ok ⟨⟩ { s with
      energyMeter.energyRealConsWh := toUInt64 (saturated (x .energyRealCons))
      energyMeter.energyRealProdWh := toUInt64 (saturated (x .energyRealProd))
      energyMeter.gridFreqHz := (x .frequency).toFloat32 } := by
    simp only [meterTotals, hitem .energyRealCons _ rfl rfl, hitem .energyRealProd _ rfl rfl,
      hitem .frequency _ rfl rfl, require_bind, modify_bind, modify_run, valuedouble, valueint]
  simp only [getMeterRealtimeData, document_data, hdata, hid, hitem .gridPower _ rfl rfl, require_bind, modify_bind]
  rw [bind_of_ok (forM_run hphase _ _), htotals, foldl_phases]
  rfl

theorem run_powerflow : getPowerflowRealtimeData (.document (docs .powerflow)) values =
    .ok ⟨⟩ { values with
      energyMeter.pLoadW := saturated (x .pLoad)
      battery :=
        { values.battery with
          batteryPowerW := saturated (x .pAkku)
          batterySoc := (x .soc).toFloat32 } } := by
  obtain ⟨data, hdata⟩ := data_of_numbers h .soc
  obtain ⟨id, hfollow, hsoc⟩ := Option.bind_eq_some_iff.mp ((item_soc hdata).symm.trans (h .soc))
  have hsite (m : Member) (hm : m.page = .powerflow) (name : List UInt8) (hpath : m.path = [ascii "Site", name]) :
      (data.member (ascii "Site")).bind (Json.member name) = some (.number (x m)) :=
    (item_site hdata hm hpath).symm.trans (h m)
  obtain ⟨site, hfound, hakku⟩ := Option.bind_eq_some_iff.mp (hsite .pAkku rfl _ rfl)
  have hload := hsite .pLoad rfl _ rfl
  rw [hfound, Option.bind_some] at hload
  have hinverter (s : PvValues) : powerflowInverter data s =
      .ok ⟨⟩ { s with battery.batterySoc := (x .soc).toFloat32 } := by
    rw [powerflowInverter, hfollow]
    simp only [hsoc, require_bind, modify_run, valuedouble]
  simp only [getPowerflowRealtimeData, document_data, show docs.data .powerflow = some data from hdata, require_bind]
  rw [bind_of_ok (hinverter values), powerflowSite, hfound]
  simp only [hakku, hload, require_bind, modify_run, valueint]

/-- **Where all members are numbers**, the values are theirs. -/
theorem run_readers : froniusGetValues docs.replies values = (.ok, valuesOf x values) := by
  have hreaders : readers docs.replies values = .ok ⟨⟩ (valuesOf x values) := by
    rw [readers, Documents.replies, bind_of_ok (run_inverter h values), bind_of_ok (run_meter h _), run_powerflow h]
    rfl
  rw [froniusGetValues, hreaders]

end Numbers

/-! ### Success and freshness -/

theorem accepted_of_ok {docs : Documents} {values w : PvValues} (h : froniusGetValues docs.replies values = (.ok, w)) :
    Accepted docs := (ok_iff docs values).mp (congrArg Prod.fst h)

theorem error_of_not_accepted {docs : Documents} (h : ¬Accepted docs) (values : PvValues) :
    (froniusGetValues docs.replies values).1 = .error := by
  cases hstatus : (froniusGetValues docs.replies values).1 with
  | ok => exact absurd ((ok_iff docs values).mp hstatus) h
  | error => rfl

theorem numbers_of_taken {α : Type} {get : PvValues → α} {docs : Documents} (h : Fresh get docs) (hok : Accepted docs) :
    ∃ x, Numbers docs x := by
  obtain ⟨x, hx, -⟩ := h.taken default _ (Prod.ext ((ok_iff docs default).mpr hok) rfl)
  exact ⟨x, hx⟩

theorem fresh_of_numbers {docs : Documents} (h : Accepted docs → ∃ x, Numbers docs x) : Fresh fields docs where
  agree values values' w w' hok hok' := by
    obtain ⟨x, hx⟩ := h (accepted_of_ok hok)
    obtain rfl := (Prod.mk.inj ((run_readers hx values).symm.trans hok)).2
    obtain rfl := (Prod.mk.inj ((run_readers hx values').symm.trans hok')).2
    rfl
  taken values w hok := by
    obtain ⟨x, hx⟩ := h (accepted_of_ok hok)
    obtain rfl := (Prod.mk.inj ((run_readers hx values).symm.trans hok)).2
    exact ⟨x, hx, rfl⟩
  error m hm values := by
    refine error_of_not_accepted (fun hok => ?_) values
    obtain ⟨x, hx⟩ := h hok
    exact hm (x m) (hx m)

/-- The readers leave the apparent energies as they were. -/
theorem not_accepted_of_fresh {docs : Documents} (h : Fresh fieldsAndApparent docs) : ¬Accepted docs := by
  intro hok
  obtain ⟨x, hx⟩ := numbers_of_taken h hok
  let values (energy : UInt64) : PvValues :=
    { (default : PvValues) with energyMeter.energyApparentConsVah := energy }
  have hagree := h.agree (values 0) (values 1) _ _ (run_readers hx _) (run_readers hx _)
  have henergy : (0 : UInt64) = 1 := congrArg (fun p => p.2.1) hagree
  exact absurd henergy (by decide)

theorem fresh_of_not_accepted {α : Type} (get : PvValues → α) {docs : Documents} (h : ¬Accepted docs) :
    Fresh get docs where
  agree _ _ _ _ hok := absurd (accepted_of_ok hok) h
  taken _ _ hok := absurd (accepted_of_ok hok) h
  error _ _ values := error_of_not_accepted h values

/-- **Success means fresh values** exactly if the readers accept the documents only where all
members are numbers. With the apparent energies, which the readers never write, it does only
if the readers do not accept the documents. -/
theorem fresh_iff (docs : Documents) :
    (Fresh fields docs ↔ (Accepted docs → ∃ x, Numbers docs x)) ∧
      (Fresh fieldsAndApparent docs ↔ ¬Accepted docs) :=
  ⟨⟨numbers_of_taken, fresh_of_numbers⟩, not_accepted_of_fresh, fresh_of_not_accepted _⟩

/-- A document with the given data. -/
def ofData (members : List (List UInt8 × Json Float)) : Json Float :=
  .object [(ascii "Body", .object [(ascii "Data", .object members)])]

/-- Documents in which the power flow has neither inverters nor a site. -/
def emptyPowerflow : Documents
  | .inverter => ofData (["IDC", "IDC2", "UDC", "UDC2", "PAC", "TOTAL_ENERGY"].map fun name =>
    (ascii name, .object [(ascii "Value", .number 0)]))
  | .meter => ofData [(ascii "0", .object (((List.finRange 3).flatMap fun k =>
      ["Current_AC_Phase_", "Voltage_AC_Phase_", "PowerReal_P_Phase_", "PowerApparent_S_Phase_"].map fun name =>
        (phaseKey name k, .number 0)) ++
    ["PowerReal_P_Sum", "EnergyReal_WAC_Sum_Consumed", "EnergyReal_WAC_Sum_Produced", "Frequency_Phase_Average"].map
      fun name => (ascii name, .number 0)))]
  | .powerflow => ofData []

/-- They are read with success, and the battery's power is missing in them. -/
theorem not_fresh : ¬Fresh fields emptyPowerflow := by
  intro h
  have herror := h.error .pAkku (fun n hn => by cases hn) default
  have hok : (froniusGetValues emptyPowerflow.replies default).1 = .ok := by decide +kernel
  rw [hok] at herror
  cases herror

end ModbusProxy.Fronius
