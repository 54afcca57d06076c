import ModbusProxy.Convert.Reader
import ModbusProxy.Library.CString
import ModbusProxy.Library.Scan

/-!
# The device

`huawei_get_info` of `huawei_modbus_converter.c` fills a `pv_info_t` with the names and the
serial numbers of the inverter, the meter and the batteries, each in an array of 32 bytes.

## The model

A string that is looked up is in a buffer of its own, and the copy of 32 bytes out of it, or
out of a literal, takes what lies behind. What `snprintf` prints may begin within an
array, and no text here reaches its end. The status of a battery, the product and the type
of the meter are local variables that the calls fill.

## What is proved

On registers, whatever was in memory before, the arrays have the texts of the registers
(`strings_huaweiGetInfo`).
-/

namespace ModbusProxy.Convert

open Memory Endian Poll Runs CString Scan

/-! ### The structure -/

/-- The size of the arrays. -/
def arraySize : ℕ := 32

/-- A `char` array of `pv_info_t`. -/
structure CharArray where
  /-- The bytes. -/
  bytes : List UInt8
  /-- `sizeof`. -/
  length_bytes : bytes.length = arraySize

instance : Inhabited CharArray := ⟨⟨List.replicate arraySize 0, List.length_replicate⟩⟩

namespace CharArray

/-- `memcpy(a, data, sizeof(a))`, where `behind` has what lies behind the data. -/
def copy (behind : ℕ → UInt8) (data : List UInt8) : CharArray where
  bytes := (Copy.mk data 0 arraySize).bytes behind
  length_bytes := Copy.length_bytes _ _

/-- `a[0] = '\0'`. -/
def clear (a : CharArray) : CharArray where
  bytes := a.bytes.set 0 0
  length_bytes := by rw [List.length_set, a.length_bytes]

theorem length_take_overwrite (a : CharArray) (offset : ℕ) (data : List UInt8) :
    ((a.bytes.take offset ++ overwrite (a.bytes.drop offset) data).take arraySize).length = arraySize := by
  have hlength := a.length_bytes
  rw [List.length_take, List.length_append, List.length_take, overwrite, List.length_append, List.length_drop,
    List.length_drop]
  omega

/-- `snprintf(a + offset, sizeof(a), …)` of a text. -/
def print (a : CharArray) (offset : ℕ) (text : List UInt8) : CharArray where
  bytes :=
    (a.bytes.take offset ++ overwrite (a.bytes.drop offset) (text.take (arraySize - 1) ++ [0])).take arraySize
  length_bytes := a.length_take_overwrite offset _

/-- The text in the array. -/
def string (a : CharArray) : Option (List UInt8) := cstring a.bytes

end CharArray

/-- `pv_info_t`. -/
structure PvInfo where
  /-- `inverter.model`. -/
  inverterModel : CharArray
  /-- `inverter.unique_id`. -/
  inverterUniqueId : CharArray
  /-- `inverter.max_power_ac_w`. -/
  maxPowerAcW : UInt32
  /-- `energy_meter.model`. -/
  meterModel : CharArray
  /-- `battery.model`. -/
  batteryModel : CharArray
  /-- `battery.unique_id`. -/
  batteryUniqueId : CharArray
  deriving Inhabited

/-- The texts in its arrays. -/
structure InfoStrings where
  /-- `inverter.model`. -/
  inverterModel : List UInt8
  /-- `inverter.unique_id`. -/
  inverterUniqueId : List UInt8
  /-- `energy_meter.model`. -/
  meterModel : List UInt8
  /-- `battery.model`. -/
  batteryModel : List UInt8
  /-- `battery.unique_id`. -/
  batteryUniqueId : List UInt8
  deriving DecidableEq

/-- The texts in the arrays, where each of them has an end. -/
def PvInfo.strings (info : PvInfo) : Option InfoStrings := do
  let inverterModel ← info.inverterModel.string
  let inverterUniqueId ← info.inverterUniqueId.string
  let meterModel ← info.meterModel.string
  let batteryModel ← info.batteryModel.string
  let batteryUniqueId ← info.batteryUniqueId.string
  return { inverterModel, inverterUniqueId, meterModel, batteryModel, batteryUniqueId }

/-! ### The converter -/

/-- `huawei_battery_product_mode_to_string`. -/
def huaweiBatteryProductModeToString (product : UInt16) : List UInt8 :=
  if product = 1 then ascii "LG-RESU" else if product = 2 then ascii "LUNA2000" else ascii "-"

/-- `huawei_em_type_to_string`. -/
def huaweiEmTypeToString (type : UInt16) : List UInt8 :=
  if type = 0 then ascii "Single Phase" else if type = 1 then ascii "Three Phase" else ascii "-"

/-- What a call of `modbus_tcp_poll_get_client_data_str` leaves in its arguments. -/
structure Looked where
  /-- What `*data` points to. -/
  data : List UInt8
  /-- `*len`. -/
  len : UInt16

/-- What the calls of `modbus_tcp_poll_get_client_data_str` do, by the address, the length and
`reversed`. -/
abbrev StrReader : Type := UInt16 → UInt16 → Bool → Looked

/-- `len > 0 && data[0] != '\0'`. -/
def Looked.Present (behind : ℕ → UInt8) (s : Looked) : Prop := 0 < s.len ∧ peek behind s.data 0 ≠ 0

instance (behind : ℕ → UInt8) (s : Looked) : Decidable (s.Present behind) := inferInstanceAs (Decidable (_ ∧ _))

/-- A text of the inverter. -/
def inverterText (behind : ℕ → UInt8) (s : Looked) (a : CharArray) : CharArray :=
  if s.Present behind then .copy behind s.data else a.clear

/-- What the batteries fill. -/
structure BatteryInfo where
  /-- `info->battery.model`. -/
  model : CharArray
  /-- `info->battery.unique_id`. -/
  uniqueId : CharArray
  /-- `model_len`. -/
  modelLen : UInt8
  /-- `unique_len`. -/
  uniqueLen : UInt8

/-- The serial number of a battery. -/
def BatteryInfo.takeId (behind : ℕ → UInt8) (s : Looked) (b : BatteryInfo) : BatteryInfo :=
  if s.Present behind then { b with uniqueId := .copy behind s.data, uniqueLen := s.len.toUInt8 } else b

/-- The name of a battery's product, behind that of the first one. -/
def BatteryInfo.takeModel (name : List UInt8) (b : BatteryInfo) : BatteryInfo :=
  { b with model := b.model.print b.modelLen.toNat name, modelLen := UInt8.ofNat name.length }

/-- The local variables of `huawei_get_info`. -/
structure InfoLocals where
  /-- `bat_status`. -/
  batStatus : UInt16
  /-- `bat_product_model`. -/
  batProductModel : UInt16
  /-- `meter_type`. -/
  meterType : UInt16
  deriving Inhabited

/-- The first battery. -/
def firstBattery (r : Reader) (str : StrReader) (behind : ℕ → UInt8) (loc : InfoLocals) (b : BatteryInfo) :
    BatteryInfo :=
  let batProductModel := r.read 3 47000 1 true loc.batProductModel
  (b.takeModel (huaweiBatteryProductModeToString batProductModel)).takeId behind (str 37052 10 false)

/-- The second battery. -/
def secondBattery (r : Reader) (str : StrReader) (behind : ℕ → UInt8) (loc : InfoLocals) (b : BatteryInfo) :
    BatteryInfo :=
  let batProductModel := r.read 5 47089 1 true loc.batProductModel
  let separator := if b.modelLen ≠ 0 then ascii " + " else []
  let b := b.takeModel (separator ++ huaweiBatteryProductModeToString batProductModel)
  if b.uniqueLen = 0 then b.takeId behind (str 37700 10 false) else b

/-- `huawei_get_info`, where `behind k` has what lies behind the `k`-th buffer that is copied. -/
def huaweiGetInfo (r : Reader) (str : StrReader) (behind : ℕ → ℕ → UInt8) (loc : InfoLocals) (info : PvInfo) :
    PvInfo :=
  let meterType := r.read 1 37125 1 true loc.meterType
  let batStatus := r.read 2 37000 1 true loc.batStatus
  let none : BatteryInfo := ⟨info.batteryModel, info.batteryUniqueId, 0, 0⟩
  let first := if batStatus ≠ 0 then firstBattery r str (behind 3) loc none else none
  let batStatus2 := r.read 4 37741 1 true batStatus
  let both := if batStatus2 ≠ 0 then secondBattery r str (behind 4) loc first else first
  { inverterModel := inverterText (behind 0) (str 30000 15 false) info.inverterModel
    inverterUniqueId := inverterText (behind 1) (str 30015 10 false) info.inverterUniqueId
    maxPowerAcW := r.read 0 30073 2 true info.maxPowerAcW
    meterModel := .copy (behind 2) (huaweiEmTypeToString meterType ++ [0])
    batteryModel := if both.modelLen = 0 then both.model.clear else both.model
    batteryUniqueId := if both.uniqueLen = 0 then both.uniqueId.clear else both.uniqueId }

/-! ### Its calls -/

/-- The calls of `modbus_tcp_poll_get_client_data` in `huawei_get_info`. -/
def infoCalls : List Call := [⟨0, 30073, 2⟩, ⟨1, 37125, 1⟩, ⟨2, 37000, 1⟩, ⟨3, 47000, 1⟩, ⟨4, 37741, 1⟩, ⟨5, 47089, 1⟩]

theorem infoCalls_held : HeldBy huaweiRegisters infoCalls := by decide

/-- No other calls are made. -/
theorem huaweiGetInfo_congr {r r' : Reader} (h : r.AgreeOn r' true infoCalls) (str : StrReader)
    (behind : ℕ → ℕ → UInt8) (loc : InfoLocals) (info : PvInfo) :
    huaweiGetInfo r str behind loc info = huaweiGetInfo r' str behind loc info := by
  have hread {α : Type} [Stored α] (p : Call) (hp : p ∈ infoCalls) :
      r.read p.number p.address p.length true = (r'.read p.number p.address p.length true : α → α) :=
    funext fun _ => congrArg ofBytes (h p hp _)
  have hfirst : firstBattery r = firstBattery r' := by
    unfold firstBattery
    rw [hread ⟨3, 47000, 1⟩ (by decide)]
  have hsecond : secondBattery r = secondBattery r' := by
    unfold secondBattery
    rw [hread ⟨5, 47089, 1⟩ (by decide)]
  unfold huaweiGetInfo
  rw [hfirst, hsecond, hread ⟨0, 30073, 2⟩ (by decide), hread ⟨1, 37125, 1⟩ (by decide),
    hread ⟨2, 37000, 1⟩ (by decide), hread ⟨4, 37741, 1⟩ (by decide)]

/-- Wherever there is a client for the inverter, the numbers are those of its registers. -/
theorem huaweiGetInfo_world (evs : List Event)
    (hfound : ((run World.step .init evs).findClient .huawei).isSome = true) (heap : ℕ → UInt8) (str : StrReader)
    (behind : ℕ → ℕ → UInt8) (loc : InfoLocals) (info : PvInfo) :
    huaweiGetInfo (worldReader (run World.step .init evs) .huawei heap) str behind loc info =
      huaweiGetInfo (registerReader ((run World.step .init evs).registers .huawei)) str behind loc info :=
  huaweiGetInfo_congr (reader_eq evs rfl infoCalls_held hfound heap true) str behind loc info

/-! ### On registers -/

section Registers

variable (reg : ℕ → UInt16)

/-- The text in registers. -/
def registerText (a n : UInt16) : List UInt8 := text (beWords (fun k => reg (a.toNat + k)) n.toNat)

/-- Every call returns the text of the registers, and its length. -/
def registerStrings : StrReader := fun a n _ => ⟨registerText reg a n ++ [0], UInt16.ofNat (registerText reg a n).length⟩

/-- The names of the batteries that are there. -/
def batteryModelOf : List UInt8 :=
  if reg 37000 ≠ 0 then
    huaweiBatteryProductModeToString (reg 47000) ++
      if reg 37741 ≠ 0 then ascii " + " ++ huaweiBatteryProductModeToString (reg 47089) else []
  else if reg 37741 ≠ 0 then huaweiBatteryProductModeToString (reg 47089) else []

/-- The serial number of the first battery that is there and has one. -/
def batteryUniqueIdOf : List UInt8 :=
  if reg 37000 ≠ 0 ∧ registerText reg 37052 10 ≠ [] then registerText reg 37052 10
  else if reg 37741 ≠ 0 then registerText reg 37700 10
  else []

/-- What the registers make of the texts. -/
def stringsOf : InfoStrings where
  inverterModel := registerText reg 30000 15
  inverterUniqueId := registerText reg 30015 10
  meterModel := huaweiEmTypeToString (reg 37125)
  batteryModel := batteryModelOf reg
  batteryUniqueId := batteryUniqueIdOf reg

end Registers

/-! ### Arrays -/

section Arrays

variable {behind : ℕ → UInt8} {s t : List UInt8}

/-- What is copied is the buffer and what lies behind it. -/
theorem string_copy (ht : 0 ∉ t) (hlength : t.length < arraySize) (behind : ℕ → UInt8) :
    (CharArray.copy behind (t ++ [0])).string = some t := by
  obtain ⟨k, hk⟩ := Nat.exists_eq_add_of_le (show (t ++ [0]).length ≤ arraySize by simpa using hlength)
  have hfront : (List.range (t ++ [0]).length).map (fun i => peek behind (t ++ [0]) (0 + i)) = t ++ [0] := by
    have hcopy := Copy.bytes_of_inBounds behind (m := ⟨t ++ [0], 0, (t ++ [0]).length⟩) (.inr (by simp))
    rw [List.drop_zero, List.take_length] at hcopy
    exact hcopy
  have hbytes : (CharArray.copy behind (t ++ [0])).bytes = _ :=
    congrArg (fun size => (List.range size).map fun i => peek behind (t ++ [0]) (0 + i)) hk
  rw [CharArray.string, hbytes, List.range_add, List.map_append, hfront, List.append_assoc, List.singleton_append]
  exact cstring_append ht _

theorem string_clear (a : CharArray) : a.clear.string = some [] := by
  obtain ⟨c, l, hbytes⟩ := List.exists_cons_of_length_pos (l := a.bytes) (by rw [a.length_bytes]; decide)
  have hclear : a.clear.bytes = 0 :: l := congrArg (fun bytes => bytes.set 0 0) hbytes
  rw [CharArray.string, hclear]
  rfl

/-- What is printed behind a text. -/
theorem bytes_print {a : CharArray} (hs : s <+: a.bytes) (hlength : s.length + t.length < arraySize) :
    ∃ r, (a.print s.length t).bytes = s ++ t ++ 0 :: r := by
  obtain ⟨r, hr⟩ := hs
  have hsize : s.length + r.length = arraySize := by rw [← a.length_bytes, ← hr, List.length_append]
  refine ⟨r.drop (t.length + 1), ?_⟩
  have hprint : (a.print s.length t).bytes = ((s ++ r).take s.length ++
      overwrite ((s ++ r).drop s.length) (t.take (arraySize - 1) ++ [0])).take arraySize := by rw [hr]; rfl
  rw [hprint, List.take_left, List.drop_left, List.take_of_length_le (show t.length ≤ arraySize - 1 by omega),
    overwrite, List.length_append, List.length_singleton]
  rw [List.take_of_length_le (by simp only [List.length_append, List.length_drop, List.length_singleton]; omega)]
  simp only [List.append_assoc, List.singleton_append]

end Arrays

/-! ### Texts of registers -/

section Texts

variable {reg : ℕ → UInt16} {a n : UInt16}

theorem zero_not_mem_registerText : 0 ∉ registerText reg a n := fun h => by
  have htext := List.mem_takeWhile_imp h
  exact absurd htext (by decide)

theorem length_registerText : (registerText reg a n).length ≤ 2 * n.toNat :=
  (List.takeWhile_prefix _).length_le.trans (by rw [length_beWords])

theorem len_registerStrings (hn : n.toNat < 128) (reversed : Bool) :
    (registerStrings reg a n reversed).len.toUInt8 = UInt8.ofNat (registerText reg a n).length ∧
      ((registerStrings reg a n reversed).len.toUInt8 = 0 ↔ registerText reg a n = []) := by
  have hlength : (registerText reg a n).length ≤ 2 * n.toNat := length_registerText
  have hlen : (registerStrings reg a n reversed).len.toUInt8 = UInt8.ofNat (registerText reg a n).length := by
    apply UInt8.toNat_inj.mp
    rw [registerStrings, UInt16.toNat_toUInt8, UInt16.toNat_ofNat', UInt8.toNat_ofNat']
    omega
  refine ⟨hlen, ?_⟩
  rw [hlen, ← UInt8.toNat_inj, UInt8.toNat_ofNat', ← List.length_eq_zero_iff]
  change _ % 256 = 0 ↔ _
  omega

/-- A text is there if it is not empty. -/
theorem present_registerStrings (hn : n.toNat < 128) (behind : ℕ → UInt8) (reversed : Bool) :
    (registerStrings reg a n reversed).Present behind ↔ registerText reg a n ≠ [] := by
  have hlength : (registerText reg a n).length ≤ 2 * n.toNat := length_registerText
  rw [Looked.Present, registerStrings, UInt16.lt_iff_toNat_lt, UInt16.toNat_ofNat']
  cases htext : registerText reg a n with
  | nil => exact iff_of_false (fun h => absurd h.1 (by decide)) (fun h => h rfl)
  | cons c l =>
    rw [htext, List.length_cons] at hlength
    refine iff_of_true ⟨?_, fun hc => ?_⟩ (List.cons_ne_nil c l)
    · change 0 < (l.length + 1) % 65536
      omega
    · have hzero : (0 : UInt8) ∈ registerText reg a n := by
        rw [htext]
        exact List.mem_cons.mpr (.inl hc.symm)
      exact zero_not_mem_registerText hzero

/-- An array of the inverter has the text of the registers. -/
theorem string_inverterText (hn : n.toNat < 16) (behind : ℕ → UInt8) (array : CharArray) (reversed : Bool) :
    (inverterText behind (registerStrings reg a n reversed) array).string = some (registerText reg a n) := by
  have hlength : (registerText reg a n).length ≤ 2 * n.toNat := length_registerText
  have hpresent : (registerStrings reg a n reversed).Present behind ↔ registerText reg a n ≠ [] :=
    present_registerStrings (by omega) behind reversed
  rw [inverterText]
  split
  · exact string_copy zero_not_mem_registerText (show _ < 32 by omega) behind
  · next habsent =>
    rw [hpresent, not_not] at habsent
    rw [string_clear, habsent]

end Texts

/-! ### Batteries -/

section Batteries

variable {reg : ℕ → UInt16} {behind : ℕ → UInt8} {b : BatteryInfo} {s : Looked} {m t : List UInt8}

@[simp] theorem takeId_model : (b.takeId behind s).model = b.model := by
  rw [BatteryInfo.takeId]
  split <;> rfl

@[simp] theorem takeId_modelLen : (b.takeId behind s).modelLen = b.modelLen := by
  rw [BatteryInfo.takeId]
  split <;> rfl

/-- What is printed behind a name. -/
theorem takeModel_text (hm : m <+: b.model.bytes) (hlen : b.modelLen = UInt8.ofNat m.length) (ht : t ≠ [])
    (hsize : m.length + t.length < arraySize) :
    (b.takeModel t).modelLen = UInt8.ofNat t.length ∧ (b.takeModel t).modelLen ≠ 0 ∧
      ∃ r, (b.takeModel t).model.bytes = m ++ t ++ 0 :: r := by
  have hpos := List.length_pos_of_ne_nil ht
  have hsize' : m.length + t.length < 32 := hsize
  refine ⟨rfl, fun hzero => ?_, ?_⟩
  · have hnat : t.length % 256 = 0 := congrArg UInt8.toNat hzero
    omega
  · have hnat : b.modelLen.toNat = m.length := by
      rw [hlen, UInt8.toNat_ofNat']
      omega
    rw [BatteryInfo.takeModel, hnat]
    exact bytes_print hm hsize

theorem product_text (product : UInt16) : 0 ∉ huaweiBatteryProductModeToString product ∧
    huaweiBatteryProductModeToString product ≠ [] ∧ (huaweiBatteryProductModeToString product).length ≤ 8 := by
  rw [huaweiBatteryProductModeToString]
  split
  · decide
  · split <;> decide

/-- The serial number that is left. -/
theorem string_takeId (hlen : b.uniqueLen = 0) {a n : UInt16} (hn : n.toNat < 16) (reversed : Bool) :
    (if (b.takeId behind (registerStrings reg a n reversed)).uniqueLen = 0 then
        (b.takeId behind (registerStrings reg a n reversed)).uniqueId.clear
      else (b.takeId behind (registerStrings reg a n reversed)).uniqueId).string = some (registerText reg a n) := by
  have hlength : (registerText reg a n).length ≤ 2 * n.toNat := length_registerText
  have hpresent : (registerStrings reg a n reversed).Present behind ↔ registerText reg a n ≠ [] :=
    present_registerStrings (by omega) behind reversed
  by_cases htext : registerText reg a n = []
  · rw [BatteryInfo.takeId, if_neg fun h => hpresent.mp h htext, if_pos hlen, string_clear, htext]
  · have hne : (registerStrings reg a n reversed).len.toUInt8 ≠ 0 := fun hzero =>
      htext ((len_registerStrings (by omega) reversed).2.mp hzero)
    rw [BatteryInfo.takeId, if_pos (hpresent.mpr htext), if_neg hne]
    exact string_copy zero_not_mem_registerText (show _ < 32 by omega) behind

theorem uniqueLen_takeId (hlen : b.uniqueLen = 0) {a n : UInt16} (hn : n.toNat < 16) (reversed : Bool) :
    (b.takeId behind (registerStrings reg a n reversed)).uniqueLen = 0 ↔ registerText reg a n = [] := by
  have hpresent : (registerStrings reg a n reversed).Present behind ↔ registerText reg a n ≠ [] :=
    present_registerStrings (by omega) behind reversed
  rw [BatteryInfo.takeId]
  split
  · exact (len_registerStrings (by omega) reversed).2
  · next habsent =>
    rw [hpresent, not_not] at habsent
    exact iff_of_true hlen habsent

end Batteries

section Filled

variable (reg : ℕ → UInt16) (behind : ℕ → UInt8) {b : BatteryInfo} {m name id : List UInt8}

/-- The serial number that a battery has in the end, if it is cleared where it is absent. -/
structure BatteryInfo.HasId (b : BatteryInfo) (id : List UInt8) : Prop where
  /-- It is absent if and only if it is empty. -/
  absent : b.uniqueLen = 0 ↔ id = []
  /-- Its array. -/
  string : (if b.uniqueLen = 0 then b.uniqueId.clear else b.uniqueId).string = some id

/-- The first battery. -/
theorem filled_first (hmodel : b.modelLen = 0) (hunique : b.uniqueLen = 0) (hne : name ≠ []) (hlength : name.length ≤ 8) :
    ((b.takeModel name).takeId behind (registerStrings reg 37052 10 false)).modelLen = UInt8.ofNat name.length ∧
      ((b.takeModel name).takeId behind (registerStrings reg 37052 10 false)).modelLen ≠ 0 ∧
      (∃ r, ((b.takeModel name).takeId behind (registerStrings reg 37052 10 false)).model.bytes = name ++ 0 :: r) ∧
      ((b.takeModel name).takeId behind (registerStrings reg 37052 10 false)).HasId (registerText reg 37052 10) := by
  have hsize : ([] : List UInt8).length + name.length < arraySize := by
    rw [List.length_nil, Nat.zero_add]
    exact Nat.lt_of_le_of_lt hlength (by decide)
  obtain ⟨hlen, hnonzero, hbytes⟩ := takeModel_text (b := b) List.nil_prefix hmodel hne hsize
  have hunique' : (b.takeModel name).uniqueLen = 0 := hunique
  refine ⟨takeId_modelLen.trans hlen, fun h => hnonzero (takeId_modelLen.symm.trans h), ?_,
    uniqueLen_takeId hunique' (by decide) false, string_takeId hunique' (by decide) false⟩
  rw [takeId_model]
  exact hbytes

/-- The second battery, behind the name of the first and with its own serial number only if
the first has none. -/
theorem filled_second (hm : m <+: b.model.bytes) (hlen : b.modelLen = UInt8.ofNat m.length) (hid : b.HasId id)
    (hne : name ≠ []) (hsize : m.length + name.length < arraySize) {b' : BatteryInfo}
    (hb' : b' = if (b.takeModel name).uniqueLen = 0 then
      (b.takeModel name).takeId behind (registerStrings reg 37700 10 false) else b.takeModel name) :
    b'.modelLen ≠ 0 ∧ (∃ r, b'.model.bytes = m ++ name ++ 0 :: r) ∧
      b'.HasId (if id = [] then registerText reg 37700 10 else id) := by
  obtain ⟨-, hnonzero, hbytes⟩ := takeModel_text hm hlen hne hsize
  by_cases hunique : b.uniqueLen = 0
  · have hunique' : (b.takeModel name).uniqueLen = 0 := hunique
    rw [if_pos hunique'] at hb'
    subst hb'
    rw [if_pos (hid.absent.mp hunique), takeId_model]
    exact ⟨fun h => hnonzero (takeId_modelLen.symm.trans h), hbytes, uniqueLen_takeId hunique' (by decide) false,
      string_takeId hunique' (by decide) false⟩
  · have hunique' : (b.takeModel name).uniqueLen ≠ 0 := hunique
    rw [if_neg hunique'] at hb'
    subst hb'
    rw [if_neg fun hnil => hunique (hid.absent.mpr hnil)]
    exact ⟨hnonzero, hbytes, hid.absent, hid.string⟩

end Filled

/-! ### What is filled -/

section Result

variable (reg : ℕ → UInt16) (behind : ℕ → ℕ → UInt8) (loc : InfoLocals) (info : PvInfo)

/-- What the batteries have filled after both calls. -/
def batteriesOf : BatteryInfo :=
  let none : BatteryInfo := ⟨info.batteryModel, info.batteryUniqueId, 0, 0⟩
  let first :=
    if reg 37000 ≠ 0 then
      (none.takeModel (huaweiBatteryProductModeToString (reg 47000))).takeId (behind 3) (registerStrings reg 37052 10 false)
    else none
  let name := (if first.modelLen ≠ 0 then ascii " + " else []) ++ huaweiBatteryProductModeToString (reg 47089)
  if reg 37741 ≠ 0 then
    if (first.takeModel name).uniqueLen = 0 then
      (first.takeModel name).takeId (behind 4) (registerStrings reg 37700 10 false)
    else first.takeModel name
  else first

/-- On registers. -/
theorem huaweiGetInfo_registers : huaweiGetInfo (registerReader reg) (registerStrings reg) behind loc info =
    { inverterModel := inverterText (behind 0) (registerStrings reg 30000 15 false) info.inverterModel
      inverterUniqueId := inverterText (behind 1) (registerStrings reg 30015 10 false) info.inverterUniqueId
      maxPowerAcW := u32 reg 30073
      meterModel := .copy (behind 2) (huaweiEmTypeToString (reg 37125) ++ [0])
      batteryModel := if (batteriesOf reg behind info).modelLen = 0 then (batteriesOf reg behind info).model.clear
        else (batteriesOf reg behind info).model
      batteryUniqueId := if (batteriesOf reg behind info).uniqueLen = 0 then
          (batteriesOf reg behind info).uniqueId.clear
        else (batteriesOf reg behind info).uniqueId } := by
  simp only [huaweiGetInfo, firstBattery, secondBattery, read_uint16, read_uint32, batteriesOf]
  rfl

theorem string_model {b : BatteryInfo} {m r : List UInt8} (hlen : b.modelLen ≠ 0) (hbytes : b.model.bytes = m ++ 0 :: r)
    (hm : 0 ∉ m) : (if b.modelLen = 0 then b.model.clear else b.model).string = some m := by
  rw [if_neg hlen, CharArray.string, hbytes]
  exact cstring_append hm r

/-- The names and the serial number of the batteries. -/
theorem strings_batteries :
    (if (batteriesOf reg behind info).modelLen = 0 then (batteriesOf reg behind info).model.clear
      else (batteriesOf reg behind info).model).string = some (batteryModelOf reg) ∧
    (if (batteriesOf reg behind info).uniqueLen = 0 then (batteriesOf reg behind info).uniqueId.clear
      else (batteriesOf reg behind info).uniqueId).string = some (batteryUniqueIdOf reg) := by
  obtain ⟨hzero₁, hne₁, hlength₁⟩ := product_text (reg 47000)
  obtain ⟨hzero₂, hne₂, hlength₂⟩ := product_text (reg 47089)
  have hnone : (⟨info.batteryModel, info.batteryUniqueId, 0, 0⟩ : BatteryInfo).HasId [] :=
    ⟨iff_of_true rfl rfl, string_clear _⟩
  simp only [batteriesOf, batteryModelOf, batteryUniqueIdOf]
  by_cases hfirst : reg 37000 ≠ 0
  · obtain ⟨hlen, hnonzero, ⟨r, hbytes⟩, hid⟩ := filled_first reg (behind 3)
      (b := ⟨info.batteryModel, info.batteryUniqueId, 0, 0⟩) rfl rfl hne₁ hlength₁
    simp only [if_pos hfirst, if_pos hnonzero]
    by_cases hsecond : reg 37741 ≠ 0
    · have hsize : (huaweiBatteryProductModeToString (reg 47000)).length +
          (ascii " + " ++ huaweiBatteryProductModeToString (reg 47089)).length < arraySize := by
        rw [List.length_append, show (ascii " + ").length = 3 from rfl]
        change _ < 32
        omega
      obtain ⟨hnonzero', ⟨r', hbytes'⟩, hid'⟩ := filled_second reg (behind 4) ⟨0 :: r, hbytes.symm⟩ hlen hid
        (List.append_ne_nil_of_right_ne_nil _ hne₂) hsize rfl
      simp only [if_pos hsecond]
      refine ⟨string_model hnonzero' hbytes' ?_, hid'.string.trans ?_⟩
      · rw [List.mem_append, List.mem_append, not_or, not_or]
        exact ⟨hzero₁, by decide, hzero₂⟩
      · by_cases htext : registerText reg 37052 10 = []
        · rw [if_pos htext, if_neg fun h => h.2 htext]
        · rw [if_neg htext, if_pos ⟨hfirst, htext⟩]
    · simp only [if_neg hsecond, List.append_nil]
      refine ⟨string_model hnonzero hbytes hzero₁, hid.string.trans ?_⟩
      by_cases htext : registerText reg 37052 10 = []
      · rw [if_neg fun h => h.2 htext, htext]
      · rw [if_pos ⟨hfirst, htext⟩]
  · have hno : ¬(reg 37000 ≠ 0 ∧ registerText reg 37052 10 ≠ []) := fun h => hfirst h.1
    simp only [if_neg hfirst, if_neg hno]
    by_cases hsecond : reg 37741 ≠ 0
    · have hsize : ([] : List UInt8).length +
          ([] ++ huaweiBatteryProductModeToString (reg 47089)).length < arraySize := by
        rw [List.length_append, List.length_nil]
        change _ < 32
        omega
      obtain ⟨hnonzero', ⟨r', hbytes'⟩, hid'⟩ := filled_second reg (behind 4)
        (b := ⟨info.batteryModel, info.batteryUniqueId, 0, 0⟩) List.nil_prefix rfl hnone
        (List.append_ne_nil_of_right_ne_nil [] hne₂) hsize rfl
      simp only [if_pos hsecond]
      exact ⟨string_model hnonzero' hbytes' hzero₂, hid'.string⟩
    · simp only [if_neg hsecond]
      exact ⟨string_clear _, string_clear _⟩

theorem em_text (type : UInt16) : 0 ∉ huaweiEmTypeToString type ∧ (huaweiEmTypeToString type).length < arraySize := by
  rw [huaweiEmTypeToString]
  split
  · decide
  · split <;> decide

/-- **The arrays have the texts of the registers**, whatever was in memory. -/
theorem strings_huaweiGetInfo :
    (huaweiGetInfo (registerReader reg) (registerStrings reg) behind loc info).strings = some (stringsOf reg) := by
  obtain ⟨hmodel, hid⟩ := strings_batteries reg behind info
  obtain ⟨hzero, hlength⟩ := em_text (reg 37125)
  rw [huaweiGetInfo_registers, PvInfo.strings]
  simp only [string_inverterText (show (15 : UInt16).toNat < 16 by decide),
    string_inverterText (show (10 : UInt16).toNat < 16 by decide), string_copy hzero hlength, hmodel, hid]
  rfl

end Result

end ModbusProxy.Convert
