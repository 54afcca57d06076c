import ModbusProxy.Convert.Info
import ModbusProxy.Http.Request
import ModbusProxy.Library.Decimal

/-!
# The information page

`build_payload` prints what `huawei_get_info` has filled into a JSON text, each string as it is
between two quotes.

## The model

The numbers are read from registers, and a string that is looked up is the text of its
registers. `%s` prints the text up to the first NUL of an array, and has no result if there
is none.

## What is proved

The body of the page is a JSON text with these strings if and only if the strings that the
device sends have no quotes, backslashes or control characters (`info_valid_iff`).
-/

namespace ModbusProxy.Http

open ModbusProxy.Convert CString JsonText
open ModbusProxy.Decimal (toNat_digit digit_toDigits head_toDigits)

/-- `%u`. -/
def decimal (n : UInt32) : List UInt8 := ascii (toString n.toNat)

/-- The text that `asprintf` prints for `TYPE_URI_INFO`. -/
def infoText (s : InfoStrings) (maxPowerAcW : UInt32) : List UInt8 :=
  ascii "\x7b\"inverter\":\x7b\"model\":\"" ++ s.inverterModel ++ ascii "\",\"unique_id\":\"" ++ s.inverterUniqueId ++
    ascii "\",\"max_power_ac_w\":" ++ decimal maxPowerAcW ++ ascii "\x7d," ++
    ascii "\"energy_meter\":\x7b\"model\":\"" ++ s.meterModel ++ ascii "\"\x7d," ++
    ascii "\"battery\":\x7b\"model\":\"" ++ s.batteryModel ++ ascii "\",\"unique_id\":\"" ++ s.batteryUniqueId ++
    ascii "\"\x7d\x7d"

/-- `body` for `TYPE_URI_INFO`. -/
def infoBody (info : PvInfo) : Option (List UInt8) := info.strings.map fun s => infoText s info.maxPowerAcW

/-- The string at a path in the body. -/
def textAt (v : Json (List UInt8)) (object name : String) : Option (List UInt8) :=
  (v.follow [ascii object, ascii name]).bind Json.string?

/-- The string members of the body. -/
def infoStrings (v : Json (List UInt8)) : Option InfoStrings := do
  let inverterModel ← textAt v "inverter" "model"
  let inverterUniqueId ← textAt v "inverter" "unique_id"
  let meterModel ← textAt v "energy_meter" "model"
  let batteryModel ← textAt v "battery" "model"
  let batteryUniqueId ← textAt v "battery" "unique_id"
  return { inverterModel, inverterUniqueId, meterModel, batteryModel, batteryUniqueId }

/-- Whatever was in memory before, the body is a JSON text, and its strings are those of the
device. -/
def InfoValid (reg : ℕ → UInt16) : Prop :=
  ∀ behind loc info, ∃ s body v,
    let filled := huaweiGetInfo (registerReader reg) (registerStrings reg) behind loc info
    filled.strings = some s ∧ infoBody filled = some body ∧ parse body = some v ∧ infoStrings v = some s

/-! ### The parts of the text -/

section Parts

variable {m u id r : List UInt8} {n : UInt32} {depth : ℕ}

/-- A member of an object. -/
def member (name : String) (t : List UInt8) : List UInt8 := 34 :: (ascii name ++ 34 :: 58 :: t)

/-- A string. -/
def quoted (s r : List UInt8) : List UInt8 := 34 :: (s ++ 34 :: r)

/-- The object of the inverter. -/
def inverterObject (m u : List UInt8) (n : UInt32) (r : List UInt8) : List UInt8 :=
  123 :: member "model" (quoted m (44 :: member "unique_id" (quoted u
    (44 :: member "max_power_ac_w" (decimal n ++ 125 :: r)))))

/-- The object of the meter. -/
def meterObject (m r : List UInt8) : List UInt8 := 123 :: member "model" (quoted m (125 :: r))

/-- The object of the battery. -/
def batteryObject (m id r : List UInt8) : List UInt8 :=
  123 :: member "model" (quoted m (44 :: member "unique_id" (quoted id (125 :: r))))

theorem infoText_eq (s : InfoStrings) (n : UInt32) : infoText s n =
    123 :: member "inverter" (inverterObject s.inverterModel s.inverterUniqueId n
      (44 :: member "energy_meter" (meterObject s.meterModel
        (44 :: member "battery" (batteryObject s.batteryModel s.batteryUniqueId [125]))))) := by
  simp only [infoText, inverterObject, meterObject, batteryObject, member, quoted, List.append_assoc]
  rfl

/-- There is room for three members in the text of an object. -/
theorem value_members (depth : ℕ) (name : String) (t : List UInt8) : ∃ k, value (depth + 1) (123 :: member name t) =
    (separated (pair (value depth)) 125 (k + 3) (member name t)).map fun ms => (.object ms.1, ms.2) := by
  refine ⟨(ascii name ++ 34 :: 58 :: t).length - 2, ?_⟩
  have hlength : (ascii name ++ 34 :: 58 :: t).length + 1 = (ascii name ++ 34 :: 58 :: t).length - 2 + 3 := by
    simp only [List.length_append, List.length_cons]
    omega
  rw [member, value_object, hlength]

theorem pair_member {α : Type} {name : String} (hname : Plain (ascii name)) (item : Parser α) (t : List UInt8) :
    pair item (member name t) = (item t).map fun v => ((ascii name, v.1), v.2) := pair_name hname item t

theorem pair_string {name : String} (hname : Plain (ascii name)) (hm : Plain m) :
    pair (value (depth + 1)) (member name (quoted m r)) = some ((ascii name, .string m), r) := by
  rw [pair_member hname, quoted, value_string, stringLiteral_of_plain hm]
  rfl

/-- A first member that is read as the string that was printed. -/
theorem plain_of_first {name : String} (hname : Plain (ascii name)) {k : ℕ} {close : UInt8}
    {ms : List (List UInt8 × Json (List UInt8)) × List UInt8}
    (h : separated (pair (value (depth + 1))) close (k + 1) (member name (quoted m r)) = some ms)
    (hm : ((Json.object ms.1).member (ascii name)).bind Json.string? = some m) : Plain m := by
  obtain ⟨x, hx, hhead⟩ := exists_item h
  rw [pair_member hname, quoted, value_string] at hx
  obtain ⟨v, hv, rfl⟩ := Option.map_eq_some_iff.mp hx
  obtain ⟨d, hd, rfl⟩ := Option.map_eq_some_iff.mp hv
  rw [Json.member_head hhead] at hm
  obtain rfl : d.1 = m := Option.some.inj hm
  exact stringLiteral_iff.mp ⟨_, hd⟩

/-! ### The number -/

theorem number_decimal (n : UInt32) : value (depth + 1) (decimal n ++ 125 :: r) = some (.number (decimal n), 125 :: r) := by
  obtain ⟨c, l, hdigits, hzero⟩ := head_toDigits n.toNat
  have htext : decimal n = UInt8.ofNat c.toNat :: l.map fun c => UInt8.ofNat c.toNat := by
    rw [decimal, ascii, Nat.toString_eq_repr, Nat.toList_repr, hdigits, List.map_cons]
  have hall : ∀ b ∈ UInt8.ofNat c.toNat :: l.map fun c => UInt8.ofNat c.toNat, isDigit b = true := by
    intro b hb
    rw [← List.map_cons (f := fun c : Char => UInt8.ofNat c.toNat)] at hb
    obtain ⟨d, hd, rfl⟩ := List.mem_map.mp hb
    exact digit_toDigits (n := n.toNat) (hdigits ▸ hd)
  have hfirst : isDigit (UInt8.ofNat c.toNat) = true := hall _ (List.mem_cons_self ..)
  have hnumber := number_of_digits (r := r) hall (fun h48 => ?_) (d := 125) rfl (by decide) (by decide)
  · rw [htext, List.cons_append, value_digits hfirst, ← List.cons_append, hnumber]
    rfl
  · have hc := toNat_digit (n := n.toNat) (c := c) (by rw [hdigits]; exact List.mem_cons_self ..)
    have h48' : c.toNat % 256 = 48 := by
      have hnat := congrArg UInt8.toNat h48
      rwa [UInt8.toNat_ofNat'] at hnat
    have hchar : c = '0' := Char.toNat_inj.mp (show c.toNat = 48 by omega)
    rw [hzero hchar, List.map_nil]

/-! ### The objects -/

theorem plain_model : Plain (ascii "model") := by decide

theorem plain_unique_id : Plain (ascii "unique_id") := by decide

theorem plain_inverter_name : Plain (ascii "inverter") := by decide

theorem plain_meter_name : Plain (ascii "energy_meter") := by decide

theorem plain_battery_name : Plain (ascii "battery") := by decide

theorem value_inverter (hm : Plain m) (hu : Plain u) : value (depth + 2) (inverterObject m u n r) =
    some (.object [(ascii "model", .string m), (ascii "unique_id", .string u),
      (ascii "max_power_ac_w", .number (decimal n))], r) := by
  have hnumber : pair (value (depth + 1)) (member "max_power_ac_w" (decimal n ++ 125 :: r)) =
      some ((ascii "max_power_ac_w", .number (decimal n)), 125 :: r) := by
    rw [pair_member (by decide), number_decimal]
    rfl
  obtain ⟨k, hk⟩ := value_members (depth + 1) "model" _
  rw [inverterObject, hk, separated_comma (pair_string plain_model hm), separated_comma (pair_string plain_unique_id hu),
    separated_brace hnumber]
  rfl

theorem value_meter (hm : Plain m) :
    value (depth + 2) (meterObject m r) = some (.object [(ascii "model", .string m)], r) := by
  obtain ⟨k, hk⟩ := value_members (depth + 1) "model" _
  rw [meterObject, hk, separated_brace (pair_string plain_model hm)]
  rfl

theorem value_battery (hm : Plain m) (hid : Plain id) : value (depth + 2) (batteryObject m id r) =
    some (.object [(ascii "model", .string m), (ascii "unique_id", .string id)], r) := by
  obtain ⟨k, hk⟩ := value_members (depth + 1) "model" _
  rw [batteryObject, hk, separated_comma (pair_string plain_model hm),
    separated_brace (pair_string plain_unique_id hid)]
  rfl

/-- The strings of the inverter, if they are read as they were printed. -/
theorem plain_inverter {v : Json (List UInt8) × List UInt8} (h : value (depth + 2) (inverterObject m u n r) = some v)
    (hm : (v.1.member (ascii "model")).bind Json.string? = some m)
    (hu : (v.1.member (ascii "unique_id")).bind Json.string? = some u) : Plain m ∧ Plain u := by
  obtain ⟨k, hk⟩ := value_members (depth + 1) "model" _
  rw [inverterObject, hk] at h
  obtain ⟨ms, hms, rfl⟩ := Option.map_eq_some_iff.mp h
  have hplain : Plain m := plain_of_first plain_model hms hm
  refine ⟨hplain, ?_⟩
  rw [separated_comma (pair_string plain_model hplain)] at hms
  obtain ⟨ms', hms', rfl⟩ := Option.map_eq_some_iff.mp hms
  rw [Json.member_tail (by decide)] at hu
  exact plain_of_first plain_unique_id hms' hu

/-- The serial number of the battery, if it is read as it was printed. -/
theorem plain_battery (hm : Plain m) {v : Json (List UInt8) × List UInt8}
    (h : value (depth + 2) (batteryObject m id r) = some v)
    (hid : (v.1.member (ascii "unique_id")).bind Json.string? = some id) : Plain id := by
  obtain ⟨k, hk⟩ := value_members (depth + 1) "model" _
  rw [batteryObject, hk] at h
  obtain ⟨ms, hms, rfl⟩ := Option.map_eq_some_iff.mp h
  rw [separated_comma (pair_string plain_model hm)] at hms
  obtain ⟨ms', hms', rfl⟩ := Option.map_eq_some_iff.mp hms
  rw [Json.member_tail (by decide)] at hid
  exact plain_of_first plain_unique_id hms' hid

end Parts

/-! ### The whole text -/

section Whole

variable {s : InfoStrings} {n : UInt32}

/-- What the body stands for. -/
def infoJson (s : InfoStrings) (n : UInt32) : Json (List UInt8) :=
  .object [(ascii "inverter", .object [(ascii "model", .string s.inverterModel),
      (ascii "unique_id", .string s.inverterUniqueId), (ascii "max_power_ac_w", .number (decimal n))]),
    (ascii "energy_meter", .object [(ascii "model", .string s.meterModel)]),
    (ascii "battery", .object [(ascii "model", .string s.batteryModel), (ascii "unique_id", .string s.batteryUniqueId)])]

theorem pair_object {name : String} (hname : Plain (ascii name)) {depth : ℕ} {t r : List UInt8} {v : Json (List UInt8)}
    (h : value depth t = some (v, r)) : pair (value depth) (member name t) = some ((ascii name, v), r) := by
  rw [pair_member hname, h]
  rfl

/-- The text of the body is not too deep to be read. -/
theorem parse_infoText_eq (s : InfoStrings) (n : UInt32) : ∃ depth, parse (infoText s n) =
    (value (depth + 3) (infoText s n)).bind fun v => if skipWhite v.2 = [] then some v.1 else none := by
  refine ⟨(infoText s n).length - 2, ?_⟩
  have hlength : (infoText s n).length + 1 = (infoText s n).length - 2 + 3 := by
    rw [infoText_eq, member]
    simp only [List.length_cons]
    omega
  rw [parse, hlength]

/-- **A body of plain strings** is a JSON text with these strings. -/
theorem parse_infoText (hmodel : Plain s.inverterModel) (hunique : Plain s.inverterUniqueId) (hmeter : Plain s.meterModel)
    (hbattery : Plain s.batteryModel) (hid : Plain s.batteryUniqueId) : parse (infoText s n) = some (infoJson s n) := by
  obtain ⟨depth, hparse⟩ := parse_infoText_eq s n
  obtain ⟨k, hk⟩ := value_members (depth + 2) "inverter" _
  rw [hparse, infoText_eq, hk,
    separated_comma (pair_object plain_inverter_name (value_inverter hmodel hunique)),
    separated_comma (pair_object plain_meter_name (value_meter hmeter)),
    separated_brace (pair_object plain_battery_name (value_battery hbattery hid))]
  rfl

theorem infoStrings_infoJson : infoStrings (infoJson s n) = some s := rfl

theorem textAt_eq (v : Json (List UInt8)) (object name : String) :
    textAt v object name = ((v.member (ascii object)).bind (Json.member (ascii name))).bind Json.string? := by
  rw [textAt, Json.follow_two]

theorem textAt_of_infoStrings {v : Json (List UInt8)} (h : infoStrings v = some s) :
    textAt v "inverter" "model" = some s.inverterModel ∧ textAt v "inverter" "unique_id" = some s.inverterUniqueId ∧
      textAt v "battery" "unique_id" = some s.batteryUniqueId := by
  obtain ⟨model, hmodel, h⟩ := Option.bind_eq_some_iff.mp h
  obtain ⟨unique, hunique, h⟩ := Option.bind_eq_some_iff.mp h
  obtain ⟨meter, -, h⟩ := Option.bind_eq_some_iff.mp h
  obtain ⟨battery, -, h⟩ := Option.bind_eq_some_iff.mp h
  obtain ⟨id, hid, h⟩ := Option.bind_eq_some_iff.mp h
  obtain rfl := Option.some.inj h
  exact ⟨hmodel, hunique, hid⟩

/-- **Only plain strings** are read as they were printed. -/
theorem plain_of_parse (hmeter : Plain s.meterModel) (hbattery : Plain s.batteryModel) {v : Json (List UInt8)}
    (h : parse (infoText s n) = some v) (hs : infoStrings v = some s) :
    Plain s.inverterModel ∧ Plain s.inverterUniqueId ∧ Plain s.batteryUniqueId := by
  obtain ⟨hmodel, hunique, hid⟩ := textAt_of_infoStrings hs
  obtain ⟨depth, hparse⟩ := parse_infoText_eq s n
  obtain ⟨k, hk⟩ := value_members (depth + 2) "inverter" _
  rw [hparse, infoText_eq, hk] at h
  obtain ⟨w, hw, hv⟩ := Option.bind_eq_some_iff.mp h
  obtain ⟨ms, hms, rfl⟩ := Option.map_eq_some_iff.mp hw
  obtain rfl : Json.object ms.1 = v := by
    split at hv
    · exact Option.some.inj hv
    · cases hv
  rw [textAt_eq] at hmodel hunique hid
  -- the inverter comes first, so it is read as far as its strings
  obtain ⟨x, hx, hhead⟩ := exists_item hms
  rw [pair_member plain_inverter_name] at hx
  obtain ⟨inverter, hinverter, rfl⟩ := Option.map_eq_some_iff.mp hx
  rw [Json.member_head hhead] at hmodel hunique
  obtain ⟨hplain, hplain'⟩ := plain_inverter hinverter hmodel hunique
  refine ⟨hplain, hplain', ?_⟩
  -- then so is the meter, and the battery is read as far as its strings
  rw [separated_comma (pair_object plain_inverter_name (value_inverter hplain hplain'))] at hms
  obtain ⟨ms₁, hms₁, rfl⟩ := Option.map_eq_some_iff.mp hms
  rw [separated_comma (pair_object plain_meter_name (value_meter hmeter))] at hms₁
  obtain ⟨ms₂, hms₂, rfl⟩ := Option.map_eq_some_iff.mp hms₁
  obtain ⟨y, hy, hhead'⟩ := exists_item hms₂
  rw [pair_member plain_battery_name] at hy
  obtain ⟨battery, hread, rfl⟩ := Option.map_eq_some_iff.mp hy
  rw [Json.member_tail (by decide), Json.member_tail (by decide), Json.member_head hhead'] at hid
  exact plain_battery hbattery hread hid

end Whole

/-! ### The strings of the device -/

theorem plain_meterModel (type : UInt16) : Plain (huaweiEmTypeToString type) := by
  rw [huaweiEmTypeToString]
  split
  · decide
  · split <;> decide

theorem plain_product (product : UInt16) : Plain (huaweiBatteryProductModeToString product) := by
  rw [huaweiBatteryProductModeToString]
  split
  · decide
  · split <;> decide

theorem plain_batteryModelOf (reg : ℕ → UInt16) : Plain (batteryModelOf reg) := by
  have happend {s t : List UInt8} (hs : Plain s) (ht : Plain t) : Plain (s ++ t) := fun c hc =>
    (List.mem_append.mp hc).elim (hs c) (ht c)
  have hnil : Plain [] := by decide
  rw [batteryModelOf]
  split
  · refine happend (plain_product _) ?_
    split
    · exact happend (by decide) (plain_product _)
    · exact hnil
  · split
    · exact plain_product _
    · exact hnil

/-- For all registers: the body is a JSON text with the strings of the device if and only if
the model and the serial number of the inverter and the serial number of the battery have no
quote, no backslash and no control character. -/
theorem info_valid_iff (reg : ℕ → UInt16) : InfoValid reg ↔
    Plain (registerText reg 30000 15) ∧ Plain (registerText reg 30015 10) ∧ Plain (batteryUniqueIdOf reg) := by
  have hmeter : Plain (stringsOf reg).meterModel := plain_meterModel _
  have hbattery : Plain (stringsOf reg).batteryModel := plain_batteryModelOf reg
  constructor
  · intro h
    obtain ⟨s, body, v, hs, hbody, hparse, hread⟩ := h (fun _ _ => 0) default default
    have hstrings := strings_huaweiGetInfo reg (fun _ _ => 0) default default
    obtain rfl := Option.some.inj (hstrings.symm.trans hs)
    rw [infoBody, hstrings, Option.map_some] at hbody
    obtain rfl := Option.some.inj hbody
    exact plain_of_parse hmeter hbattery hparse hread
  · rintro ⟨hmodel, hunique, hid⟩ behind loc info
    have hstrings := strings_huaweiGetInfo reg behind loc info
    exact ⟨stringsOf reg, _, _, hstrings, by rw [infoBody, hstrings]; rfl,
      parse_infoText hmodel hunique hmeter hbattery hid, infoStrings_infoJson⟩

/-- A model that is a quote. -/
theorem not_info_valid : ¬InfoValid fun k => if k = 30000 then 0x2200 else 0 := by
  intro h
  obtain ⟨s, body, v, hs, hbody, hparse, -⟩ := h (fun _ _ => 0) default default
  have hnone : ((infoBody (huaweiGetInfo (registerReader fun k => if k = 30000 then 0x2200 else 0)
      (registerStrings fun k => if k = 30000 then 0x2200 else 0) (fun _ _ => 0) default default)).bind parse).isSome =
        false := by decide +kernel
  rw [hbody, Option.bind_some, hparse] at hnone
  cases hnone

end ModbusProxy.Http
