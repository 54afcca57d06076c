import ModbusProxy.Convert.Reader

/-!
# The boiler

`can_ez3_get_values` of `can_ez3_modbus_converter.c` fills a `can_ez3_values_t` from four
registers.
-/

namespace ModbusProxy.Convert

open Memory Endian Poll Runs

/-- `can_ez3_values_t`. -/
structure CanEz3Values where
  /-- `boiler_temp`. -/
  boilerTemp : Float32
  /-- `sl_temp`. -/
  slTemp : Float32
  /-- `sl_power`. -/
  slPower : UInt16
  /-- `sl_status`. -/
  slStatus : UInt16
  deriving Inhabited

/-- The local variables of `can_ez3_get_values`. -/
structure CanEz3Locals where
  /-- `boiler_temp`. -/
  boilerTemp : Int16
  /-- `sl_temp`. -/
  slTemp : Int16
  deriving Inhabited

/-- `can_ez3_get_values`. -/
def canEz3GetValues (r : Reader) (loc : CanEz3Locals) (values : CanEz3Values) : CanEz3Values :=
  let boilerTemp := r.read 0 1 1 true loc.boilerTemp
  let slTemp := r.read 2 3 1 true loc.slTemp
  { values with
    boilerTemp := float boilerTemp.toInt / float 10
    slPower := r.read 1 2 1 true values.slPower * 10
    slTemp := float slTemp.toInt / float 10
    slStatus := r.read 3 4 1 true values.slStatus }

/-- The calls of `can_ez3_get_values`, in their order. -/
def canEz3Calls : List Call := [⟨0, 1, 1⟩, ⟨1, 2, 1⟩, ⟨2, 3, 1⟩, ⟨3, 4, 1⟩]

theorem canEz3Calls_held : HeldBy canEz3Registers canEz3Calls := by decide

/-- No other calls are made. -/
theorem canEz3GetValues_congr {r r' : Reader} (h : r.AgreeOn r' true canEz3Calls) (loc : CanEz3Locals)
    (values : CanEz3Values) : canEz3GetValues r loc values = canEz3GetValues r' loc values := by
  simp only [Reader.AgreeOn, canEz3Calls, List.forall_mem_cons, List.not_mem_nil, IsEmpty.forall_iff,
    implies_true, and_true] at h
  simp only [canEz3GetValues, Reader.read, h]

/-- What `can_ez3_get_values` makes of registers. -/
def canEz3Of (reg : ℕ → UInt16) : CanEz3Values := canEz3GetValues (registerReader reg) default default

/-- On registers, every member of the structure is assigned from them. -/
theorem canEz3GetValues_eq (reg : ℕ → UInt16) (loc : CanEz3Locals) (values : CanEz3Values) :
    canEz3GetValues (registerReader reg) loc values = canEz3Of reg := by
  simp only [canEz3Of, canEz3GetValues, read_int16, read_uint16]

end ModbusProxy.Convert
