import ModbusProxy.Convert.Huawei

/-!
# The layout of the meter's structure

`huawei_get_values` reads the 37 registers of the energy meter at once and has all their
bytes reversed, so the members of `huawei_em_request_t` are declared in the reversed order
of their registers.

## The model

The members are declared by their type, and a member lies behind the ones that are declared
before it, since the structure is packed. Where `huawei_get_values` uses a member it is
named by its offset; these are the offsets that follow from the declaration (`accessors`).

## What is proved

After the call the members, from the last to the first, are the numbers that consecutive
groups of registers stand for, and these groups are the whole window (`meter_window`).
-/

namespace ModbusProxy.Convert

open Memory Endian Poll Runs

/-! ### The declaration -/

/-- The type of a member. -/
inductive MemberType where
  /-- `int32_t`. -/
  | int32
  /-- `uint16_t`. -/
  | uint16
  /-- `int16_t`. -/
  | int16
  deriving DecidableEq

/-- How many registers a member takes. -/
def MemberType.registers : MemberType → ℕ
  | .int32 => 2
  | .uint16 | .int16 => 1

/-- `sizeof`. -/
def MemberType.size (t : MemberType) : ℕ := 2 * t.registers

/-- The value of the bytes of a member. -/
def MemberType.value : MemberType → List UInt8 → ℤ
  | .int32, bs => (ofBytes bs : Int32).toInt
  | .uint16, bs => (ofBytes bs : UInt16).toNat
  | .int16, bs => (ofBytes bs : Int16).toInt

/-- The members of `huawei_em_request_t`. -/
inductive MeterMember where
  /-- `power_real_l3`. -/
  | powerRealL3
  /-- `power_real_l2`. -/
  | powerRealL2
  /-- `power_real_l1`. -/
  | powerRealL1
  /-- `l3_l1_line_voltage`. -/
  | l3L1LineVoltage
  /-- `l2_l3_line_voltage`. -/
  | l2L3LineVoltage
  /-- `l1_l2_line_voltage`. -/
  | l1L2LineVoltage
  /-- `meter_type`. -/
  | meterType
  /-- `energy_reactive_cons`. -/
  | energyReactiveCons
  /-- `energy_real_cons`. -/
  | energyRealCons
  /-- `energy_real_prod`. -/
  | energyRealProd
  /-- `grid_freq`. -/
  | gridFreq
  /-- `power_sf`. -/
  | powerSf
  /-- `total_reactive_power`. -/
  | totalReactivePower
  /-- `total_real_power`. -/
  | totalRealPower
  /-- `current_l3`. -/
  | currentL3
  /-- `current_l2`. -/
  | currentL2
  /-- `current_l1`. -/
  | currentL1
  /-- `voltage_l3`. -/
  | voltageL3
  /-- `voltage_l2`. -/
  | voltageL2
  /-- `voltage_l1`. -/
  | voltageL1
  deriving DecidableEq

namespace MeterMember

/-- The type with which a member is declared. -/
def type : MeterMember → MemberType
  | .meterType => .uint16
  | .gridFreq | .powerSf => .int16
  | _ => .int32

/-- The members in the order of their declaration. -/
def declaration : List MeterMember :=
  [.powerRealL3, .powerRealL2, .powerRealL1, .l3L1LineVoltage, .l2L3LineVoltage, .l1L2LineVoltage, .meterType,
    .energyReactiveCons, .energyRealCons, .energyRealProd, .gridFreq, .powerSf, .totalReactivePower, .totalRealPower,
    .currentL3, .currentL2, .currentL1, .voltageL3, .voltageL2, .voltageL1]

/-- Where a member lies: behind those that are declared before it. -/
def offset (m : MeterMember) : ℕ := ((declaration.takeWhile fun m' => m' ≠ m).map fun m' => m'.type.size).sum

/-- The first register of a member, in the device's table. -/
def address : MeterMember → ℕ
  | .voltageL1 => 37101
  | .voltageL2 => 37103
  | .voltageL3 => 37105
  | .currentL1 => 37107
  | .currentL2 => 37109
  | .currentL3 => 37111
  | .totalRealPower => 37113
  | .totalReactivePower => 37115
  | .powerSf => 37117
  | .gridFreq => 37118
  | .energyRealProd => 37119
  | .energyRealCons => 37121
  | .energyReactiveCons => 37123
  | .meterType => 37125
  | .l1L2LineVoltage => 37126
  | .l2L3LineVoltage => 37128
  | .l3L1LineVoltage => 37130
  | .powerRealL1 => 37132
  | .powerRealL2 => 37134
  | .powerRealL3 => 37136

end MeterMember

/-- The value of a member. -/
def HuaweiEmRequest.value (em : HuaweiEmRequest) (m : MeterMember) : ℤ :=
  m.type.value ((em.bytes.drop m.offset).take m.type.size)

/-- The members that `huawei_get_values` uses are the declared ones. -/
theorem HuaweiEmRequest.accessors (em : HuaweiEmRequest) :
    ([em.powerRealL3, em.powerRealL2, em.powerRealL1, em.energyReactiveCons, em.energyRealCons, em.energyRealProd,
        em.totalRealPower, em.currentL3, em.currentL2, em.currentL1, em.voltageL3, em.voltageL2,
        em.voltageL1].map Int32.toInt =
      [MeterMember.powerRealL3, .powerRealL2, .powerRealL1, .energyReactiveCons, .energyRealCons, .energyRealProd,
        .totalRealPower, .currentL3, .currentL2, .currentL1, .voltageL3, .voltageL2, .voltageL1].map em.value) ∧
      em.gridFreq.toInt = em.value .gridFreq ∧ em.powerSf.toInt = em.value .powerSf ∧
      (em.meterType.toNat : ℤ) = em.value .meterType :=
  ⟨rfl, rfl, rfl, rfl⟩

/-! ### The window -/

/-- The number that consecutive registers are, the first the most significant. -/
def groupNumber (reg : ℕ → UInt16) (a n : ℕ) : ℕ := (List.range n).foldl (fun v k => 65536 * v + (reg (a + k)).toNat) 0

/-- The number that the registers of a member stand for, in two's complement if it is signed. -/
def MemberType.decode (t : MemberType) (reg : ℕ → UInt16) (a : ℕ) : ℤ :=
  match t with
  | .uint16 => groupNumber reg a t.registers
  | .int16 | .int32 => (BitVec.ofNat (16 * t.registers) (groupNumber reg a t.registers)).toInt

/-- The structure is the window of registers. -/
structure TilesWindow (reg : ℕ → UInt16) (em : HuaweiEmRequest) : Prop where
  /-- Every member is declared, once. -/
  declared : MeterMember.declaration.Nodup ∧ ∀ m, m ∈ MeterMember.declaration
  /-- The registers of the members, from the last one declared to the first, are those of the
  window, one behind the other. -/
  tiles : (MeterMember.declaration.reverse.flatMap fun m => List.range' m.address m.type.registers) =
    List.range' 37101 37
  /-- A member is the number that its registers stand for. -/
  value : ∀ m : MeterMember, em.value m = m.type.decode reg m.address

theorem decode_int32 (reg : ℕ → UInt16) (a : ℕ) :
    MemberType.int32.decode reg a = (u32 reg a).toInt32.toInt := by
  rw [MemberType.decode, groupNumber, show MemberType.int32.registers = 2 from rfl]
  simp only [List.range_succ, List.range_zero, List.nil_append, List.foldl_append, List.foldl_cons, List.foldl_nil,
    Nat.mul_zero, Nat.zero_add, Nat.add_zero]
  rfl

theorem decode_int16 (reg : ℕ → UInt16) (a : ℕ) : MemberType.int16.decode reg a = (reg a).toInt16.toInt := by
  rw [MemberType.decode, groupNumber, show MemberType.int16.registers = 1 from rfl]
  simp only [List.range_succ, List.range_zero, List.nil_append, List.foldl_cons, List.foldl_nil, Nat.mul_zero,
    Nat.zero_add, Nat.add_zero]
  exact congrArg BitVec.toInt (BitVec.ofNat_toNat 16 (reg a).toBitVec)

theorem decode_uint16 (reg : ℕ → UInt16) (a : ℕ) : MemberType.uint16.decode reg a = (reg a).toNat := by
  rw [MemberType.decode, groupNumber, show MemberType.uint16.registers = 1 from rfl]
  simp only [List.range_succ, List.range_zero, List.nil_append, List.foldl_cons, List.foldl_nil, Nat.mul_zero,
    Nat.zero_add, Nat.add_zero]

/-- The bytes behind a member are those of the registers before its own. -/
theorem offset_eq (m : MeterMember) :
    m.offset = 2 * (37138 - m.address - m.type.registers) ∧ 37101 ≤ m.address ∧
      m.address + m.type.registers ≤ 37138 := by
  cases m <;> decide

/-- The member with the given registers. -/
theorem value_meterOf (reg : ℕ → UInt16) (m : MeterMember) :
    (meterOf reg).value m = m.type.decode reg m.address := by
  obtain ⟨hoffset, hlo, hhi⟩ := offset_eq m
  have hgroup : (fun k => reg (37101 + (37 - (37138 - m.address - m.type.registers) - m.type.registers + k))) =
      fun k => reg (m.address + k) := by
    funext k
    congr 1
    omega
  rw [HuaweiEmRequest.value, hoffset, MemberType.size, slice_meterOf reg (by omega), hgroup]
  cases m.type with
  | int32 => rw [decode_int32]; exact congrArg (fun x : UInt32 => x.toInt32.toInt) (ofBytes_words _)
  | uint16 => rw [decode_uint16]; exact congrArg (fun x : UInt16 => (x.toNat : ℤ)) (ofBytes_word true _)
  | int16 => rw [decode_int16]; exact congrArg (fun x : UInt16 => x.toInt16.toInt) (ofBytes_word true _)

theorem tiles_meterOf (reg : ℕ → UInt16) : TilesWindow reg (meterOf reg) where
  declared := ⟨by decide, fun m => by cases m <;> decide⟩
  tiles := by decide
  value := value_meterOf reg

/-- The calls for the whole window, and for the type of the meter alone. -/
def windowCalls : List Call := [⟨0, 37101, 37⟩, ⟨1, 37125, 1⟩]

theorem windowCalls_held : HeldBy huaweiRegisters windowCalls := by decide

/-- **The window is the structure**: wherever the inverter has a client, after the one call
for the 37 registers the members of the structure are, from the last to the first, the
numbers that the cached registers of the window stand for, and the type of the meter is
the one that a call for its register alone gives. -/
theorem meter_window (evs : List Event) (heap : ℕ → UInt8) (em : HuaweiEmRequest) (meterType : UInt16)
    (hfound : ((run World.step .init evs).findClient .huawei).isSome = true) :
    let r := worldReader (run World.step .init evs) .huawei heap
    TilesWindow ((run World.step .init evs).registers .huawei) (r.read 0 37101 37 true em) ∧
      (r.read 0 37101 37 true em).meterType = r.read 1 37125 1 true meterType := by
  intro r
  have hread := reader_eq evs rfl windowCalls_held hfound heap true
  have hwindow : r.read 0 37101 37 true em = meterOf ((run World.step .init evs).registers .huawei) :=
    (congrArg ofBytes (hread ⟨0, 37101, 37⟩ (by decide) _)).trans (read_meter _ 0 em)
  have htype : r.read 1 37125 1 true meterType = (run World.step .init evs).registers .huawei 37125 :=
    (congrArg ofBytes (hread ⟨1, 37125, 1⟩ (by decide) _)).trans (read_uint16 _ 1 37125 true meterType)
  rw [hwindow, htype]
  exact ⟨tiles_meterOf _, meterOf_meterType _⟩

/-- A client that has polled the block once. -/
theorem meter_window_polled :
    let w := run World.step .init
      [.startClient .huawei "inverter" 502, .poll 0 ⟨4, deviceReply fun k => UInt16.ofNat k⟩]
    let r := worldReader w .huawei fun _ => 0
    TilesWindow (w.registers .huawei) (r.read 0 37101 37 true default) ∧
      (r.read 0 37101 37 true (default : HuaweiEmRequest)).meterType = r.read 1 37125 1 true 7 :=
  meter_window [.startClient .huawei "inverter" 502, .poll 0 ⟨4, deviceReply fun k => UInt16.ofNat k⟩] (fun _ => 0)
    default 7 (by decide +kernel)

end ModbusProxy.Convert
