import ModbusProxy.Convert.Reader
import ModbusProxy.Library.Layout

/-!
# The wallbox

`nrgkick_get_values` of `nrgkick_modbus_converter.c` fills a packed `nrgkick_values_t`. Four
of its members have one byte each and are filled by reads of one register, that is, of
two bytes, so that each of these reads also writes the first byte behind its member.

## The model

The structure is the array of its bytes, and a member a place in it. A `float` is stored
by some encoding in four bytes, the parameter `enc`.

## What is proved

`nrgkick_member`: on registers every member ends up with the value of its own registers,
save that the first byte of `max_current_to_ev` is the high byte of register 257, the
error code's. `nrgkick_fields_iff`: so every member is right exactly if these two bytes
agree.
-/

namespace ModbusProxy.Convert

open Memory Endian Poll Runs Layout

/-! ### The structure -/

/-- `nrgkick_values_t`. -/
abbrev NrgkickValues : Type := Packed 48

/-- The members of a `nrgkick_values_t`. -/
inductive NrgkickMember where
  /-- `current[i]`. -/
  | current (i : Fin 3)
  /-- `connector_temp[i]`. -/
  | connectorTemp (i : Fin 3)
  /-- `charged_energy`. -/
  | chargedEnergy
  /-- `charging_power`. -/
  | chargingPower
  /-- `housing_temp`. -/
  | housingTemp
  /-- `cp_status`. -/
  | cpStatus
  /-- `switched_relais`. -/
  | switchedRelais
  /-- `warning_code`. -/
  | warningCode
  /-- `error_code`. -/
  | errorCode
  /-- `max_current_to_ev`. -/
  | maxCurrentToEv
  /-- `user_set_current`. -/
  | userSetCurrent

/-- `offsetof`. -/
def NrgkickMember.offset : NrgkickMember → ℕ
  | current i => 4 * i.val
  | connectorTemp i => 12 + 4 * i.val
  | chargedEnergy => 24
  | chargingPower => 28
  | housingTemp => 32
  | cpStatus => 36
  | switchedRelais => 37
  | warningCode => 38
  | errorCode => 39
  | maxCurrentToEv => 40
  | userSetCurrent => 44

/-- `sizeof`. -/
def NrgkickMember.size : NrgkickMember → ℕ
  | cpStatus | switchedRelais | warningCode | errorCode => 1
  | _ => 4

/-- The bytes of a member. -/
def NrgkickValues.get (values : NrgkickValues) (x : NrgkickMember) : List UInt8 := load values x.offset x.size

/-- The structure after bytes are stored at a member. -/
def NrgkickValues.set (values : NrgkickValues) (x : NrgkickMember) (bytes : List UInt8) : NrgkickValues :=
  store values x.offset bytes

/-- The local variables of `nrgkick_get_values`. -/
structure NrgkickLocals where
  /-- `charging_power`. -/
  chargingPower : Int32
  /-- `current`. -/
  current : Fin 3 → UInt16
  /-- `housing_temp`. -/
  housingTemp : Int16
  /-- `connector_temp`. -/
  connectorTemp : Fin 3 → Int16
  /-- `max_current_to_ev`. -/
  maxCurrentToEv : UInt16
  /-- `user_set_current`. -/
  userSetCurrent : UInt16
  deriving Inhabited

/-- The members in their order. -/
def NrgkickMember.all : List NrgkickMember :=
  [.current 0, .current 1, .current 2, .connectorTemp 0, .connectorTemp 1, .connectorTemp 2, .chargedEnergy,
    .chargingPower, .housingTemp, .cpStatus, .switchedRelais, .warningCode, .errorCode, .maxCurrentToEv,
    .userSetCurrent]

/-- The members are all there is in the structure. -/
theorem NrgkickValues.ext {values values' : NrgkickValues}
    (h : ∀ x, NrgkickValues.get values x = NrgkickValues.get values' x) : values = values' := by
  have hload (v : NrgkickValues) : load v 0 48 = NrgkickMember.all.flatMap (NrgkickValues.get v) := rfl
  apply eq_of_load_eq
  rw [hload, hload]
  exact List.flatMap_congr fun x _ => h x

/-! ### The converter -/

section Converter

variable (enc : Float32 → UInt32) (r : Reader)

/-- A `float` assigned to a member. -/
def NrgkickValues.assign (values : NrgkickValues) (x : NrgkickMember) (f : Float32) : NrgkickValues :=
  NrgkickValues.set values x (toBytes (enc f))

/-- A call that writes `size` bytes to the place of a member. -/
def NrgkickValues.fill (values : NrgkickValues) (x : NrgkickMember) (size : ℕ) (call : ℕ) (address length : UInt16) :
    NrgkickValues :=
  NrgkickValues.set values x (r call address length false (load values x.offset size))

/-- The body of the loop over the phases. -/
def nrgkickPhase (loc : NrgkickLocals) (values : NrgkickValues) (i : Fin 3) : NrgkickValues :=
  let current := r.read (4 + 2 * i.val) (220 + UInt16.ofNat i.val) 1 false (loc.current i)
  let values := NrgkickValues.assign enc values (.current i) (float current.toNat / float 1000)
  let connectorTemp := r.read (5 + 2 * i.val) (259 + UInt16.ofNat i.val) 1 false (loc.connectorTemp i)
  NrgkickValues.assign enc values (.connectorTemp i) (float connectorTemp.toInt / float 100)

/-- `nrgkick_get_values`. -/
def nrgkickGetValues (loc : NrgkickLocals) (values : NrgkickValues) : NrgkickValues :=
  let userSetCurrent := r.read 0 194 1 false loc.userSetCurrent
  let values := NrgkickValues.assign enc values .userSetCurrent (float userSetCurrent.toNat / float 10)
  let values := NrgkickValues.fill r values .chargedEnergy 4 1 203 2
  let maxCurrentToEv := r.read 2 206 1 false loc.maxCurrentToEv
  let values := NrgkickValues.assign enc values .maxCurrentToEv (float maxCurrentToEv.toNat / float 10)
  let chargingPower := r.read 3 210 2 false loc.chargingPower
  let values := NrgkickValues.assign enc values .chargingPower (float chargingPower.toInt / float 1000)
  let values := [0, 1, 2].foldl (nrgkickPhase enc r loc) values
  -- two bytes each, for members of one
  let values := NrgkickValues.fill r values .cpStatus 2 10 251 1
  let values := NrgkickValues.fill r values .switchedRelais 2 11 253 1
  let values := NrgkickValues.fill r values .warningCode 2 12 256 1
  let values := NrgkickValues.fill r values .errorCode 2 13 257 1
  let housingTemp := r.read 14 258 1 false loc.housingTemp
  NrgkickValues.assign enc values .housingTemp (float housingTemp.toInt / float 100)

/-- The calls of `nrgkick_get_values`, in their order. -/
def nrgkickCalls : List Call :=
  [⟨0, 194, 1⟩, ⟨1, 203, 2⟩, ⟨2, 206, 1⟩, ⟨3, 210, 2⟩, ⟨4, 220, 1⟩, ⟨5, 259, 1⟩, ⟨6, 221, 1⟩, ⟨7, 260, 1⟩, ⟨8, 222, 1⟩,
    ⟨9, 261, 1⟩, ⟨10, 251, 1⟩, ⟨11, 253, 1⟩, ⟨12, 256, 1⟩, ⟨13, 257, 1⟩, ⟨14, 258, 1⟩]

theorem nrgkickCalls_held : HeldBy nrgkickRegisters nrgkickCalls := by decide

end Converter

/-- No other calls are made. -/
theorem nrgkickGetValues_congr (enc : Float32 → UInt32) {r r' : Reader} (h : r.AgreeOn r' false nrgkickCalls)
    (loc : NrgkickLocals) (values : NrgkickValues) :
    nrgkickGetValues enc r loc values = nrgkickGetValues enc r' loc values := by
  simp only [Reader.AgreeOn, nrgkickCalls, List.forall_mem_cons, List.not_mem_nil, IsEmpty.forall_iff,
    implies_true, and_true] at h
  simp [nrgkickGetValues, nrgkickPhase, NrgkickValues.fill, Reader.read, h]

/-! ### On registers -/

section Registers

variable (reg : ℕ → UInt16)

/-- The value of a member, from its own registers. -/
def NrgkickMember.value (enc : Float32 → UInt32) : NrgkickMember → List UInt8
  | current i => toBytes (enc (float (reg (220 + i.val)).toNat / float 1000))
  | connectorTemp i => toBytes (enc (float (reg (259 + i.val)).toInt16.toInt / float 100))
  | chargedEnergy => leBytes 4 ((reg 203).toNat + 65536 * (reg 204).toNat)
  | chargingPower => toBytes (enc (float (u32Low reg 210).toInt32.toInt / float 1000))
  | housingTemp => toBytes (enc (float (reg 258).toInt16.toInt / float 100))
  | cpStatus => [lo (reg 251)]
  | switchedRelais => [lo (reg 253)]
  | warningCode => [lo (reg 256)]
  | errorCode => [lo (reg 257)]
  | maxCurrentToEv => toBytes (enc (float (reg 206).toNat / float 10))
  | userSetCurrent => toBytes (enc (float (reg 194).toNat / float 10))

end Registers

section Members

variable (values : NrgkickValues) {x y : NrgkickMember}

/-- A member apart from what is stored at another. -/
theorem get_set_of_apart {bytes : List UInt8} (h : y.offset + y.size ≤ x.offset ∨ x.offset + bytes.length ≤ y.offset) :
    NrgkickValues.get (NrgkickValues.set values x bytes) y = NrgkickValues.get values y :=
  load_store_of_apart values h

theorem get_assign_of_apart {enc : Float32 → UInt32} {f : Float32}
    (h : y.offset + y.size ≤ x.offset ∨ x.offset + 4 ≤ y.offset) :
    NrgkickValues.get (NrgkickValues.assign enc values x f) y = NrgkickValues.get values y :=
  get_set_of_apart values (by rw [length_toBytes]; exact h)

theorem get_assign {enc : Float32 → UInt32} {f : Float32} (hx : x.size = 4) (hn : x.offset + 4 ≤ 48) :
    NrgkickValues.get (NrgkickValues.assign enc values x f) x = toBytes (enc f) :=
  load_store values (by rw [length_toBytes]; exact hn) (by rw [length_toBytes, hx]; rfl)

/-- Two bytes at a member of one byte. -/
theorem get_set_two {a b : UInt8} (hx : x.size = 1) (hn : x.offset + 2 ≤ 48) :
    NrgkickValues.get (NrgkickValues.set values x [a, b]) x = [a] := by
  have hload := load_store_of_inside values (show x.offset + [a, b].length ≤ 48 by simpa using hn)
    (show 0 + 1 ≤ [a, b].length by simp)
  rw [Nat.add_zero] at hload
  rw [NrgkickValues.get, hx]
  exact hload

theorem get_set_two_of_apart {a b : UInt8} (h : y.offset + y.size ≤ x.offset ∨ x.offset + 2 ≤ y.offset) :
    NrgkickValues.get (NrgkickValues.set values x [a, b]) y = NrgkickValues.get values y :=
  get_set_of_apart values h

theorem get_set_leBytes_of_apart {v : ℕ} (h : y.offset + y.size ≤ x.offset ∨ x.offset + 4 ≤ y.offset) :
    NrgkickValues.get (NrgkickValues.set values x (leBytes 4 v)) y = NrgkickValues.get values y :=
  get_set_of_apart values (by rw [length_leBytes]; exact h)

theorem get_set_leBytes {v : ℕ} (hx : x.size = 4) (hn : x.offset + 4 ≤ 48) :
    NrgkickValues.get (NrgkickValues.set values x (leBytes 4 v)) x = leBytes 4 v :=
  load_store values (by rw [length_leBytes]; exact hn) (by rw [length_leBytes, hx])

/-- The error code's second byte is the first one of the member behind it. -/
theorem get_maxCurrentToEv {a b : UInt8} :
    NrgkickValues.get (NrgkickValues.set values .errorCode [a, b]) .maxCurrentToEv =
      b :: (NrgkickValues.get values .maxCurrentToEv).drop 1 := by
  have hfirst : load (store values 39 [a, b]) 40 1 = [b] :=
    load_store_of_inside values (show 39 + [a, b].length ≤ 48 by simp) (show 1 + 1 ≤ [a, b].length by simp)
  have hrest : load (store values 39 [a, b]) 41 3 = load values 41 3 :=
    load_store_of_apart values (.inr (by simp))
  have hold : load values 40 4 = load values 40 1 ++ load values 41 3 := load_append values 40 1 3
  calc load (store values 39 [a, b]) 40 4
      = load (store values 39 [a, b]) 40 1 ++ load (store values 39 [a, b]) 41 3 := load_append _ 40 1 3
    _ = b :: (load values 40 4).drop 1 := by rw [hfirst, hrest, hold, List.drop_left' (length_load _ _ _)]; rfl

end Members

section Results

variable (enc : Float32 → UInt32) (reg : ℕ → UInt16)

theorem fill_word (values : NrgkickValues) (x : NrgkickMember) (call : ℕ) (address : UInt16) :
    NrgkickValues.fill (registerReader reg) values x 2 call address 1 =
      NrgkickValues.set values x [lo (reg address.toNat), hi (reg address.toNat)] := by
  rw [NrgkickValues.fill, registerReader, overwrite_of_length_eq (by rw [length_load, length_hostBytes]; rfl)]
  rfl

theorem fill_words (values : NrgkickValues) (x : NrgkickMember) (call : ℕ) (address : UInt16) :
    NrgkickValues.fill (registerReader reg) values x 4 call address 2 =
      NrgkickValues.set values x (leBytes 4 ((reg address.toNat).toNat + 65536 * (reg (address.toNat + 1)).toNat)) := by
  rw [NrgkickValues.fill, registerReader, overwrite_of_length_eq (by rw [length_load, length_hostBytes]; rfl),
    show (2 : UInt16).toNat = 2 from rfl, leWords_two]
  rfl

/-- The stores of `nrgkick_get_values`, on registers. -/
theorem nrgkickGetValues_eq (loc : NrgkickLocals) (values : NrgkickValues) :
    nrgkickGetValues enc (registerReader reg) loc values =
      let assign := fun values x f => NrgkickValues.assign enc values x f
      let phase := fun values (i : Fin 3) =>
        assign (assign values (.current i) (float (reg (220 + i.val)).toNat / float 1000)) (.connectorTemp i)
          (float (reg (259 + i.val)).toInt16.toInt / float 100)
      let word := fun values x a => NrgkickValues.set values x [lo (reg a), hi (reg a)]
      let values := assign values .userSetCurrent (float (reg 194).toNat / float 10)
      let values := NrgkickValues.set values .chargedEnergy (leBytes 4 ((reg 203).toNat + 65536 * (reg 204).toNat))
      let values := assign values .maxCurrentToEv (float (reg 206).toNat / float 10)
      let values := assign values .chargingPower (float (u32Low reg 210).toInt32.toInt / float 1000)
      let values := phase (phase (phase values 0) 1) 2
      let values := word (word (word (word values .cpStatus 251) .switchedRelais 253) .warningCode 256) .errorCode 257
      assign values .housingTemp (float (reg 258).toInt16.toInt / float 100) := by
  simp only [nrgkickGetValues, nrgkickPhase, List.foldl_cons, List.foldl_nil, fill_word, fill_words, read_uint16,
    read_int16, read_int32_low]
  rfl

theorem fin_three (i : Fin 3) : i = 0 ∨ i = 1 ∨ i = 2 := by
  fin_cases i <;> simp

/-- What each member ends up with. -/
def NrgkickMember.stored (x : NrgkickMember) : List UInt8 :=
  match x with
  | maxCurrentToEv => hi (reg 257) :: (x.value reg enc).drop 1
  | x => x.value reg enc

/-- **Every member after the converter.** -/
theorem nrgkick_member (loc : NrgkickLocals) (values : NrgkickValues) (x : NrgkickMember) :
    NrgkickValues.get (nrgkickGetValues enc (registerReader reg) loc values) x = x.stored enc reg := by
  rw [nrgkickGetValues_eq]
  cases x with
  | current i =>
    rcases fin_three i with rfl | rfl | rfl <;>
      simp (disch := decide) only [get_assign_of_apart, get_assign, get_set_two_of_apart] <;> rfl
  | connectorTemp i =>
    rcases fin_three i with rfl | rfl | rfl <;>
      simp (disch := decide) only [get_assign_of_apart, get_assign, get_set_two_of_apart] <;> rfl
  | maxCurrentToEv =>
    simp (disch := decide) only [get_assign_of_apart, get_assign, get_set_two_of_apart, get_maxCurrentToEv]
    rfl
  | chargedEnergy =>
    simp (disch := decide) only [get_assign_of_apart, get_set_leBytes, get_set_two_of_apart]
    rfl
  | chargingPower | housingTemp | userSetCurrent =>
    simp (disch := decide) only [get_assign_of_apart, get_assign, get_set_leBytes_of_apart, get_set_two_of_apart]
    rfl
  | cpStatus | switchedRelais | warningCode | errorCode =>
    simp (disch := decide) only [get_assign_of_apart, get_set_two, get_set_two_of_apart]
    rfl

theorem length_value (x : NrgkickMember) : (x.value reg enc).length = x.size := by
  cases x <;> rfl

/-- Every member has the value of its own registers exactly if the error code's high byte
happens to be the first byte of the current's encoding. -/
theorem stored_eq_value_iff :
    (∀ x : NrgkickMember, x.stored enc reg = x.value reg enc) ↔
      (NrgkickMember.maxCurrentToEv.value reg enc).head? = some (hi (reg 257)) := by
  have hlen := length_value enc reg .maxCurrentToEv
  constructor
  · intro h
    rw [← h .maxCurrentToEv]
    rfl
  · intro h x
    cases x with
    | maxCurrentToEv =>
      obtain ⟨b, rest, hvalue⟩ := List.exists_cons_of_length_eq_add_one hlen
      simp only [NrgkickMember.stored, hvalue, List.head?_cons, Option.some.injEq] at h ⊢
      rw [h]
      rfl
    | _ => rfl

end Results

/-- **Field independence of the wallbox decoder.** After `nrgkick_get_values` with a polled
wallbox, every member has the value of its own registers exactly if the high byte of
register 257 is the first byte of the encoding of register 206 in ampere. -/
theorem nrgkick_fields_iff (enc : Float32 → UInt32) (evs : List Event) (heap : ℕ → UInt8)
    (hfound : ((run World.step .init evs).findClient .nrgkick).isSome = true) (loc : NrgkickLocals)
    (values : NrgkickValues) :
    let w := run World.step .init evs
    let reg := w.registers .nrgkick
    (∀ x : NrgkickMember,
      NrgkickValues.get (nrgkickGetValues enc (worldReader w .nrgkick heap) loc values) x = x.value reg enc) ↔
      (toBytes (enc (float (reg 206).toNat / float 10))).head? = some (hi (reg 257)) := by
  intro w reg
  rw [nrgkickGetValues_congr enc (reader_eq evs rfl nrgkickCalls_held hfound heap false) loc values]
  simp only [nrgkick_member]
  exact stored_eq_value_iff enc reg

/-- The first wallbox of a run, after its large block was polled. -/
def polledWallbox (reg : ℕ → UInt16) : List Event :=
  [.startClient .nrgkick "wallbox" 502, .poll 0 ⟨0, deviceReply reg⟩]

/-- A wallbox that reports no error and allows 16 A. -/
theorem nrgkick_fields_idle :
    let w := run World.step .init (polledWallbox fun a => if a = 206 then 160 else 0)
    NrgkickValues.get (nrgkickGetValues Float32.toBits (worldReader w .nrgkick fun _ => 0) default fun _ => 0)
        .maxCurrentToEv =
      NrgkickMember.maxCurrentToEv.value (w.registers .nrgkick) Float32.toBits :=
  (nrgkick_fields_iff Float32.toBits _ _ (by decide +kernel) default fun _ => 0).mpr (by decide +kernel) _

/-- A wallbox with an error code that needs the high byte: the allowed current of zero is
stored as another number. -/
theorem nrgkick_fields_error :
    let w := run World.step .init (polledWallbox fun a => if a = 257 then 0x0100 else 0)
    ¬ ∀ x : NrgkickMember,
      NrgkickValues.get (nrgkickGetValues Float32.toBits (worldReader w .nrgkick fun _ => 0) default fun _ => 0) x =
        x.value (w.registers .nrgkick) Float32.toBits :=
  fun h => absurd (h .maxCurrentToEv) (by decide +kernel)

end ModbusProxy.Convert
