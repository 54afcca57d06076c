import ModbusProxy.Convert.CanEz3
import ModbusProxy.Convert.Huawei
import ModbusProxy.Convert.Nrgkick

/-!
# Converters as functions of the cache

`modbus_tcp_get_poll_data` clears the variable where nothing is cached, but it is
`modbus_tcp_poll_get_client_data` that the converters call, and where that finds no client
it does not get so far: the variable keeps what it had.

## What is proved

`converters_defined_iff`: in every state of the registry each converter, and each lookup,
gives a result that depends on nothing but the cached registers exactly if the
registry has a client to find.
-/

namespace ModbusProxy.Convert

open Memory Endian Layout Poll Runs

/-- The results do not depend on what there was before. -/
def Determined {α β : Type} (f : α → β) : Prop := ∀ x y, f x = f y

/-- What was there before a call of a converter: the heap, the local variables and the
structure. -/
abbrev Before (L V : Type) : Type := (ℕ → UInt8) × L × V

theorem determined_of_eq {α β : Type} {f : α → β} {y : β} (h : ∀ x, f x = y) : Determined f :=
  fun x x' => (h x).trans (h x').symm

theorem not_determined {α β γ : Type} {f : α → β} (g : β → γ) (x x' : α) (h : g (f x) ≠ g (f x')) : ¬ Determined f :=
  fun hf => h (congrArg g (hf x x'))

/-! ### Lookups -/

/-- A lookup of a client writes all of its `2 * length` bytes, whatever the heap holds. -/
theorem getPollData_writes {T : RegisterTable} {c : PollingClient} (hc : WellFormed T c) (a q : UInt16)
    (bigEndian : Bool) :
    ∃ data, data.length = 2 * q.toNat ∧
      ∀ heap out, modbusTcpGetPollData heap c a q bigEndian out = overwrite out data := by
  by_cases hdata : ∃ i < T.size, (T.block i).Holds a q ∧ (c.pollData i).data ≠ none
  · obtain ⟨i, hi, hholds, -⟩ := hdata
    rcases Nat.eq_zero_or_pos q.toNat with hq | hq
    · refine ⟨[], by rw [hq]; rfl, fun heap out => ?_⟩
      obtain rfl : q = 0 := UInt16.toNat_inj.mp hq
      unfold modbusTcpGetPollData
      split
      · rfl
      · split
        · rfl
        · cases bigEndian <;> rfl
    · exact ⟨_, length_hostBytes _ _ _, fun heap out => typed_eq_registers hc hq hi hholds heap bigEndian out⟩
  · refine ⟨List.replicate (2 * q.toNat) 0, List.length_replicate, fun heap out => ?_⟩
    refine typed_eq_zeros hc (fun i hi hholds => ?_) heap bigEndian out
    by_contra hsome
    exact hdata ⟨i, hi, hholds, hsome⟩

/-- A buffer of `2 * length` bytes. -/
abbrev Buffer (length : UInt16) : Type := { out : List UInt8 // out.length = 2 * length.toNat }

/-- Lookups are determined exactly if there is a client. -/
theorem lookup_determined_iff (evs : List Event) (type : PollType) :
    (∀ a q bigEndian, Determined fun b : (ℕ → UInt8) × Buffer q =>
      modbusTcpPollGetClientData b.1 (run World.step .init evs) type a q bigEndian b.2.val) ↔
      ((run World.step .init evs).findClient type).isSome = true := by
  cases hfind : (run World.step .init evs).findClient type with
  | none =>
    refine iff_of_false (fun h => ?_) (by simp)
    have hsame := h 0 1 false (fun _ => 0, ⟨[0, 0], rfl⟩) (fun _ => 0, ⟨[1, 1], rfl⟩)
    simp [modbusTcpPollGetClientData, hfind] at hsame
  | some c =>
    refine iff_of_true (fun a q bigEndian => ?_) rfl
    obtain ⟨T, -, hreach⟩ := findClient_reachable evs type hfind
    obtain ⟨data, hlen, hdata⟩ := getPollData_writes hreach.wellFormed a q bigEndian
    refine determined_of_eq (y := data) fun b => ?_
    simp only [modbusTcpPollGetClientData, hfind, hdata]
    exact overwrite_of_length_eq (by rw [b.2.property, hlen])

/-! ### Converters -/

section Converters

variable (enc : Float32 → UInt32) (w : World)

/-- `huawei_get_values` in a world. -/
def huaweiIn (b : Before HuaweiLocals PvValues) : PvValues :=
  huaweiGetValues (worldReader w .huawei b.1) b.2.1 b.2.2

/-- `nrgkick_get_values` in a world. -/
def nrgkickIn (b : Before NrgkickLocals NrgkickValues) : NrgkickValues :=
  nrgkickGetValues enc (worldReader w .nrgkick b.1) b.2.1 b.2.2

/-- `can_ez3_get_values` in a world. -/
def canEz3In (b : Before CanEz3Locals CanEz3Values) : CanEz3Values :=
  canEz3GetValues (worldReader w .canEz3 b.1) b.2.1 b.2.2

/-- What `nrgkick_get_values` makes of registers. -/
def nrgkickOf (reg : ℕ → UInt16) : NrgkickValues :=
  nrgkickGetValues enc (registerReader reg) default fun _ => 0

/-- On registers, every byte of the structure is assigned from them. -/
theorem nrgkickGetValues_eq_of (reg : ℕ → UInt16) (loc : NrgkickLocals) (values : NrgkickValues) :
    nrgkickGetValues enc (registerReader reg) loc values = nrgkickOf enc reg :=
  NrgkickValues.ext fun x => by rw [nrgkickOf, nrgkick_member, nrgkick_member]

end Converters

section Found

variable (evs : List Event)

theorem huaweiIn_eq (hfound : ((run World.step .init evs).findClient .huawei).isSome = true)
    (b : Before HuaweiLocals PvValues) :
    huaweiIn (run World.step .init evs) b = huaweiOf ((run World.step .init evs).registers .huawei) := by
  rw [huaweiIn, huaweiGetValues_congr (reader_eq evs rfl huaweiCalls_held hfound b.1 true), huaweiGetValues_eq]

theorem nrgkickIn_eq (enc : Float32 → UInt32)
    (hfound : ((run World.step .init evs).findClient .nrgkick).isSome = true) (b : Before NrgkickLocals NrgkickValues) :
    nrgkickIn enc (run World.step .init evs) b = nrgkickOf enc ((run World.step .init evs).registers .nrgkick) := by
  rw [nrgkickIn, nrgkickGetValues_congr enc (reader_eq evs rfl nrgkickCalls_held hfound b.1 false),
    nrgkickGetValues_eq_of]

theorem canEz3In_eq (hfound : ((run World.step .init evs).findClient .canEz3).isSome = true)
    (b : Before CanEz3Locals CanEz3Values) :
    canEz3In (run World.step .init evs) b = canEz3Of ((run World.step .init evs).registers .canEz3) := by
  rw [canEz3In, canEz3GetValues_congr (reader_eq evs rfl canEz3Calls_held hfound b.1 true), canEz3GetValues_eq]

end Found

section Missing

variable {w : World}

/-- With no inverter the direct-current power is what it was. -/
theorem huaweiIn_missing (hmissing : w.findClient .huawei = none) (b : Before HuaweiLocals PvValues) :
    (huaweiIn w b).inverter.pvDcW = b.2.2.inverter.pvDcW :=
  read_missing hmissing b.1 4 32064 2 true _

/-- With no wallbox the charged energy is what it was. -/
theorem nrgkickIn_missing (enc : Float32 → UInt32) (hmissing : w.findClient .nrgkick = none)
    (b : Before NrgkickLocals NrgkickValues) :
    NrgkickValues.get (nrgkickIn enc w b) .chargedEnergy = NrgkickValues.get b.2.2 .chargedEnergy := by
  have hfill (v : NrgkickValues) (x : NrgkickMember) (size call : ℕ) (a q : UInt16) :
      NrgkickValues.fill (worldReader w .nrgkick b.1) v x size call a q =
        NrgkickValues.set v x (load v x.offset size) := by
    rw [NrgkickValues.fill, reader_missing hmissing]
  have hapart (v : NrgkickValues) (x y : NrgkickMember) (size : ℕ)
      (h : y.offset + y.size ≤ x.offset ∨ x.offset + size ≤ y.offset) :
      NrgkickValues.get (NrgkickValues.set v x (load v x.offset size)) y = NrgkickValues.get v y :=
    get_set_of_apart v (by rw [length_load]; exact h)
  have hself (v : NrgkickValues) : NrgkickValues.get
      (NrgkickValues.set v .chargedEnergy (load v NrgkickMember.chargedEnergy.offset 4)) .chargedEnergy =
        NrgkickValues.get v .chargedEnergy :=
    load_store v (by rw [length_load]; decide) (length_load _ _ _)
  simp (disch := decide) only [nrgkickIn, nrgkickGetValues, nrgkickPhase, List.foldl_cons, List.foldl_nil, hfill,
    get_assign_of_apart, hapart, hself]

/-- With no boiler the status is what it was. -/
theorem canEz3In_missing (hmissing : w.findClient .canEz3 = none) (b : Before CanEz3Locals CanEz3Values) :
    (canEz3In w b).slStatus = b.2.2.slStatus :=
  read_missing hmissing b.1 3 4 1 true _

/-- A converter that leaves a member as it was where there is no client is determined only
where there is one. -/
theorem found_of_determined {L V M : Type} {convert : Before L V → V} {type : PollType} (member : V → M)
    (hmissing : w.findClient type = none → ∀ b, member (convert b) = member b.2.2) (b b' : Before L V)
    (hdiffer : member b.2.2 ≠ member b'.2.2) (h : Determined convert) : (w.findClient type).isSome = true := by
  by_contra hnone
  rw [Option.not_isSome_iff_eq_none] at hnone
  have hmember := congrArg member (h b b')
  rw [hmissing hnone, hmissing hnone] at hmember
  exact hdiffer hmember

end Missing

/-- **Converters are functions of the cache** exactly as far as there are clients: in every
state of the registry, the lookups for a type define what they write, and each converter
defines its structure, exactly if the registry has a client of the type; then the
structure is the one that the cached registers of that client make. -/
theorem converters_defined_iff (enc : Float32 → UInt32) (evs : List Event) :
    let w := run World.step .init evs
    (∀ type, (∀ a q bigEndian, Determined fun b : (ℕ → UInt8) × Buffer q =>
        modbusTcpPollGetClientData b.1 w type a q bigEndian b.2.val) ↔ (w.findClient type).isSome = true) ∧
      (Determined (huaweiIn w) ↔ (w.findClient .huawei).isSome = true) ∧
      (Determined (nrgkickIn enc w) ↔ (w.findClient .nrgkick).isSome = true) ∧
      (Determined (canEz3In w) ↔ (w.findClient .canEz3).isSome = true) ∧
      ((w.findClient .huawei).isSome = true → ∀ b, huaweiIn w b = huaweiOf (w.registers .huawei)) ∧
      ((w.findClient .nrgkick).isSome = true → ∀ b, nrgkickIn enc w b = nrgkickOf enc (w.registers .nrgkick)) ∧
      ((w.findClient .canEz3).isSome = true → ∀ b, canEz3In w b = canEz3Of (w.registers .canEz3)) := by
  intro w
  refine ⟨lookup_determined_iff evs, ⟨fun h => ?_, fun h => determined_of_eq (huaweiIn_eq evs h)⟩,
    ⟨fun h => ?_, fun h => determined_of_eq (nrgkickIn_eq evs enc h)⟩,
    ⟨fun h => ?_, fun h => determined_of_eq (canEz3In_eq evs h)⟩, huaweiIn_eq evs, nrgkickIn_eq evs enc,
    canEz3In_eq evs⟩
  · let values (x : Int32) : PvValues := { (default : PvValues) with inverter.pvDcW := x }
    exact found_of_determined (fun v => v.inverter.pvDcW) huaweiIn_missing (fun _ => 0, default, values 0)
      (fun _ => 0, default, values 1) (by decide) h
  · exact found_of_determined (fun v => NrgkickValues.get v .chargedEnergy) (nrgkickIn_missing enc)
      (fun _ => 0, default, fun _ => 0) (fun _ => 0, default, fun _ => 1) (by decide) h
  · let values (x : UInt16) : CanEz3Values := { (default : CanEz3Values) with slStatus := x }
    exact found_of_determined (fun v => v.slStatus) canEz3In_missing (fun _ => 0, default, values 0)
      (fun _ => 0, default, values 1) (by decide) h

/-- Once the boiler's client is stopped, the status is whatever was in the structure. -/
theorem converters_undefined_after_stop :
    let w := run World.step .init [.startClient .canEz3 "boiler" 502, .stopClient .canEz3]
    ¬ Determined (canEz3In w) ∧
      ¬ Determined fun b : (ℕ → UInt8) × Buffer 1 => modbusTcpPollGetClientData b.1 w .canEz3 4 1 true b.2.val :=
  ⟨not_determined (fun v => v.slStatus) (fun _ => 0, default, ⟨default, default, 0, 0⟩)
      (fun _ => 0, default, ⟨default, default, 0, 1⟩) (by decide +kernel),
    not_determined id (fun _ => 0, ⟨[0, 0], rfl⟩) (fun _ => 0, ⟨[1, 1], rfl⟩) (by decide +kernel)⟩

end ModbusProxy.Convert
