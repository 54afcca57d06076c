import ModbusProxy.Poll.Typed

/-!
# Readers

A converter fills a structure by a sequence of calls of `modbus_tcp_poll_get_client_data`,
each into a variable or a member of the structure. What a call writes depends on the
registry and the caches at that time, and what it leaves alone depends on the variable.

## The model

A `Reader` is what the calls do, in the order in which a converter makes them: the bytes
of the variable after the call, from its bytes before. For a converter that runs while
nothing else does, every call reads the same world (`worldReader`). A `float` is a
`Float32`, and `(float) x` of an integer rounds to the nearest one. `isnan` of an
integer is false, so the branches for it are left out.

## What is proved

A call for a range that one block holds reads the cached registers of the client that is
found, and only if one is found does it write anything (`reader_eq`, `reader_missing`).
-/

namespace ModbusProxy.Convert

open Memory Endian Poll Runs

/-! ### Numbers -/

/-- `(float) x`. -/
def float (x : ℤ) : Float32 := Float32.ofInt x

/-- `(int32_t) x` of a `float`, towards zero. -/
def toInt32 (x : Float32) : Int32 := if x < 0 then -(-x).toUInt32.toInt32 else x.toUInt32.toInt32

/-- There are phases, so that arrays with an element for each are indexed from `0`. -/
instance neZero_phases : NeZero 3 := ⟨by decide⟩

/-! ### Readers -/

/-- What the calls of `modbus_tcp_poll_get_client_data` do, by their number, the address,
the length, `big_endian`, and the bytes of the variable. -/
def Reader : Type := ℕ → UInt16 → UInt16 → Bool → List UInt8 → List UInt8

/-- A call for a variable of some type. -/
def Reader.read {α : Type} [Stored α] (r : Reader) (call : ℕ) (address length : UInt16) (bigEndian : Bool) (x : α) :
    α :=
  ofBytes (r call address length bigEndian (toBytes x))

/-- Every call finds the same world. -/
def worldReader (w : World) (type : PollType) (heap : ℕ → UInt8) : Reader :=
  fun _ address length bigEndian data => modbusTcpPollGetClientData heap w type address length bigEndian data

/-- The calls of a converter between which the cache of its client changes. -/
def clientReader (c : ℕ → PollingClient) (heap : ℕ → UInt8) : Reader :=
  fun call address length bigEndian data => modbusTcpGetPollData heap (c call) address length bigEndian data

/-- Every call reads the given registers. -/
def registerReader (reg : ℕ → UInt16) : Reader :=
  fun _ address length bigEndian data =>
    overwrite data (hostBytes bigEndian length.toNat fun k => reg (address.toNat + k))

/-- A call for a range of registers. -/
structure Call where
  /-- Its number. -/
  number : ℕ
  /-- The first register. -/
  address : UInt16
  /-- How many registers. -/
  length : UInt16
  deriving DecidableEq

/-- Two readers do the same in the given calls. -/
def Reader.AgreeOn (r r' : Reader) (bigEndian : Bool) (calls : List Call) : Prop :=
  ∀ p ∈ calls, ∀ data, r p.number p.address p.length bigEndian data = r' p.number p.address p.length bigEndian data

/-- Every call is for a nonempty range that one block of the table holds. -/
def HeldBy (T : RegisterTable) (calls : List Call) : Prop :=
  ∀ p ∈ calls, 0 < p.length.toNat ∧ ∃ i < T.size, (T.block i).Holds p.address p.length

instance (T : RegisterTable) (calls : List Call) : Decidable (HeldBy T calls) :=
  inferInstanceAs (Decidable (∀ _ ∈ _, _ ∧ ∃ i < T.size, _))

theorem clientReader_eq {T : RegisterTable} {calls : List Call} (hcalls : HeldBy T calls) {c : PollingClient}
    (hc : WellFormed T c) (heap : ℕ → UInt8) (bigEndian : Bool) :
    (clientReader (fun _ => c) heap).AgreeOn (registerReader c.register) bigEndian calls := by
  intro p hp data
  obtain ⟨hq, i, hi, hholds⟩ := hcalls p hp
  exact typed_eq_registers hc hq hi hholds heap bigEndian data

/-- **Calls that find a client** read its cached registers. -/
theorem reader_eq (evs : List Event) {type : PollType} {T : RegisterTable} (htype : type.registers? = some T)
    {calls : List Call} (hcalls : HeldBy T calls)
    (hfound : ((run World.step .init evs).findClient type).isSome = true) (heap : ℕ → UInt8) (bigEndian : Bool) :
    (worldReader (run World.step .init evs) type heap).AgreeOn
      (registerReader ((run World.step .init evs).registers type)) bigEndian calls := by
  obtain ⟨c, hc⟩ := Option.isSome_iff_exists.mp hfound
  obtain ⟨T', htype', hreach⟩ := findClient_reachable evs type hc
  obtain rfl := Option.some.inj (htype.symm.trans htype')
  intro p hp data
  have hread := clientReader_eq hcalls hreach.wellFormed heap bigEndian p hp data
  simp only [worldReader, modbusTcpPollGetClientData, hc, World.registers]
  exact hread

/-- **Calls that find no client** write nothing. -/
theorem reader_missing {w : World} {type : PollType} (hmissing : w.findClient type = none) (heap : ℕ → UInt8) (call : ℕ)
    (address length : UInt16) (bigEndian : Bool) (data : List UInt8) :
    worldReader w type heap call address length bigEndian data = data := by
  simp only [worldReader, modbusTcpPollGetClientData, hmissing]

theorem read_missing {w : World} {type : PollType} (hmissing : w.findClient type = none) (heap : ℕ → UInt8) (call : ℕ)
    (address length : UInt16) (bigEndian : Bool) {α : Type} [Stored α] (x : α) :
    (worldReader w type heap).read call address length bigEndian x = x := by
  rw [Reader.read, reader_missing hmissing, ofBytes_toBytes]

/-! ### Registers as numbers -/

section Numbers

variable (reg : ℕ → UInt16)

/-- Two registers as one number, the first the most significant. -/
def u32 (a : ℕ) : UInt32 := UInt32.ofNat (65536 * (reg a).toNat + (reg (a + 1)).toNat)

/-- Two registers as one number, the first the least significant. -/
def u32Low (a : ℕ) : UInt32 := UInt32.ofNat ((reg a).toNat + 65536 * (reg (a + 1)).toNat)

/-- A variable as large as the registers is overwritten whole. -/
theorem read_registerReader {α : Type} [Stored α] {length : UInt16} (hsize : Stored.size α = 2 * length.toNat)
    (call : ℕ) (address : UInt16) (bigEndian : Bool) (x : α) :
    (registerReader reg).read call address length bigEndian x =
      ofBytes (hostBytes bigEndian length.toNat fun k => reg (address.toNat + k)) := by
  rw [Reader.read, registerReader, overwrite_of_length_eq (by rw [length_toBytes, hsize, length_hostBytes])]

theorem leValue_word (x : UInt16) : leValue [lo x, hi x] = x.toNat := by
  rw [leValue_cons, leValue_cons, leValue_nil, toNat_lo, toNat_hi]
  omega

theorem ofBytes_word (bigEndian : Bool) (f : ℕ → UInt16) : (ofBytes (hostBytes bigEndian 1 f) : UInt16) = f 0 := by
  have hbytes : hostBytes bigEndian 1 f = [lo (f 0), hi (f 0)] := by cases bigEndian <;> rfl
  rw [hbytes]
  simp only [ofBytes, leValue_word, UInt16.ofNat_toNat]

theorem leWords_two (f : ℕ → UInt16) : hostBytes false 2 f = leBytes 4 ((f 0).toNat + 65536 * (f 1).toNat) := by
  have hsum := hostBytes_eq false 2 f
  simpa [Finset.sum_range_succ, Nat.mul_comm 65536] using hsum

theorem ofBytes_words (f : ℕ → UInt16) :
    (ofBytes (hostBytes true 2 f) : UInt32) = UInt32.ofNat (65536 * (f 0).toNat + (f 1).toNat) := by
  have hbytes : hostBytes true 2 f = [lo (f 1), hi (f 1), lo (f 0), hi (f 0)] := rfl
  rw [hbytes]
  simp only [ofBytes, leValue_cons, leValue_nil, toNat_lo, toNat_hi]
  congr 1
  omega

/-- A `uint16_t` variable. -/
@[simp] theorem read_uint16 (call : ℕ) (address : UInt16) (bigEndian : Bool) (x : UInt16) :
    (registerReader reg).read call address 1 bigEndian x = reg address.toNat := by
  rw [read_registerReader reg (by rfl)]
  exact ofBytes_word bigEndian _

/-- An `int16_t` variable. -/
@[simp] theorem read_int16 (call : ℕ) (address : UInt16) (bigEndian : Bool) (x : Int16) :
    (registerReader reg).read call address 1 bigEndian x = (reg address.toNat).toInt16 := by
  rw [read_registerReader reg (by rfl)]
  exact congrArg UInt16.toInt16 (ofBytes_word bigEndian _)

/-- A `uint32_t` variable, read with `big_endian`. -/
@[simp] theorem read_uint32 (call : ℕ) (address : UInt16) (x : UInt32) :
    (registerReader reg).read call address 2 true x = u32 reg address.toNat := by
  rw [read_registerReader reg (by rfl)]
  exact ofBytes_words _

/-- An `int32_t` variable, read with `big_endian`. -/
@[simp] theorem read_int32 (call : ℕ) (address : UInt16) (x : Int32) :
    (registerReader reg).read call address 2 true x = (u32 reg address.toNat).toInt32 := by
  rw [read_registerReader reg (by rfl)]
  exact congrArg UInt32.toInt32 (ofBytes_words _)

/-- An `int32_t` variable, read without `big_endian`. -/
@[simp] theorem read_int32_low (call : ℕ) (address : UInt16) (x : Int32) :
    (registerReader reg).read call address 2 false x = (u32Low reg address.toNat).toInt32 := by
  rw [read_registerReader reg (by rfl), show (2 : UInt16).toNat = 2 from rfl, leWords_two]
  simp only [ofBytes, leValue_leBytes, u32Low, Nat.add_zero]
  congr 2
  have h0 := (reg address.toNat).toNat_lt
  have h1 := (reg (address.toNat + 1)).toNat_lt
  omega

end Numbers

end ModbusProxy.Convert
