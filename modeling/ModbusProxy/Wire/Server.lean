import ModbusProxy.Poll.Registry
import ModbusProxy.Wire.Client

/-!
# The proxy server: what a request is answered

`handle_modbus_request` answers a function-3 request from the cache of the Huawei client,
through `modbus_tcp_get_poll_data_raw`. That lookup finds the block by the stored length
of its entry, which `polling_thread` stores in bytes and the lookup adds to a register
address. So every block looks twice as long as it is.

## The model

A request is the list of the bytes that one `read` returned, and the answer the list of
the bytes written, if any. `read` errors and disconnects end the thread and write
nothing; allocations are taken to succeed. A lookup that reads past the end of a cached
block returns what the heap holds there.

## What is proved

`transparent_iff`: for every reachable cache of every table, the raw reads of a range are
transparent (`Transparent`) exactly if no entry disturbs them (`Unobstructed`). For the
tables of the program, with no buffer lost, this says that each cached block that would
hold the range if it were twice as long holds it (`OnlyHolders`). Behind it stands the
equivalence with what the search of the lookup does (`transparent_iff_tight`).
-/

namespace ModbusProxy.Wire

open Memory ModbusProxy.Poll Runs

/-- `BUFFER_SIZE`: the most bytes that one `read` returns. -/
def bufferSize : ℕ := 256

/-- `modbus_tcp_poll_get_client_data_raw`. -/
def modbusTcpPollGetClientDataRaw (w : World) (type : PollType) (address length : UInt16) : Option Copy :=
  (w.findClient type).bind fun c => modbusTcpGetPollDataRaw c address length

/-- `*out_length`, a `uint16_t`. -/
def outLength (data : Copy) : UInt16 := UInt16.ofNat data.size

/-- The fields that `handle_modbus_request` reads from its buffer. -/
structure RequestFields where
  /-- `transaction_id`. -/
  transactionId : UInt16
  /-- `protocol_id`. -/
  protocolId : UInt16
  /-- `length`. -/
  length : UInt16
  /-- `unit_id`. -/
  unitId : UInt8
  /-- `function_code`. -/
  functionCode : UInt8
  /-- `start_address`. -/
  startAddress : UInt16
  /-- `quantity`. -/
  quantity : UInt16

/-- How `handle_modbus_request` reads the fields of a request. -/
def requestFields (buffer : List UInt8) : RequestFields where
  transactionId := be16 (buffer.getD 0 0) (buffer.getD 1 0)
  protocolId := be16 (buffer.getD 2 0) (buffer.getD 3 0)
  length := be16 (buffer.getD 4 0) (buffer.getD 5 0)
  unitId := buffer.getD 6 0
  functionCode := buffer.getD 7 0
  startAddress := be16 (buffer.getD 8 0) (buffer.getD 9 0)
  quantity := be16 (buffer.getD 10 0) (buffer.getD 11 0)

/-- The server reads from twelve bytes what `build_modbus_request` put in. -/
theorem requestFields_build (r : ModbusRequest) :
    requestFields (buildModbusRequest r) =
      { transactionId := r.transactionId, protocolId := 0, length := r.messageSize, unitId := r.unitId
        functionCode := r.functionCode, startAddress := r.startReg, quantity := r.numRegs } := by
  simp only [buildModbusRequest, requestFields, List.getD_cons_zero, List.getD_cons_succ, be16_hi_lo]
  rfl

/-- The answer with data: its length field counts three bytes and the data. -/
def response (heap : ℕ → UInt8) (buffer : List UInt8) (data : Copy) : List UInt8 :=
  let len := outLength data
  [buffer.getD 0 0, buffer.getD 1 0, 0x00, 0x00, UInt8.ofNat ((3 + len.toNat) >>> 8), UInt8.ofNat (3 + len.toNat),
    (requestFields buffer).unitId, (requestFields buffer).functionCode, UInt8.ofNat len.toNat] ++
      (data.bytes heap).take len.toNat

/-- The exception frame, `error_response`. -/
def errorResponse (buffer : List UInt8) : List UInt8 :=
  [buffer.getD 0 0, buffer.getD 1 0, 0x00, 0x00, 0x00, 0x03, (requestFields buffer).unitId,
    (requestFields buffer).functionCode ||| 0x80, 0x02]

/-- The frame for what the lookup returned. -/
def answer (heap : ℕ → UInt8) (buffer : List UInt8) : Option Copy → List UInt8
  | some data => response heap buffer data
  | none => errorResponse buffer

/-- `handle_modbus_request`, after its `read`: what it writes. -/
def handleModbusRequest (w : World) (heap : ℕ → UInt8) (buffer : List UInt8) : Option (List UInt8) :=
  if buffer.length < 12 then none
  else
    let fields := requestFields buffer
    if fields.protocolId ≠ 0 ∨ fields.functionCode ≠ 3 then none
    else some (answer heap buffer (modbusTcpPollGetClientDataRaw w .huawei fields.startAddress fields.quantity))

/-! ### Which requests are answered, and how -/

/-- A function-3 request for a range of registers, as the server reads it. -/
structure IsRequest (buffer : List UInt8) (address quantity : UInt16) : Prop where
  /-- It is long enough. -/
  long : 12 ≤ buffer.length
  /-- It is a Modbus request. -/
  protocol : (requestFields buffer).protocolId = 0
  /-- Its function code is that of a read of holding registers. -/
  function : (requestFields buffer).functionCode = 3
  /-- Its first register. -/
  start : (requestFields buffer).startAddress = address
  /-- How many registers. -/
  quantity : (requestFields buffer).quantity = quantity

theorem handle_eq {w : World} {heap : ℕ → UInt8} {buffer : List UInt8} {a q : UInt16} (h : IsRequest buffer a q) :
    handleModbusRequest w heap buffer = some (answer heap buffer (modbusTcpPollGetClientDataRaw w .huawei a q)) := by
  unfold handleModbusRequest
  rw [if_neg (by have := h.long; omega)]
  simp only [h.protocol, h.function, h.start, h.quantity, ne_eq, not_true, or_self, if_false]

/-- The function code of the frame tells a normal answer from an exception. -/
theorem handle_normal_iff {w : World} {heap : ℕ → UInt8} {buffer : List UInt8} {a q : UInt16}
    (h : IsRequest buffer a q) :
    (∃ frame, handleModbusRequest w heap buffer = some frame ∧ frame.getD 7 0 = 0x03) ↔
      (modbusTcpPollGetClientDataRaw w .huawei a q).isSome := by
  rw [handle_eq h]
  cases modbusTcpPollGetClientDataRaw w .huawei a q with
  | some data => simp [answer, response, h.function]
  | none =>
    simp only [answer, Option.some.injEq, exists_eq_left', Option.isSome_none, Bool.false_eq_true, iff_false]
    have hne : (3 : UInt8) ||| 0x80 ≠ 0x03 := by decide
    simpa [errorResponse, h.function] using hne

/-! ### Transparency -/

/-- Block `i` has cached data and holds the range, which is not empty. -/
structure Has (c : PollingClient) (a q : UInt16) (i : ℕ) : Prop where
  /-- It is a block of the client. -/
  block : i < c.numRegisters
  /-- It has cached data. -/
  cached : (c.pollData i).data.isSome
  /-- The range is not empty. -/
  pos : 0 < q.toNat
  /-- The block holds it. -/
  holds : (c.table.block i).Holds a q

/-- **Raw reads of the range `a, …, a + q - 1` are transparent.** -/
structure Transparent (c : PollingClient) (a q : UInt16) : Prop where
  /-- The lookup yields data exactly if one block has the range. -/
  answers : (modbusTcpGetPollDataRaw c a q).isSome ↔ ∃ i, Has c a q i
  /-- The server answers normally exactly if one block has the range. -/
  server : ∀ w heap buffer, w.findClient .huawei = some c → IsRequest buffer a q →
    ((∃ frame, handleModbusRequest w heap buffer = some frame ∧ frame.getD 7 0 = 0x03) ↔ ∃ i, Has c a q i)
  /-- The bytes are the cached bytes of those registers, and no others are read. -/
  bytes : ∀ m, modbusTcpGetPollDataRaw c a q = some m →
    ∃ i, Has c a q i ∧ (c.pollData i).data = some m.buf ∧ m.InBounds ∧ ∀ heap, m.bytes heap = cachedBytes c i a q

/-- Block `i` is the first that passes the test of the lookup, which takes the stored
number of bytes for a number of registers. -/
structure FirstReach (c : PollingClient) (a q : UInt16) (i : ℕ) : Prop where
  /-- It is a block of the client. -/
  block : i < c.numRegisters
  /-- It passes the test. -/
  reach : (c.pollData i).covers a q = true
  /-- No earlier block does. -/
  first : ∀ j < i, (c.pollData j).covers a q = false

/-- The test of the lookup does what the block's own length would do. -/
structure Tight (c : PollingClient) (a q : UInt16) : Prop where
  /-- If the first block that passes the test has data, then it holds the range. -/
  within : ∀ i, FirstReach c a q i → (c.pollData i).data.isSome → 0 < q.toNat ∧ (c.table.block i).Holds a q
  /-- A block that has the range is the first that passes the test. -/
  first : ∀ i, Has c a q i → FirstReach c a q i

theorem rawSearch_eq_some_iff_firstReach {c : PollingClient} {a q : UInt16} {i : ℕ} :
    rawSearch c a q = some i ↔ FirstReach c a q i := by
  rw [rawSearch_eq_some_iff]
  exact ⟨fun ⟨h1, h2, h3⟩ => ⟨h1, h2, h3⟩, fun ⟨h1, h2, h3⟩ => ⟨h1, h2, h3⟩⟩

/-- Transparency is transparency of the lookup; the server adds nothing. -/
theorem transparent_of_raw {c : PollingClient} {a q : UInt16}
    (hanswers : (modbusTcpGetPollDataRaw c a q).isSome ↔ ∃ i, Has c a q i)
    (hbytes : ∀ m, modbusTcpGetPollDataRaw c a q = some m → ∃ i, Has c a q i ∧
      (c.pollData i).data = some m.buf ∧ m.InBounds ∧ ∀ heap, m.bytes heap = cachedBytes c i a q) :
    Transparent c a q := by
  refine ⟨hanswers, fun w heap buffer hw hreq => ?_, hbytes⟩
  rw [handle_normal_iff hreq, modbusTcpPollGetClientDataRaw, hw]
  exact hanswers

section Reachable

variable {T : RegisterTable} {c : PollingClient} (hc : WellFormed T c) {a q : UInt16} {i : ℕ}

include hc

/-- The lookup yields data exactly if the first block that passes its test has data. -/
theorem raw_isSome_iff :
    (modbusTcpGetPollDataRaw c a q).isSome ↔ ∃ i, FirstReach c a q i ∧ (c.pollData i).data.isSome := by
  simp only [Option.isSome_iff_exists, raw_eq_some_iff hc, rawSearch_eq_some_iff_firstReach]
  constructor
  · rintro ⟨m, i, buf, hfirst, hdata, -⟩
    exact ⟨i, hfirst, buf, hdata⟩
  · rintro ⟨i, hfirst, buf, hdata⟩
    exact ⟨_, i, buf, hfirst, hdata, rfl⟩

/-- Where the lookup yields data, what it copies lies in the entry that it found if and
only if the range is empty or held by the block. -/
theorem raw_inBounds_iff (hfirst : FirstReach c a q i) {m : Copy} (hm : modbusTcpGetPollDataRaw c a q = some m) :
    (c.pollData i).data = some m.buf ∧ (m.InBounds ↔ q.toNat = 0 ∨ (c.table.block i).Holds a q) := by
  obtain ⟨k, buf, hk, hbuf, rfl⟩ := (raw_eq_some_iff hc).mp hm
  rw [rawSearch_eq_some_iff_firstReach.mpr hfirst, Option.some.injEq] at hk
  subst hk
  refine ⟨hbuf, ?_⟩
  obtain ⟨hi, hle, -⟩ := rawSearch_bounds hc (rawSearch_eq_some_iff_firstReach.mpr hfirst) hbuf
  have hlen := ((hc.entry i hi).data buf hbuf).1
  simp only [Copy.InBounds, Block.Holds, UInt16.le_iff_toNat_le, hc.table, hlen]
  omega

/-- A block found by the lookup that holds the range: its cached bytes are what is copied. -/
theorem raw_bytes (hfirst : FirstReach c a q i) {m : Copy} (hm : modbusTcpGetPollDataRaw c a q = some m)
    (hin : m.InBounds) (heap : ℕ → UInt8) : m.bytes heap = cachedBytes c i a q := by
  obtain ⟨k, buf, hk, hbuf, rfl⟩ := (raw_eq_some_iff hc).mp hm
  rw [rawSearch_eq_some_iff_firstReach.mpr hfirst, Option.some.injEq] at hk
  subst hk
  rw [Copy.bytes_of_inBounds heap hin, cachedBytes, hbuf, hc.table]
  rfl

theorem Tight.transparent (h : Tight c a q) : Transparent c a q := by
  have hhas : ∀ {i}, FirstReach c a q i → (c.pollData i).data.isSome → Has c a q i := fun hfirst hcached =>
    ⟨hfirst.block, hcached, (h.within _ hfirst hcached).1, (h.within _ hfirst hcached).2⟩
  refine transparent_of_raw ?_ fun m hm => ?_
  · rw [raw_isSome_iff hc]
    constructor
    · rintro ⟨i, hfirst, hcached⟩
      exact ⟨i, hhas hfirst hcached⟩
    · rintro ⟨i, hi⟩
      exact ⟨i, h.first i hi, hi.cached⟩
  · obtain ⟨i, hfirst, hcached⟩ := (raw_isSome_iff hc).mp (by rw [hm]; rfl)
    have hi := hhas hfirst hcached
    obtain ⟨hbuf, hin⟩ := raw_inBounds_iff hc hfirst hm
    have hin := hin.mpr (.inr hi.holds)
    exact ⟨i, hi, hbuf, hin, raw_bytes hc hfirst hm hin⟩

theorem Transparent.tight (h : Transparent c a q) : Tight c a q := by
  have hwithin : ∀ i, FirstReach c a q i → (c.pollData i).data.isSome →
      0 < q.toNat ∧ (c.table.block i).Holds a q := by
    intro i hfirst hcached
    obtain ⟨m, hm⟩ := Option.isSome_iff_exists.mp ((raw_isSome_iff hc).mpr ⟨i, hfirst, hcached⟩)
    obtain ⟨k, hk, -, hin, -⟩ := h.bytes m hm
    have hpos := hk.pos
    rcases (raw_inBounds_iff hc hfirst hm).2.mp hin with hzero | hholds
    · omega
    · exact ⟨hpos, hholds⟩
  refine ⟨hwithin, fun i hi => ?_⟩
  obtain ⟨k, hfirst, hcached⟩ := (raw_isSome_iff hc).mp (h.answers.mpr ⟨i, hi⟩)
  have hki : k = i := RegisterTable.holds_unique hfirst.block hi.block hi.pos (hwithin k hfirst hcached).2 hi.holds
  rwa [← hki]

end Reachable

/-- Transparency in the words of the search of the lookup. -/
theorem transparent_iff_tight {T : RegisterTable} {c : PollingClient} (hc : WellFormed T c) {a q : UInt16} :
    Transparent c a q ↔ Tight c a q :=
  ⟨fun h => h.tight hc, fun h => h.transparent hc⟩

/-! ### What the doubled lengths let through -/

/-- The range lies in the block, were it twice as long. -/
def Doubled (b : Block) (a q : UInt16) : Prop :=
  b.address.toNat ≤ a.toNat ∧ a.toNat + q.toNat ≤ b.address.toNat + 2 * b.length.toNat

instance (b : Block) (a q : UInt16) : Decidable (Doubled b a q) := inferInstanceAs (Decidable (_ ∧ _))

theorem Doubled.of_holds {b : Block} {a q : UInt16} (h : b.Holds a q) : Doubled b a q := by
  obtain ⟨h1, h2⟩ := h
  rw [UInt16.le_iff_toNat_le] at h1
  exact ⟨h1, by omega⟩

/-- Entry `i` admits the range: the block, were it as many registers long as bytes were
stored for it, would hold the range and end within 16 bits. -/
structure Admits (c : PollingClient) (a q : UInt16) (i : ℕ) : Prop where
  /-- It is a block of the client. -/
  block : i < c.numRegisters
  /-- The range begins in the block or behind it. -/
  start : (c.table.block i).address.toNat ≤ a.toNat
  /-- It ends no later than the stored length would reach. -/
  reach : a.toNat + q.toNat ≤ (c.table.block i).address.toNat + (c.pollData i).length.toNat
  /-- That end has 16 bits. -/
  inside : (c.table.block i).address.toNat + (c.pollData i).length.toNat < 65536

/-- **No entry disturbs the raw reads of the range.** Without lost buffers, and for the
tables of the program, `OnlyHolders` says the same. -/
structure Unobstructed (c : PollingClient) (a q : UInt16) : Prop where
  /-- A block with cached data that admits the range has it, or an earlier entry admits it. -/
  holds : ∀ i, (c.pollData i).data.isSome → Admits c a q i → Has c a q i ∨ ∃ j < i, Admits c a q j
  /-- A block that has the range admits it, and no earlier entry does. -/
  first : ∀ i, Has c a q i → Admits c a q i ∧ ∀ j < i, ¬ Admits c a q j

/-- Every block with cached data that would hold the range if it were twice as long holds
it as it is, and the range is not empty. -/
def OnlyHolders (c : PollingClient) (a q : UInt16) : Prop :=
  ∀ i < c.numRegisters, (c.pollData i).data.isSome → Doubled (c.table.block i) a q →
    0 < q.toNat ∧ (c.table.block i).Holds a q

/-- No buffer is lost: an entry that was stored has its data, as it is where every
allocation of `modbus_tcp_save_poll_data` succeeds. -/
def Kept (c : PollingClient) : Prop := ∀ i < c.numRegisters, (c.pollData i).length ≠ 0 → (c.pollData i).data.isSome

theorem Kept.fresh (T : RegisterTable) (counters : ℕ → UInt8) : Kept (.fresh T counters) :=
  fun _ _ h => absurd rfl h

/-- A store that gets its buffer loses none. -/
theorem Kept.save {c : PollingClient} (h : Kept c) {i : ℕ} (hi : i < c.numRegisters) (buf : List UInt8)
    (length : UInt16) : Kept (modbusTcpSavePollData c (c.table.block i).address buf length true) := by
  rw [save_eq c hi]
  intro j hj hlen
  by_cases hji : j = i
  · subst hji
    simp [PollData.store]
  · simp only [Function.update_of_ne hji] at hlen ⊢
    exact h j hj hlen

/-- Where an entry admits the range, one does so first. -/
theorem exists_first_admits {c : PollingClient} {a q : UInt16} {i : ℕ} (h : Admits c a q i) :
    ∃ f ≤ i, Admits c a q f ∧ ∀ j < f, ¬ Admits c a q j := by
  induction i using Nat.strong_induction_on with
  | _ i ih =>
    by_cases hearlier : ∃ j < i, Admits c a q j
    · obtain ⟨j, hj, hadmits⟩ := hearlier
      obtain ⟨f, hf, hfirst⟩ := ih j hj hadmits
      exact ⟨f, by omega, hfirst⟩
    · simp only [not_exists, not_and] at hearlier
      exact ⟨i, le_rfl, h, hearlier⟩

section Reachable

variable {T : RegisterTable} {c : PollingClient} (hc : WellFormed T c) {a q : UInt16} {i : ℕ}

include hc

/-- The test of the lookup, with its 16-bit sum, says that the entry admits the range. -/
theorem covers_iff_admits (hi : i < c.numRegisters) : (c.pollData i).covers a q = true ↔ Admits c a q i := by
  have haddr : (c.pollData i).address = (c.table.block i).address := by
    rw [PollingClient.numRegisters, hc.table] at hi
    rw [hc.table]
    exact (hc.entry i hi).address
  have hL := (c.pollData i).length.toNat_lt
  rw [covers_iff, UInt16.le_iff_toNat_le, UInt16.toNat_add, haddr]
  constructor
  · rintro ⟨h1, h2⟩
    exact ⟨hi, h1, by omega, by omega⟩
  · rintro ⟨-, h1, h2, h3⟩
    exact ⟨h1, by omega⟩

theorem firstReach_iff : FirstReach c a q i ↔ Admits c a q i ∧ ∀ j < i, ¬ Admits c a q j := by
  constructor
  · rintro ⟨hi, hreach, hfirst⟩
    refine ⟨(covers_iff_admits hc hi).mp hreach, fun j hj hadmits => ?_⟩
    have := (covers_iff_admits hc (Nat.lt_trans hj hi)).mpr hadmits
    rw [hfirst j hj] at this
    cases this
  · rintro ⟨hadmits, hfirst⟩
    refine ⟨hadmits.block, (covers_iff_admits hc hadmits.block).mpr hadmits, fun j hj => ?_⟩
    by_contra hcov
    rw [Bool.not_eq_false] at hcov
    exact hfirst j hj ((covers_iff_admits hc (Nat.lt_trans hj hadmits.block)).mp hcov)

theorem tight_iff_unobstructed : Tight c a q ↔ Unobstructed c a q := by
  constructor
  · intro h
    refine ⟨fun i hcached hadmits => ?_, fun i hi => (firstReach_iff hc).mp (h.first i hi)⟩
    by_cases hfirst : ∃ j < i, Admits c a q j
    · exact .inr hfirst
    · simp only [not_exists, not_and] at hfirst
      obtain ⟨hpos, hholds⟩ := h.within i ((firstReach_iff hc).mpr ⟨hadmits, hfirst⟩) hcached
      exact .inl ⟨hadmits.block, hcached, hpos, hholds⟩
  · intro h
    refine ⟨fun i hfirst hcached => ?_, fun i hi => (firstReach_iff hc).mpr (h.first i hi)⟩
    obtain ⟨hadmits, hnone⟩ := (firstReach_iff hc).mp hfirst
    rcases h.holds i hcached hadmits with hhas | ⟨j, hj, hadmits'⟩
    · exact ⟨hhas.pos, hhas.holds⟩
    · exact absurd hadmits' (hnone j hj)

/-- A block with cached data admits what its doubled range would hold. -/
theorem admits_iff_doubled (hi : i < c.numRegisters) (hcached : (c.pollData i).data.isSome)
    (hend : (c.table.block i).address.toNat + 2 * (c.table.block i).length.toNat < 65536) :
    Admits c a q i ↔ Doubled (c.table.block i) a q := by
  obtain ⟨buf, hbuf⟩ := Option.isSome_iff_exists.mp hcached
  have hlen : (c.pollData i).length.toNat = 2 * (c.table.block i).length.toNat := by
    have hi' := hi
    rw [PollingClient.numRegisters, hc.table] at hi'
    rw [hc.table]
    exact ((hc.entry i hi').data buf hbuf).2
  constructor
  · rintro ⟨-, h1, h2, -⟩
    exact ⟨h1, by omega⟩
  · rintro ⟨h1, h2⟩
    exact ⟨hi, h1, by omega, by omega⟩

end Reachable

/-- In the tables of the program every doubled block ends within 16 bits, and none reaches
a block that stands before it in the table. -/
theorem registers_doubled {type : PollType} {T : RegisterTable} (hT : type.registers? = some T) :
    ∀ i < T.size, (T.block i).address.toNat + 2 * (T.block i).length.toNat < 65536 ∧
      ∀ j < i, (T.block i).address.toNat < (T.block j).address.toNat →
        (T.block i).address.toNat + 2 * (T.block i).length.toNat < (T.block j).address.toNat := by
  cases type with
  | huawei => cases hT; decide
  | nrgkick => cases hT; decide
  | canEz3 => cases hT; decide
  | other value => cases hT

section Tables

variable {type : PollType} {T : RegisterTable} (hT : type.registers? = some T) {c : PollingClient}
  (hc : WellFormed T c)

include hT hc

theorem doubled_of_wellFormed {i : ℕ} (hi : i < c.numRegisters) :
    (c.table.block i).address.toNat + 2 * (c.table.block i).length.toNat < 65536 ∧
      ∀ j < i, (c.table.block i).address.toNat < (c.table.block j).address.toNat →
        (c.table.block i).address.toNat + 2 * (c.table.block i).length.toNat < (c.table.block j).address.toNat := by
  rw [PollingClient.numRegisters, hc.table] at hi
  rw [hc.table]
  exact registers_doubled hT i hi

variable (hkept : Kept c) {a q : UInt16}

include hkept

theorem OnlyHolders.unobstructed (h : OnlyHolders c a q) : Unobstructed c a q := by
  have hend := fun i (hi : i < c.numRegisters) => (doubled_of_wellFormed hT hc hi).1
  have hhas : ∀ i, (c.pollData i).data.isSome → Admits c a q i → Has c a q i := by
    intro i hcached hadmits
    obtain ⟨hpos, hholds⟩ := h i hadmits.block hcached
      ((admits_iff_doubled hc hadmits.block hcached (hend i hadmits.block)).mp hadmits)
    exact ⟨hadmits.block, hcached, hpos, hholds⟩
  refine ⟨fun i hcached hadmits => .inl (hhas i hcached hadmits), fun i hi => ⟨?_, fun j hj hadmits => ?_⟩⟩
  · exact (admits_iff_doubled hc hi.block hi.cached (hend i hi.block)).mpr (.of_holds hi.holds)
  · -- an earlier entry that admits the range was stored, so its block has the range too
    have hpos := hi.pos
    have hstored : (c.pollData j).length ≠ 0 := by
      intro hzero
      have h1 := hadmits.start
      have h2 := hadmits.reach
      rw [hzero, UInt16.toNat_zero] at h2
      omega
    have hj' := hhas j (hkept j hadmits.block hstored) hadmits
    exact Nat.ne_of_lt hj (RegisterTable.holds_unique hj'.block hi.block hi.pos hj'.holds hi.holds)

theorem Unobstructed.onlyHolders (h : Unobstructed c a q) : OnlyHolders c a q := by
  intro i hi hcached hdoubled
  obtain ⟨hend, hback⟩ := doubled_of_wellFormed hT hc hi
  obtain ⟨f, hfi, hadmits, hnone⟩ := exists_first_admits ((admits_iff_doubled hc hi hcached hend).mpr hdoubled)
  obtain ⟨h1, h2⟩ := hdoubled
  have h1' := hadmits.start
  -- a first entry before block `i` does not begin behind it, for the range is no farther
  have hfar : f < i → (c.table.block f).address.toNat ≤ (c.table.block i).address.toNat := by
    intro hlt
    by_contra hgt
    have := hback f hlt (by omega)
    omega
  by_cases hdata : (c.pollData f).data.isSome
  · have hhas : Has c a q f := by
      rcases h.holds f hdata hadmits with hhas | ⟨j, hj, hadmits'⟩
      · exact hhas
      · exact absurd hadmits' (hnone j hj)
    rcases Nat.lt_or_eq_of_le hfi with hlt | rfl
    · have hle := hfar hlt
      obtain ⟨-, hholds⟩ := hhas.holds
      have hpos := hhas.pos
      have hposi := RegisterTable.length_pos hi
      rcases RegisterTable.block_apart hhas.block hi (Nat.ne_of_lt hlt) with hapart | hapart <;> omega
    · exact ⟨hhas.pos, hhas.holds⟩
  · -- an entry never stored admits the empty range at its address only
    have hempty : (c.pollData f).length = 0 := by
      by_contra hne
      exact hdata (hkept f hadmits.block hne)
    have h2' := hadmits.reach
    rw [hempty, UInt16.toNat_zero] at h2'
    rcases Nat.lt_or_eq_of_le hfi with hlt | rfl
    · have hle := hfar hlt
      have haddr := RegisterTable.address_inj hadmits.block hi (UInt16.toNat_inj.mp (by omega))
      omega
    · exact absurd hcached hdata

end Tables

/-- Where every allocation succeeds, the polls of a client lose no buffer. -/
theorem kept_polls {T : RegisterTable} (counters : ℕ → UInt8) (evs : List (PollEvent T))
    (halloc : ∀ e ∈ evs, e.reply.mallocOk = true) : Kept (run pollStep (.fresh T counters) evs) := by
  induction evs using List.reverseRecOn with
  | nil => exact .fresh T counters
  | append_singleton evs e ih =>
    have hkept := ih fun e' he' => halloc e' (List.mem_append_left _ he')
    have hok := halloc e (by simp)
    have htable := ((Reachable.start (T := T) counters).polls evs).wellFormed.table
    have hi : (e.block : ℕ) < (run pollStep (.fresh T counters) evs).numRegisters := by
      rw [PollingClient.numRegisters, htable]
      exact e.block.2
    rw [run_concat]
    generalize run pollStep (.fresh T counters) evs = c at hkept hi ⊢
    -- the counters do not matter
    have hsave : ∀ counters' buf length, Kept (modbusTcpSavePollData { c with numFailedRequests := counters' }
        (c.table.block e.block).address buf length true) := fun counters' buf length =>
      Kept.save (c := { c with numFailedRequests := counters' }) hkept hi buf length
    unfold pollStep pollBlock
    rw [hok]
    cases e.reply.payload with
    | some p => exact hsave _ _ _
    | none =>
      simp only
      split
      · exact hkept
      · exact hsave _ _ _

/-- **Transparency, exactly.** In every reachable cache of a client, the raw reads of a
range are transparent if and only if no entry disturbs them. In the tables of the program,
with no buffer lost, that is: every cached block that would hold the range if it were twice
as long holds it, and the range is not empty if there is one. -/
theorem transparent_iff (T : RegisterTable) (c : PollingClient) (hc : Reachable T c) (a q : UInt16) :
    (Transparent c a q ↔ Unobstructed c a q) ∧
      ((∃ type : PollType, type.registers? = some T) → Kept c → (Transparent c a q ↔ OnlyHolders c a q)) := by
  have hwf := hc.wellFormed
  have hclear : Transparent c a q ↔ Unobstructed c a q :=
    (transparent_iff_tight hwf).trans (tight_iff_unobstructed hwf)
  refine ⟨hclear, fun ⟨type, hT⟩ hkept => hclear.trans ⟨?_, ?_⟩⟩
  · exact fun h => h.onlyHolders hT hwf hkept
  · exact fun h => h.unobstructed hT hwf hkept

/-- Two registers of the meter block at 37100 are read transparently, until the block at
37000 is polled as well. -/
theorem transparent_meter :
    let meter : PollEvent huaweiRegisters :=
      ⟨(4 : Fin 8), some (List.replicate 76 7), (by rintro p hp; cases hp; rfl), true⟩
    let battery : PollEvent huaweiRegisters :=
      ⟨(3 : Fin 8), some (List.replicate 124 9), (by rintro p hp; cases hp; rfl), true⟩
    Transparent (run pollStep (.fresh huaweiRegisters fun _ => 0) [meter]) 37105 2 ∧
      ¬ Transparent (run pollStep (.fresh huaweiRegisters fun _ => 0) [meter, battery]) 37105 2 := by
  intro meter battery
  have hreach : ∀ evs, Reachable huaweiRegisters (run pollStep (.fresh huaweiRegisters fun _ => 0) evs) :=
    fun evs => (Reachable.start _).polls evs
  have hhuawei : ∃ type : PollType, type.registers? = some huaweiRegisters := ⟨.huawei, rfl⟩
  constructor
  · have hkept := kept_polls (fun _ => 0) [meter] (by simp [meter])
    rw [(transparent_iff huaweiRegisters _ (hreach [meter]) 37105 2).2 hhuawei hkept]
    unfold OnlyHolders
    decide
  · have hkept := kept_polls (fun _ => 0) [meter, battery] (by simp [meter, battery])
    rw [(transparent_iff huaweiRegisters _ (hreach [meter, battery]) 37105 2).2 hhuawei hkept]
    unfold OnlyHolders
    decide

/-- A Huawei client whose block of one register, the working mode, has been polled. -/
def polledHuawei : PollingClient := modbusTcpSavePollData (.fresh huaweiRegisters fun _ => 0) 47000 [0, 5] 2 true

theorem reachable_polledHuawei : Reachable huaweiRegisters polledHuawei :=
  (Reachable.start fun _ => 0).save (i := 6) true (by decide) (by decide)

/-- A read of two registers from a block of one is answered, with bytes of the heap. -/
theorem not_transparent :
    ¬ ∀ (T : RegisterTable) (c : PollingClient), Reachable T c → ∀ a q, Transparent c a q := by
  intro h
  have htrans := h huaweiRegisters polledHuawei reachable_polledHuawei 47000 2
  obtain ⟨i, hi⟩ := htrans.answers.mp (by decide)
  have hnone : ∀ i < 8, ¬ (huaweiRegisters.block i).Holds 47000 2 := by decide
  exact hnone i hi.block hi.holds

end ModbusProxy.Wire
