import Mathlib.Logic.Function.Basic
import ModbusProxy.Library.Memory
import ModbusProxy.Poll.Table
import ModbusProxy.System

/-!
# The cache of a polling client

Each polling client keeps, for every block of its table, the bytes of the last poll
(`poll_data_t`). The polling thread stores them (`modbus_tcp_save_poll_data`); the
proxy server reads them raw (`modbus_tcp_get_poll_data_raw`) and the converters read
them as numbers (`modbus_tcp_get_poll_data`).

## The model

The two arrays of a client, `registers` and `poll_data`, are indexed by the number of
the block. A search `for (i = 0; i < num_registers; i++) if (...) { ...; break; }` is
`find?` on the list of the indices. 16-bit sums wrap as in C (`end_address`), while
`address + length` is an `int`. The allocations of the lookups are taken to succeed;
that of `modbus_tcp_save_poll_data` may fail (`mallocOk`).

## What is proved

The states that the calls of `polling_thread` reach (`Reachable`) are well formed
(`Reachable.wellFormed`): an entry without data has a stored length of zero or of
`2 * length` (after a failed allocation), one with data has `2 * length` bytes and
says so. What a raw read finds is described by `raw_eq_some_iff`; a typed read of a
range that a block holds goes to the entry of that block (`typed_of_holds`) and copies
the bytes of that range (`mem_typedBytes`).
-/

namespace ModbusProxy.Poll

open Memory ModbusProxy.System

/-- `poll_data_t`: the cached bytes of a block. -/
@[ext]
structure PollData where
  /-- The allocated bytes, if any. -/
  data : Option (List UInt8)
  /-- How many bytes were stored last. -/
  length : UInt16
  /-- The first register of the block. -/
  address : UInt16
  deriving DecidableEq

/-- What a polling client works on: its table with the counters of failed requests
(the `num_failed_requests` column of `registers`), and its cache. -/
@[ext]
structure PollingClient where
  /-- The constant columns of `registers`. -/
  table : RegisterTable
  /-- `registers[i].num_failed_requests`. -/
  numFailedRequests : ℕ → UInt8
  /-- `poll_data[i]`. -/
  pollData : ℕ → PollData

/-- `num_registers`. -/
def PollingClient.numRegisters (c : PollingClient) : ℕ := c.table.size

/-- The cache that `modbus_tcp_poll_start` sets up for a table. -/
def emptyPollData (T : RegisterTable) (i : ℕ) : PollData :=
  { data := none, length := 0, address := (T.block i).address }

/-- A client just started on a table whose counters are `counters`. -/
def PollingClient.fresh (T : RegisterTable) (counters : ℕ → UInt8) : PollingClient :=
  { table := T, numFailedRequests := counters, pollData := emptyPollData T }

/-! ### Storing -/

/-- An entry after its buffer was freed and a new one of `length` bytes allocated and
filled from `data`. Where the allocation fails, only the pointer changes. -/
def PollData.store (e : PollData) (data : List UInt8) (length : UInt16) (mallocOk : Bool) : PollData :=
  if mallocOk then { e with data := some (data.take length.toNat), length := length }
  else { e with data := none }

/-- `modbus_tcp_save_poll_data`. -/
def modbusTcpSavePollData (c : PollingClient) (address : UInt16) (data : List UInt8) (length : UInt16)
    (mallocOk : Bool) : PollingClient :=
  match (List.range c.numRegisters).find? fun i => (c.table.block i).address == address with
  | some i => { c with pollData := Function.update c.pollData i ((c.pollData i).store data length mallocOk) }
  | none => c

/-! ### Lookups -/

/-- The test of `modbus_tcp_get_poll_data_raw` on one entry: the range ends by
`end_address`, the entry's address plus its stored length. -/
def PollData.covers (e : PollData) (address length : UInt16) : Bool :=
  e.address ≤ address && address.toNat + length.toNat ≤ (e.address + e.length).toNat

/-- The entry at which the search of `modbus_tcp_get_poll_data_raw` stops. -/
def rawSearch (c : PollingClient) (address length : UInt16) : Option ℕ :=
  (List.range c.numRegisters).find? fun i => (c.pollData i).covers address length

/-- `modbus_tcp_get_poll_data_raw`: the copy that it makes of the entry's buffer, if it
returns data. `*out_length` is the size of the copy. -/
def modbusTcpGetPollDataRaw (c : PollingClient) (address length : UInt16) : Option Copy :=
  match rawSearch c address length with
  | none => none
  | some i =>
    match (c.pollData i).data with
    | none => none
    | some buf =>
      let offset : UInt16 := UInt16.ofNat ((address.toNat - (c.pollData i).address.toNat) * 2)
      some { buf := buf, offset := offset.toNat, size := length.toNat * 2 }

/-- The test of `modbus_tcp_get_poll_data` on one block of the table. -/
def Block.covers (b : Block) (address length : UInt16) : Bool :=
  b.address ≤ address && address.toNat + length.toNat ≤ (b.address + b.length).toNat

/-- The block at which the search of `modbus_tcp_get_poll_data` stops. -/
def typedSearch (c : PollingClient) (address length : UInt16) : Option ℕ :=
  (List.range c.numRegisters).find? fun i => (c.table.block i).covers address length

/-- The bytes that `modbus_tcp_get_poll_data` writes from a buffer: all of them in
reversed order, or each register's two bytes swapped. -/
def typedBytes (heap : ℕ → UInt8) (buf : List UInt8) (offset : ℕ) (length : UInt16) (bigEndian : Bool) :
    List UInt8 :=
  if bigEndian then memcpyReverse (fun k => peek heap buf (offset + k)) (UInt8.ofNat (length.toNat * 2))
  else (List.range length.toNat).flatMap fun x =>
    [peek heap buf (offset + x * 2 + 1), peek heap buf (offset + x * 2)]

/-- `modbus_tcp_get_poll_data`: the output buffer `out` after the call. -/
def modbusTcpGetPollData (heap : ℕ → UInt8) (c : PollingClient) (address length : UInt16) (bigEndian : Bool)
    (out : List UInt8) : List UInt8 :=
  let zeros := List.replicate (length.toNat * 2) 0
  match typedSearch c address length with
  | none => overwrite out zeros
  | some i =>
    match (c.pollData i).data with
    | none => overwrite out zeros
    | some buf =>
      let offset : UInt16 := UInt16.ofNat ((address.toNat - (c.table.block i).address.toNat) * 2)
      overwrite out (typedBytes heap buf offset.toNat length bigEndian)

/-! ### What a store does -/

theorem search_address {T : RegisterTable} {i : ℕ} (hi : i < T.size) :
    ((List.range T.size).find? fun j => (T.block j).address == (T.block i).address) = some i := by
  rw [List.find?_range_eq_some]
  refine ⟨by simp, List.mem_range.mpr hi, fun j hj => ?_⟩
  simp only [Bool.not_eq_true', beq_eq_false_iff_ne, ne_eq]
  exact fun h => Nat.ne_of_lt hj (RegisterTable.address_inj (by omega) hi h)

/-- A store under a block's address replaces that block's entry and nothing else. -/
theorem save_eq (c : PollingClient) {i : ℕ} (hi : i < c.numRegisters) (data : List UInt8) (length : UInt16)
    (mallocOk : Bool) :
    modbusTcpSavePollData c (c.table.block i).address data length mallocOk =
      { c with pollData := Function.update c.pollData i ((c.pollData i).store data length mallocOk) } := by
  unfold modbusTcpSavePollData
  rw [show c.numRegisters = c.table.size from rfl, search_address hi]

/-- The number of bytes of a block, as the polling thread passes it to
`modbus_tcp_save_poll_data`: `reg->length * 2`. -/
def byteLength (b : Block) : UInt16 := UInt16.ofNat (b.length.toNat * 2)

theorem toNat_byteLength {T : RegisterTable} {i : ℕ} (hi : i < T.size) :
    (byteLength (T.block i)).toNat = 2 * (T.block i).length.toNat := by
  have := RegisterTable.length_le hi
  rw [byteLength, UInt16.toNat_ofNat']
  omega

/-! ### Reachable caches -/

/-- The states of a client's cache that the polling thread reaches by its calls of
`modbus_tcp_save_poll_data`: each stores `length * 2` bytes of a large enough buffer
under the address of a block. -/
inductive Reachable (T : RegisterTable) : PollingClient → Prop where
  /-- The client as started, whatever the counters of its table. -/
  | start (counters : ℕ → UInt8) : Reachable T (.fresh T counters)
  /-- The thread counts a success or a failure. -/
  | count {c : PollingClient} (counters : ℕ → UInt8) :
      Reachable T c → Reachable T { c with numFailedRequests := counters }
  /-- The thread stores a poll, or zeros. -/
  | save {c : PollingClient} {i : ℕ} {buf : List UInt8} (mallocOk : Bool) :
      Reachable T c → i < T.size → (T.block i).length.toNat * 2 ≤ buf.length →
      Reachable T (modbusTcpSavePollData c (T.block i).address buf
        (byteLength (T.block i)) mallocOk)

/-- An entry of block `b` as the polling thread leaves it. -/
structure PollData.Valid (b : Block) (e : PollData) : Prop where
  /-- It is the entry of the block. -/
  address : e.address = b.address
  /-- The stored length is a number of bytes, or zero before the first store. -/
  length : e.length = 0 ∨ e.length.toNat = 2 * b.length.toNat
  /-- An entry with data has the bytes of the whole block. -/
  data : ∀ d, e.data = some d → d.length = 2 * b.length.toNat ∧ e.length.toNat = 2 * b.length.toNat

/-- A well-formed client of a table. -/
structure WellFormed (T : RegisterTable) (c : PollingClient) : Prop where
  /-- The client polls that table. -/
  table : c.table = T
  /-- Every entry is one of its block. -/
  entry : ∀ i < T.size, (c.pollData i).Valid (T.block i)

theorem WellFormed.fresh (T : RegisterTable) (counters : ℕ → UInt8) : WellFormed T (.fresh T counters) :=
  ⟨rfl, fun i _ => ⟨rfl, .inl rfl, fun d hd => by simp [PollingClient.fresh, emptyPollData] at hd⟩⟩

theorem PollData.Valid.store {T : RegisterTable} {i : ℕ} (hi : i < T.size) {e : PollData}
    (h : e.Valid (T.block i)) {buf : List UInt8} (hbuf : (T.block i).length.toNat * 2 ≤ buf.length) (ok : Bool) :
    (e.store buf (byteLength (T.block i)) ok).Valid (T.block i) := by
  have hlen := toNat_byteLength hi
  cases ok with
  | false => exact ⟨h.address, h.length, fun d hd => by simp [PollData.store] at hd⟩
  | true =>
    refine ⟨h.address, .inr hlen, fun d hd => ⟨?_, hlen⟩⟩
    simp only [PollData.store, if_true, Option.some.injEq] at hd
    rw [← hd, hlen, List.length_take]
    omega

theorem WellFormed.save {T : RegisterTable} {c : PollingClient} (h : WellFormed T c) {i : ℕ} (hi : i < T.size)
    {buf : List UInt8} (hbuf : (T.block i).length.toNat * 2 ≤ buf.length) (ok : Bool) :
    WellFormed T (modbusTcpSavePollData c (T.block i).address buf
      (byteLength (T.block i)) ok) := by
  obtain ⟨rfl, hentry⟩ := h
  rw [save_eq c hi]
  refine ⟨rfl, fun j hj => ?_⟩
  by_cases hji : j = i
  · subst hji
    simpa using (hentry j hj).store hi hbuf ok
  · simpa [Function.update_of_ne hji] using hentry j hj

/-- Every reachable cache is well formed. -/
theorem Reachable.wellFormed {T : RegisterTable} {c : PollingClient} (h : Reachable T c) : WellFormed T c := by
  induction h with
  | start counters => exact .fresh T counters
  | count counters _ ih => exact ⟨ih.table, ih.entry⟩
  | save ok _ hi hbuf ih => exact ih.save hi hbuf ok

/-! ### What a raw read does -/

theorem covers_iff {e : PollData} {a q : UInt16} :
    e.covers a q = true ↔ e.address ≤ a ∧ a.toNat + q.toNat ≤ (e.address + e.length).toNat := by
  simp [PollData.covers]

/-- Where the search of a raw read stops. -/
theorem rawSearch_eq_some_iff {c : PollingClient} {a q : UInt16} {i : ℕ} :
    rawSearch c a q = some i ↔
      i < c.numRegisters ∧ (c.pollData i).covers a q = true ∧ ∀ j < i, (c.pollData j).covers a q = false := by
  rw [rawSearch, List.find?_range_eq_some, List.mem_range]
  constructor
  · rintro ⟨h1, h2, h3⟩
    exact ⟨h2, h1, fun j hj => by simpa using h3 j hj⟩
  · rintro ⟨h1, h2, h3⟩
    exact ⟨h2, h1, fun j hj => by simpa using h3 j hj⟩

/-- A raw read returns data exactly where its search stops at an entry with data, and
then copies `2 * length` bytes of that entry, from the byte at which the address would
be if the block reached that far. -/
theorem raw_eq_some_iff {T : RegisterTable} {c : PollingClient} (hc : WellFormed T c) {a q : UInt16} {m : Copy} :
    modbusTcpGetPollDataRaw c a q = some m ↔
      ∃ i buf, rawSearch c a q = some i ∧ (c.pollData i).data = some buf ∧
        m = ⟨buf, 2 * (a.toNat - (T.block i).address.toNat), 2 * q.toNat⟩ := by
  unfold modbusTcpGetPollDataRaw
  cases hs : rawSearch c a q with
  | none => simp
  | some i =>
    cases hd : (c.pollData i).data with
    | none => simp [hd]
    | some buf =>
      obtain ⟨hi, hcov, -⟩ := rawSearch_eq_some_iff.mp hs
      obtain ⟨hle, hend⟩ := covers_iff.mp hcov
      rw [UInt16.le_iff_toNat_le] at hle
      rw [PollingClient.numRegisters, hc.table] at hi
      have hv := hc.entry i hi
      have hlen := (hv.data buf hd).2
      have hL := RegisterTable.length_le hi
      rw [UInt16.toNat_add, hlen] at hend
      have hoff : (UInt16.ofNat ((a.toNat - (c.pollData i).address.toNat) * 2)).toNat =
          2 * (a.toNat - (T.block i).address.toNat) := by
        rw [UInt16.toNat_ofNat', ← hv.address]
        omega
      simp only [hd, Option.some.injEq, hoff, Nat.mul_comm q.toNat 2]
      constructor
      · rintro rfl
        exact ⟨i, buf, rfl, hd, rfl⟩
      · rintro ⟨j, buf', rfl, hd', rfl⟩
        rw [hd, Option.some.injEq] at hd'
        rw [hd']

/-- A search that stops at an entry with data found a range that the entry's stored
bytes would reach: it begins in or after the block and ends by twice its length. -/
theorem rawSearch_bounds {T : RegisterTable} {c : PollingClient} (hc : WellFormed T c) {a q : UInt16} {i : ℕ}
    {buf : List UInt8} (hs : rawSearch c a q = some i) (hd : (c.pollData i).data = some buf) :
    i < T.size ∧ (T.block i).address.toNat ≤ a.toNat ∧
      a.toNat + q.toNat ≤ (T.block i).address.toNat + 2 * (T.block i).length.toNat := by
  obtain ⟨hi, hcov, -⟩ := rawSearch_eq_some_iff.mp hs
  rw [PollingClient.numRegisters, hc.table] at hi
  have hv := hc.entry i hi
  obtain ⟨hle, hend⟩ := covers_iff.mp hcov
  rw [UInt16.le_iff_toNat_le, hv.address] at hle
  rw [UInt16.toNat_add, hv.address, (hv.data buf hd).2] at hend
  exact ⟨hi, hle, by omega⟩

/-! ### What a typed read does -/

/-- The test of the typed read is that the block holds the range. -/
theorem Block.covers_iff_holds {T : RegisterTable} {i : ℕ} (hi : i < T.size) {a q : UInt16} :
    (T.block i).covers a q = true ↔ (T.block i).Holds a q := by
  have hend := RegisterTable.end_lt hi
  simp only [Block.covers, Block.Holds, Bool.and_eq_true, decide_eq_true_eq, UInt16.toNat_add]
  rw [Nat.mod_eq_of_lt (by omega)]

/-- The search of a typed read stops at the block that holds the range. -/
theorem typedSearch_eq_some_iff {T : RegisterTable} {c : PollingClient} (hc : c.table = T) {a q : UInt16}
    (hq : 0 < q.toNat) {i : ℕ} : typedSearch c a q = some i ↔ i < T.size ∧ (T.block i).Holds a q := by
  subst hc
  rw [typedSearch, List.find?_range_eq_some, List.mem_range]
  constructor
  · rintro ⟨hcov, hi, -⟩
    exact ⟨hi, (Block.covers_iff_holds hi).mp hcov⟩
  · rintro ⟨hi, hholds⟩
    refine ⟨(Block.covers_iff_holds hi).mpr hholds, hi, fun j hj => ?_⟩
    by_contra hcov
    simp only [Bool.not_eq_true', Bool.not_eq_false] at hcov
    have hjn : j < c.table.size := Nat.lt_trans hj hi
    exact Nat.ne_of_lt hj (RegisterTable.holds_unique hjn hi hq ((Block.covers_iff_holds hjn).mp hcov) hholds)

/-- A typed read of a range held by block `i` goes to the entry of that block. -/
theorem typed_of_holds {T : RegisterTable} {c : PollingClient} (hc : c.table = T) {a q : UInt16} (hq : 0 < q.toNat)
    {i : ℕ} (hi : i < T.size) (hholds : (T.block i).Holds a q) (heap : ℕ → UInt8) (bigEndian : Bool)
    (out : List UInt8) :
    modbusTcpGetPollData heap c a q bigEndian out =
      match (c.pollData i).data with
      | none => overwrite out (List.replicate (q.toNat * 2) 0)
      | some buf =>
        overwrite out (typedBytes heap buf (2 * (a.toNat - (T.block i).address.toNat)) q bigEndian) := by
  have hL := RegisterTable.length_le hi
  have hoff : (UInt16.ofNat ((a.toNat - (T.block i).address.toNat) * 2)).toNat =
      2 * (a.toNat - (T.block i).address.toNat) := by
    obtain ⟨-, hend⟩ := hholds
    rw [UInt16.toNat_ofNat']
    omega
  unfold modbusTcpGetPollData
  rw [(typedSearch_eq_some_iff hc hq).mpr ⟨hi, hholds⟩]
  cases hd : (c.pollData i).data with
  | none => simp only [hd]
  | some buf => simp only [hd, hc, hoff]

theorem length_typedBytes (heap : ℕ → UInt8) (buf : List UInt8) (offset : ℕ) {q : UInt16} (hq : q.toNat ≤ 127)
    (bigEndian : Bool) : (typedBytes heap buf offset q bigEndian).length = 2 * q.toNat := by
  cases bigEndian with
  | false => simp [typedBytes, List.length_flatMap, Nat.mul_comm]
  | true =>
    simp only [typedBytes, if_true, memcpyReverse, length_copyDown]
    rw [UInt8.toNat_ofNat']
    omega

/-- A typed read copies bytes of the range `offset, …, offset + 2 * length - 1` only. -/
theorem mem_typedBytes {heap : ℕ → UInt8} {buf : List UInt8} {offset : ℕ} {q : UInt16} (hq : q.toNat ≤ 127)
    {bigEndian : Bool} {x : UInt8} (hx : x ∈ typedBytes heap buf offset q bigEndian) :
    ∃ k < 2 * q.toNat, x = peek heap buf (offset + k) := by
  cases bigEndian with
  | false =>
    simp only [typedBytes, Bool.false_eq_true, if_false, List.mem_flatMap, List.mem_range, List.mem_cons,
      List.not_mem_nil, or_false] at hx
    obtain ⟨k, hk, rfl | rfl⟩ := hx
    · exact ⟨k * 2 + 1, by omega, by rw [Nat.add_assoc]⟩
    · exact ⟨k * 2, by omega, rfl⟩
  | true =>
    simp only [typedBytes, if_true, memcpyReverse, copyDown_eq, List.mem_reverse, List.mem_map,
      List.mem_range] at hx
    obtain ⟨k, hk, rfl⟩ := hx
    rw [UInt8.toNat_ofNat'] at hk
    exact ⟨k, by omega, rfl⟩

/-- Conversely every byte of the range is copied. -/
theorem peek_mem_typedBytes (heap : ℕ → UInt8) (buf : List UInt8) (offset : ℕ) {q : UInt16} (hq : q.toNat ≤ 127)
    {k : ℕ} (hk : k < 2 * q.toNat) : peek heap buf (offset + k) ∈ typedBytes heap buf offset q true := by
  simp only [typedBytes, if_true, memcpyReverse, copyDown_eq, List.mem_reverse, List.mem_map, List.mem_range]
  refine ⟨k, ?_, rfl⟩
  rw [UInt8.toNat_ofNat']
  omega

/-- The cached bytes of the registers `a, …, a + q - 1` of block `i`. -/
def cachedBytes (c : PollingClient) (i : ℕ) (a q : UInt16) : List UInt8 :=
  (((c.pollData i).data.getD []).drop (2 * (a.toNat - (c.table.block i).address.toNat))).take (2 * q.toNat)

end ModbusProxy.Poll
