import ModbusProxy.Library.Endian
import ModbusProxy.Poll.Registry

/-!
# Cached registers

A cache is there to be read as registers. The value of a register in a client's cache is
the word at its place in the data of the block that holds it, and zero where no block with
data does (`PollingClient.register`). The lookups of the converters,
`modbus_tcp_poll_get_client_data`, go to the first client of a type in the registry.

## What is proved

A typed read reads the bytes `typedIndices` of a block's data (`typed_of_data`). A typed
read of a range that a block holds writes what a little-endian host keeps of the cached
registers of the range (`typed_eq_registers`), whatever the heap holds. A range that
no block with data holds is read as zeros (`typed_eq_zeros`).
-/

namespace ModbusProxy.Poll

open Memory Endian ModbusProxy.System

/-! ### Registers -/

/-- The register at a place in the data of a block. -/
def bufRegister (buf : List UInt8) (k : ℕ) : UInt16 := be16 (buf.getD (2 * k) 0) (buf.getD (2 * k + 1) 0)

/-- The block that holds a register. -/
def PollingClient.blockOf (c : PollingClient) (x : ℕ) : Option ℕ :=
  (List.range c.numRegisters).find? fun i =>
    (c.table.block i).address.toNat ≤ x && x < (c.table.block i).address.toNat + (c.table.block i).length.toNat

/-- The cached value of a register, zero where none is cached. -/
def PollingClient.register (c : PollingClient) (x : ℕ) : UInt16 :=
  match c.blockOf x with
  | none => 0
  | some i => bufRegister ((c.pollData i).data.getD []) (x - (c.table.block i).address.toNat)

/-- The cached registers of the client that the lookups find for a type, zeros where they
find none. -/
def World.registers (w : World) (type : PollType) : ℕ → UInt16 :=
  match w.findClient type with
  | none => fun _ => 0
  | some c => c.register

/-- `modbus_tcp_poll_get_client_data`: the output buffer `data` after the call. -/
def modbusTcpPollGetClientData (heap : ℕ → UInt8) (w : World) (type : PollType) (address length : UInt16)
    (bigEndian : Bool) (data : List UInt8) : List UInt8 :=
  match w.findClient type with
  | none => data
  | some c => modbusTcpGetPollData heap c address length bigEndian data

/-- What a device with the given registers answers to the request of a block. -/
def deviceReply (reg : ℕ → UInt16) (b : Block) : Reply b where
  payload := some (beWords (fun k => reg (b.address.toNat + k)) b.length.toNat)
  sized p hp := by
    cases hp
    simp
  mallocOk := true

/-- The register of a block's data at an address that the block holds. -/
theorem register_of_mem {T : RegisterTable} {c : PollingClient} (hc : c.table = T) {i : ℕ} (hi : i < T.size) {x : ℕ}
    (hx : (T.block i).address.toNat ≤ x) (hx' : x < (T.block i).address.toNat + (T.block i).length.toNat) :
    c.register x = bufRegister ((c.pollData i).data.getD []) (x - (T.block i).address.toNat) := by
  subst hc
  have hfind : c.blockOf x = some i := by
    rw [PollingClient.blockOf, List.find?_range_eq_some]
    refine ⟨by simp [hx, hx'], List.mem_range.mpr hi, fun j hj => ?_⟩
    have hlt : j < c.table.size := Nat.lt_trans hj hi
    simp only [Bool.not_eq_true', Bool.and_eq_false_iff, decide_eq_false_iff_not]
    rcases RegisterTable.block_apart hlt hi (Nat.ne_of_lt hj) with h | h <;> omega
  rw [PollingClient.register, hfind]

theorem bufRegister_nil (k : ℕ) : bufRegister [] k = 0 := by simp [bufRegister, be16]

/-! ### The bytes that a typed read reads -/

/-- The indices of a block's data that a typed read reads, in the order in which it writes
what it finds there. -/
def typedIndices (offset : ℕ) (length : UInt16) (bigEndian : Bool) : List ℕ :=
  if bigEndian then
    (List.range (UInt8.ofNat (length.toNat * 2)).toNat).reverse.map fun k => offset + k
  else (List.range length.toNat).flatMap fun x => [offset + x * 2 + 1, offset + x * 2]

theorem typedBytes_eq_map (heap : ℕ → UInt8) (buf : List UInt8) (offset : ℕ) (q : UInt16) (bigEndian : Bool) :
    typedBytes heap buf offset q bigEndian = (typedIndices offset q bigEndian).map (peek heap buf) := by
  cases bigEndian with
  | false => simp [typedBytes, typedIndices, List.map_flatMap]
  | true =>
    simp only [typedBytes, typedIndices, if_true, memcpyReverse, copyDown_eq, List.map_map, List.map_reverse]
    rfl

theorem mem_typedIndices {offset : ℕ} {q : UInt16} (hq : q.toNat ≤ 127) {bigEndian : Bool} {k : ℕ}
    (hk : k ∈ typedIndices offset q bigEndian) : offset ≤ k ∧ k < offset + 2 * q.toNat := by
  cases bigEndian with
  | false =>
    simp only [typedIndices, Bool.false_eq_true, if_false, List.mem_flatMap, List.mem_range, List.mem_cons,
      List.not_mem_nil, or_false] at hk
    obtain ⟨x, hx, rfl | rfl⟩ := hk <;> omega
  | true =>
    simp only [typedIndices, if_true, List.mem_map, List.mem_reverse, List.mem_range] at hk
    obtain ⟨x, hx, rfl⟩ := hk
    rw [UInt8.toNat_ofNat'] at hx
    omega

/-- What a typed read writes of data that reach far enough. -/
theorem typedBytes_eq_hostBytes (heap : ℕ → UInt8) {buf : List UInt8} {o : ℕ} {q : UInt16} (hq : q.toNat ≤ 127)
    (hlen : 2 * o + 2 * q.toNat ≤ buf.length) (bigEndian : Bool) :
    typedBytes heap buf (2 * o) q bigEndian = hostBytes bigEndian q.toNat fun k => bufRegister buf (o + k) := by
  have hpeek {k : ℕ} (hk : k < 2 * q.toNat) : peek heap buf (2 * o + k) = buf.getD (2 * o + k) 0 := by
    rw [peek_of_lt heap (by omega), List.getD_eq_getElem _ _ (by omega)]
  have hword : ∀ k < q.toNat,
      be16 (peek heap buf (2 * o + 2 * k)) (peek heap buf (2 * o + (2 * k + 1))) = bufRegister buf (o + k) := by
    intro k hk
    rw [hpeek (by omega), hpeek (by omega), bufRegister, Nat.mul_add, Nat.add_assoc]
  cases bigEndian with
  | false =>
    apply List.flatMap_congr
    intro x hx
    rw [List.mem_range] at hx
    simp only [← hword x hx, lo_be16, hi_be16, Nat.mul_comm 2 x, Nat.add_assoc]
  | true =>
    have hsize : (UInt8.ofNat (q.toNat * 2)).toNat = 2 * q.toNat := by
      rw [UInt8.toNat_ofNat']
      omega
    simp only [typedBytes, if_true, memcpyReverse, hsize, copyDown_eq, hostBytes]
    rw [← reverse_beWords fun k => bufRegister buf (o + k), map_range_eq_beWords]
    congr 1
    apply List.flatMap_congr
    intro k hk
    rw [List.mem_range] at hk
    simp only [hword k hk]

/-! ### What a typed read writes -/

variable {T : RegisterTable} {c : PollingClient}

/-- A typed read from a block with data reads bytes of these data only. -/
theorem typed_of_data (hc : WellFormed T c) {a q : UInt16} (hq : 0 < q.toNat) {i : ℕ} (hi : i < T.size)
    (hholds : (T.block i).Holds a q) {buf : List UInt8} (hd : (c.pollData i).data = some buf) (heap : ℕ → UInt8)
    (bigEndian : Bool) (out : List UInt8) :
    (∀ k ∈ typedIndices (2 * (a.toNat - (T.block i).address.toNat)) q bigEndian, k < buf.length) ∧
      modbusTcpGetPollData heap c a q bigEndian out =
        overwrite out
          ((typedIndices (2 * (a.toNat - (T.block i).address.toNat)) q bigEndian).map (peek heap buf)) := by
  have hL := RegisterTable.length_le hi
  have hlen := ((hc.entry i hi).data buf hd).1
  have hend := hholds.2
  have hle : (T.block i).address.toNat ≤ a.toNat := UInt16.le_iff_toNat_le.mp hholds.1
  constructor
  · intro k hk
    have := (mem_typedIndices (by omega) hk).2
    omega
  · rw [typed_of_holds hc.table hq hi hholds heap, hd, ← typedBytes_eq_map]

/-- **A typed read of a range that a block holds.** -/
theorem typed_eq_registers (hc : WellFormed T c) {a q : UInt16} (hq : 0 < q.toNat) {i : ℕ} (hi : i < T.size)
    (hholds : (T.block i).Holds a q) (heap : ℕ → UInt8) (bigEndian : Bool) (out : List UInt8) :
    modbusTcpGetPollData heap c a q bigEndian out =
      overwrite out (hostBytes bigEndian q.toNat fun k => c.register (a.toNat + k)) := by
  have hL := RegisterTable.length_le hi
  have hend := hholds.2
  have hle : (T.block i).address.toNat ≤ a.toNat := UInt16.le_iff_toNat_le.mp hholds.1
  have hreg : ∀ k < q.toNat, c.register (a.toNat + k) =
      bufRegister ((c.pollData i).data.getD []) (a.toNat - (T.block i).address.toNat + k) := by
    intro k hk
    rw [register_of_mem hc.table hi (by omega) (by omega)]
    congr 1
    omega
  rw [typed_of_holds hc.table hq hi hholds heap, hostBytes_congr hreg]
  cases hd : (c.pollData i).data with
  | none =>
    simp only [Option.getD_none, bufRegister_nil]
    rw [hostBytes_zero, Nat.mul_comm]
  | some buf =>
    have hlen := ((hc.entry i hi).data buf hd).1
    simp only [Option.getD_some]
    rw [typedBytes_eq_hostBytes heap (by omega) (by omega)]

/-- **A typed read of a range that no block with data holds.** -/
theorem typed_eq_zeros (hc : WellFormed T c) {a q : UInt16}
    (hnone : ∀ i < T.size, (T.block i).Holds a q → (c.pollData i).data = none) (heap : ℕ → UInt8)
    (bigEndian : Bool) (out : List UInt8) :
    modbusTcpGetPollData heap c a q bigEndian out = overwrite out (List.replicate (2 * q.toNat) 0) := by
  unfold modbusTcpGetPollData
  rw [Nat.mul_comm q.toNat 2]
  cases hs : typedSearch c a q with
  | none => rfl
  | some i =>
    rw [typedSearch, List.find?_range_eq_some, List.mem_range] at hs
    obtain ⟨hcov, hi, -⟩ := hs
    rw [PollingClient.numRegisters, hc.table] at hi
    rw [hc.table] at hcov
    simp only [hnone i hi ((Block.covers_iff_holds hi).mp hcov)]

end ModbusProxy.Poll
