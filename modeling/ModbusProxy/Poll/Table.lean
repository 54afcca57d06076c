import Mathlib.Tactic
import Mathlib.Data.List.GetD

/-!
# Poll types and register tables

The three kinds of device that the proxy polls and, for each, the table of register
blocks that its polling thread requests, `huawei_registers`, `nrgkick_registers`
and `can_ez3_registers` of `modbus_tcp_poll.c`.

A `poll_register_t` has three columns that never change and one that does,
`num_failed_requests`. The table here has the constant columns (`Block`); the
counters are part of the state (`PollingClient`, `World`).
-/

namespace ModbusProxy.Poll

/-- `poll_type_t`. A C enumeration may hold any integer. -/
inductive PollType where
  /-- `HUAWEI`. -/
  | huawei
  /-- `NRGKICK`. -/
  | nrgkick
  /-- `CAN_EZ3`. -/
  | canEz3
  /-- A value that names no device. -/
  | other (value : ℤ)
  deriving DecidableEq

/-- The constant columns of a `poll_register_t`: a block of consecutive registers
and the function code that reads them. -/
structure Block where
  /-- The first register. -/
  address : UInt16
  /-- How many registers. -/
  length : UInt16
  /-- The Modbus function that reads the block. -/
  functionCode : UInt8
  deriving DecidableEq, Inhabited

/-- The registers `address, …, address + length - 1` are registers of the block. -/
def Block.Holds (b : Block) (address length : UInt16) : Prop :=
  b.address ≤ address ∧ address.toNat + length.toNat ≤ b.address.toNat + b.length.toNat

instance (b : Block) (address length : UInt16) : Decidable (b.Holds address length) :=
  inferInstanceAs (Decidable (_ ∧ _))

/-- Two blocks with no register in common. -/
def Block.Apart (a b : Block) : Prop :=
  a.address.toNat + a.length.toNat ≤ b.address.toNat ∨ b.address.toNat + b.length.toNat ≤ a.address.toNat

instance (a b : Block) : Decidable (a.Apart b) := inferInstanceAs (Decidable (_ ∨ _))

theorem Block.Apart.symm {a b : Block} (h : a.Apart b) : b.Apart a := Or.symm h

/-- A table of register blocks as the polling threads use them: no block is empty,
the reply to each fits the 256 bytes that the Modbus client receives at once, the 16-bit
address of each block's end does not wrap, and no two blocks share a register. -/
structure RegisterTable where
  /-- The blocks, in the order in which they are polled. -/
  blocks : List Block
  /-- No block is empty. -/
  pos : ∀ b ∈ blocks, 0 < b.length.toNat
  /-- A reply of `9 + 2 * length` bytes fits 256 bytes. -/
  fits : ∀ b ∈ blocks, b.length.toNat ≤ 123
  /-- `end_address` does not wrap. -/
  inside : ∀ b ∈ blocks, b.address.toNat + b.length.toNat < 65536
  /-- The blocks are pairwise disjoint. -/
  apart : blocks.Pairwise Block.Apart

namespace RegisterTable

/-- `num_registers`: how many blocks the table has. -/
def size (T : RegisterTable) : ℕ := T.blocks.length

/-- `registers[i]`. -/
def block (T : RegisterTable) (i : ℕ) : Block := T.blocks.getD i default

theorem block_mem {T : RegisterTable} {i : ℕ} (hi : i < T.size) : T.block i ∈ T.blocks := by
  rw [block, List.getD_eq_getElem _ _ hi]
  exact List.getElem_mem hi

theorem length_pos {T : RegisterTable} {i : ℕ} (hi : i < T.size) : 0 < (T.block i).length.toNat :=
  T.pos _ (block_mem hi)

theorem length_le {T : RegisterTable} {i : ℕ} (hi : i < T.size) : (T.block i).length.toNat ≤ 123 :=
  T.fits _ (block_mem hi)

theorem end_lt {T : RegisterTable} {i : ℕ} (hi : i < T.size) :
    (T.block i).address.toNat + (T.block i).length.toNat < 65536 :=
  T.inside _ (block_mem hi)

theorem block_apart {T : RegisterTable} {i j : ℕ} (hi : i < T.size) (hj : j < T.size) (hij : i ≠ j) :
    (T.block i).Apart (T.block j) := by
  have hpair := List.pairwise_iff_getElem.mp T.apart
  simp only [block, List.getD_eq_getElem _ _ hi, List.getD_eq_getElem _ _ hj]
  rcases Nat.lt_or_gt_of_ne hij with hlt | hgt
  · exact hpair i j hi hj hlt
  · exact (hpair j i hj hi hgt).symm

/-- A block is known by its address. -/
theorem address_inj {T : RegisterTable} {i j : ℕ} (hi : i < T.size) (hj : j < T.size)
    (h : (T.block i).address = (T.block j).address) : i = j := by
  by_contra hij
  have hpi := length_pos hi
  have hpj := length_pos hj
  rcases block_apart hi hj hij with h' | h' <;> rw [h] at h' <;> omega

/-- At most one block holds a given nonempty range. -/
theorem holds_unique {T : RegisterTable} {i j : ℕ} (hi : i < T.size) (hj : j < T.size) {a q : UInt16}
    (hq : 0 < q.toNat) (h : (T.block i).Holds a q) (h' : (T.block j).Holds a q) : i = j := by
  by_contra hij
  obtain ⟨h1, h2⟩ := h
  obtain ⟨h1', h2'⟩ := h'
  rw [UInt16.le_iff_toNat_le] at h1 h1'
  rcases block_apart hi hj hij with h' | h' <;> omega

end RegisterTable

/-- `huawei_registers`. -/
def huaweiRegisters : RegisterTable where
  blocks := [⟨30000, 25, 0x03⟩, ⟨30073, 4, 0x03⟩, ⟨32016, 100, 0x03⟩, ⟨37000, 62, 0x03⟩,
    ⟨37100, 38, 0x03⟩, ⟨37700, 88, 0x03⟩, ⟨47000, 1, 0x03⟩, ⟨47086, 4, 0x03⟩]
  pos := by decide
  fits := by decide
  inside := by decide
  apart := by decide

/-- `nrgkick_registers`. -/
def nrgkickRegisters : RegisterTable where
  blocks := [⟨194, 69, 0x03⟩, ⟨1, 1, 0x04⟩]
  pos := by decide
  fits := by decide
  inside := by decide
  apart := by decide

/-- `can_ez3_registers`. -/
def canEz3Registers : RegisterTable where
  blocks := [⟨1, 4, 0x04⟩]
  pos := by decide
  fits := by decide
  inside := by decide
  apart := by decide

/-- The table that `modbus_tcp_poll_start_client` gives to a client of a type, if the
type is one of the three. -/
def PollType.registers? : PollType → Option RegisterTable
  | .huawei => some huaweiRegisters
  | .nrgkick => some nrgkickRegisters
  | .canEz3 => some canEz3Registers
  | .other _ => none

end ModbusProxy.Poll
