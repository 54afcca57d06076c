import Mathlib.Data.List.Basic

/-!
# Bytes and buffers

What C code does to byte buffers, over lists of bytes: the two bytes of a 16-bit
word in network order, a `memcpy` to the front of a buffer, and a `memcpy` out of
a buffer at an offset. The last may read past the end of the buffer; what it finds
there is up to the heap, so a copy is kept as a description (`Copy`) from which the
bytes are computed once the heap is given.
-/

namespace ModbusProxy.Memory

/-! ### Words in network order -/

/-- The high byte of a word, `x >> 8`. -/
def hi (x : UInt16) : UInt8 := (x >>> 8).toUInt8

/-- The low byte of a word, `x & 0xff`. -/
def lo (x : UInt16) : UInt8 := x.toUInt8

/-- The word with the given bytes, `(h << 8) | l`. -/
def be16 (h l : UInt8) : UInt16 := (h.toUInt16 <<< 8) ||| l.toUInt16

theorem toNat_hi (x : UInt16) : (hi x).toNat = x.toNat / 256 := by
  have := x.toNat_lt
  simp only [hi, UInt16.toNat_toUInt8, UInt16.toNat_shiftRight, Nat.shiftRight_eq_div_pow]
  rw [show (8 : UInt16).toNat % 16 = 8 from rfl]
  omega

theorem toNat_lo (x : UInt16) : (lo x).toNat = x.toNat % 256 := by
  simp [lo]

theorem toNat_be16 (h l : UInt8) : (be16 h l).toNat = 256 * h.toNat + l.toNat := by
  have hh := h.toNat_lt
  have hl := l.toNat_lt
  have hor := Nat.shiftLeft_add_eq_or_of_lt (i := 8) hl h.toNat
  simp only [be16, UInt16.toNat_or, UInt16.toNat_shiftLeft, UInt8.toNat_toUInt16]
  rw [Nat.shiftLeft_eq] at hor ⊢
  rw [show (8 : UInt16).toNat % 16 = 8 from rfl, Nat.mod_eq_of_lt (by omega), ← hor]
  omega

@[simp] theorem be16_hi_lo (x : UInt16) : be16 (hi x) (lo x) = x := by
  apply UInt16.toNat_inj.mp
  rw [toNat_be16, toNat_hi, toNat_lo]
  omega

@[simp] theorem hi_be16 (h l : UInt8) : hi (be16 h l) = h := by
  apply UInt8.toNat_inj.mp
  have := l.toNat_lt
  rw [toNat_hi, toNat_be16]
  omega

@[simp] theorem lo_be16 (h l : UInt8) : lo (be16 h l) = l := by
  apply UInt8.toNat_inj.mp
  have := l.toNat_lt
  rw [toNat_lo, toNat_be16]
  omega

/-- Bytes taken from the end. -/
theorem reverse_map_range {α : Type*} (g : ℕ → α) (n : ℕ) :
    ((List.range n).map g).reverse = (List.range n).map fun k => g (n - 1 - k) := by
  have hrev : (List.range n).reverse = (List.range n).map fun k => n - 1 - k := by
    rw [List.range_eq_range', List.reverse_range', Nat.zero_add, ← List.range_eq_range']
  rw [← List.map_reverse, hrev, List.map_map]
  rfl

/-- Taking two at a time takes all. -/
theorem flatMap_pairs {α : Type*} (g : ℕ → α) (n : ℕ) :
    ((List.range n).flatMap fun i => [g (i * 2), g (i * 2 + 1)]) = (List.range (2 * n)).map g := by
  induction n with
  | zero => rfl
  | succ n ih =>
    rw [List.range_succ, List.flatMap_append, ih, show 2 * (n + 1) = 2 * n + 1 + 1 by omega, List.range_succ,
      List.range_succ]
    simp [Nat.mul_comm n 2]

/-! ### Copying into a buffer -/

/-- The buffer after the bytes `data` are stored at its front. -/
def overwrite (buf data : List UInt8) : List UInt8 := data ++ buf.drop data.length

theorem length_overwrite {buf data : List UInt8} (h : data.length ≤ buf.length) :
    (overwrite buf data).length = buf.length := by
  simp only [overwrite, List.length_append, List.length_drop]
  omega

/-- The bytes just stored are the front of the buffer. -/
@[simp] theorem take_overwrite (buf data : List UInt8) : (overwrite buf data).take data.length = data :=
  List.take_left

/-- A buffer is overwritten whole by as many bytes as it has. -/
theorem overwrite_of_length_eq {buf data : List UInt8} (h : buf.length = data.length) : overwrite buf data = data := by
  rw [overwrite, ← h, List.drop_length, List.append_nil]

/-! ### Copying out of a buffer -/

/-- The byte at index `k` of a buffer. `heap k` is what the heap holds at that index,
counted from the start of the buffer, when it is past the end. -/
def peek (heap : ℕ → UInt8) (buf : List UInt8) (k : ℕ) : UInt8 := buf[k]?.getD (heap k)

theorem peek_of_lt (heap : ℕ → UInt8) {buf : List UInt8} {k : ℕ} (h : k < buf.length) :
    peek heap buf k = buf[k] := by
  simp [peek, h]

theorem peek_of_length_le (heap : ℕ → UInt8) {buf : List UInt8} {k : ℕ} (h : buf.length ≤ k) :
    peek heap buf k = heap k := by
  simp [peek, h]

/-- A `memcpy` of `size` bytes from `buf + offset`. -/
structure Copy where
  /-- The allocated buffer that is read. -/
  buf : List UInt8
  /-- Where in it the read begins. -/
  offset : ℕ
  /-- How many bytes are read. -/
  size : ℕ

/-- Every byte that the copy reads is a byte of the buffer. -/
def Copy.InBounds (m : Copy) : Prop := m.size = 0 ∨ m.offset + m.size ≤ m.buf.length

instance (m : Copy) : Decidable m.InBounds := inferInstanceAs (Decidable (_ ∨ _))

/-- The bytes copied. -/
def Copy.bytes (heap : ℕ → UInt8) (m : Copy) : List UInt8 :=
  (List.range m.size).map fun k => peek heap m.buf (m.offset + k)

@[simp] theorem Copy.length_bytes (heap : ℕ → UInt8) (m : Copy) : (m.bytes heap).length = m.size := by
  simp [Copy.bytes]

/-- A copy within its buffer yields the bytes of the buffer, whatever the heap holds. -/
theorem Copy.bytes_of_inBounds (heap : ℕ → UInt8) {m : Copy} (h : m.InBounds) :
    m.bytes heap = (m.buf.drop m.offset).take m.size := by
  apply List.ext_getElem?
  intro k
  by_cases hk : k < m.size
  · have hlt : m.offset + k < m.buf.length := by
      rcases h with h | h <;> omega
    simp [Copy.bytes, peek, hk, hlt]
  · rw [List.getElem?_eq_none (by simpa using hk), List.getElem?_eq_none]
    simp only [List.length_take]
    omega

/-- A copy that begins past the end of its buffer yields bytes of the heap only. -/
theorem Copy.bytes_of_length_le (heap : ℕ → UInt8) {m : Copy} (h : m.buf.length ≤ m.offset) :
    m.bytes heap = (List.range m.size).map fun k => heap (m.offset + k) := by
  apply List.map_congr_left
  intro k _
  exact peek_of_length_le heap (by omega)

end ModbusProxy.Memory
