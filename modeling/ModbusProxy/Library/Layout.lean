import Mathlib.Tactic
import Mathlib.Data.List.GetD

/-!
# Packed structures

A structure without gaps is an array of bytes, and a member is a run of them. A store at
the place of a member may be longer than the member; then it also is a store to what
comes behind. What a member has after a store depends on how the two runs lie: apart
(`load_store_of_apart`), the member inside what is stored (`load_store_of_inside`), or
across its end, where the member is read in two parts (`load_append`).
-/

namespace ModbusProxy.Layout

/-- A structure of `n` bytes. -/
abbrev Packed (n : ℕ) : Type := Fin n → UInt8

variable {n : ℕ}

/-- The structure after bytes are stored at an offset. -/
def store (m : Packed n) (offset : ℕ) (bytes : List UInt8) : Packed n := fun k =>
  if offset ≤ k.val then bytes.getD (k.val - offset) (m k) else m k

/-- The byte at an offset, zero outside the structure. -/
def byteAt (m : Packed n) (k : ℕ) : UInt8 := if h : k < n then m ⟨k, h⟩ else 0

/-- The bytes at an offset. -/
def load (m : Packed n) (offset size : ℕ) : List UInt8 := (List.range size).map fun k => byteAt m (offset + k)

@[simp] theorem length_load (m : Packed n) (offset size : ℕ) : (load m offset size).length = size := by simp [load]

theorem byteAt_store_of_lt (m : Packed n) {offset k : ℕ} (hk : k < offset) (bytes : List UInt8) :
    byteAt (store m offset bytes) k = byteAt m k := by
  unfold byteAt
  by_cases hn : k < n
  · rw [dif_pos hn, dif_pos hn, store, if_neg (by simpa using hk)]
  · rw [dif_neg hn, dif_neg hn]

theorem byteAt_store_of_ge (m : Packed n) {offset k : ℕ} {bytes : List UInt8} (hk : offset + bytes.length ≤ k) :
    byteAt (store m offset bytes) k = byteAt m k := by
  unfold byteAt
  by_cases hn : k < n
  · rw [dif_pos hn, dif_pos hn, store, if_pos (by simp only; omega), List.getD_eq_default _ _ (by simp only; omega)]
  · rw [dif_neg hn, dif_neg hn]

theorem byteAt_store_of_mem (m : Packed n) {offset k : ℕ} {bytes : List UInt8} (hn : offset + k < n)
    (hk : k < bytes.length) : byteAt (store m offset bytes) (offset + k) = bytes.getD k 0 := by
  rw [byteAt, dif_pos hn, store, if_pos (by simp), Nat.add_sub_cancel_left, List.getD_eq_getElem _ _ hk,
    List.getD_eq_getElem _ _ hk]

/-- **A member apart from what is stored** keeps its value. -/
theorem load_store_of_apart (m : Packed n) {offset o size : ℕ} {bytes : List UInt8}
    (h : o + size ≤ offset ∨ offset + bytes.length ≤ o) :
    load (store m offset bytes) o size = load m o size := by
  apply List.map_congr_left
  intro k hk
  rw [List.mem_range] at hk
  rcases h with h | h
  · exact byteAt_store_of_lt m (by omega) bytes
  · exact byteAt_store_of_ge m (by omega)

/-- **A member inside what is stored** has what is stored there. -/
theorem load_store_of_inside (m : Packed n) {offset d size : ℕ} {bytes : List UInt8} (hn : offset + bytes.length ≤ n)
    (h : d + size ≤ bytes.length) :
    load (store m offset bytes) (offset + d) size = (bytes.drop d).take size := by
  apply List.ext_getElem
  · simp only [length_load, List.length_take, List.length_drop]
    omega
  · intro k hk _
    rw [length_load] at hk
    simp only [load, List.getElem_map, List.getElem_range, List.getElem_take, List.getElem_drop, Nat.add_assoc]
    rw [byteAt_store_of_mem m (by omega) (by omega), List.getD_eq_getElem _ _ (by omega)]

/-- A member that is stored. -/
theorem load_store (m : Packed n) {offset size : ℕ} {bytes : List UInt8} (hn : offset + bytes.length ≤ n)
    (h : bytes.length = size) : load (store m offset bytes) offset size = bytes := by
  have hload := load_store_of_inside m hn (show 0 + size ≤ bytes.length by omega)
  rw [Nat.add_zero, List.drop_zero, ← h, List.take_length] at hload
  rw [← h]
  exact hload

/-- A member in two parts. -/
theorem load_append (m : Packed n) (o s t : ℕ) : load m o (s + t) = load m o s ++ load m (o + s) t := by
  simp [load, List.range_add, List.map_append, Nat.add_assoc]

/-- A structure is known by all its bytes. -/
theorem eq_of_load_eq {m m' : Packed n} (h : load m 0 n = load m' 0 n) : m = m' := by
  funext k
  have hbyte := (List.map_eq_map_iff.mp h) k.val (List.mem_range.mpr k.isLt)
  simp only [Nat.zero_add, byteAt, k.isLt, dif_pos] at hbyte
  exact hbyte

end ModbusProxy.Layout
