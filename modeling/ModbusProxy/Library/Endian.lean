import Mathlib.Algebra.BigOperators.Intervals
import Mathlib.Data.Nat.Digits.Lemmas
import ModbusProxy.Library.Memory

/-!
# Little-endian objects

The bytes of a number with the least significant byte first, and the objects that a
little-endian host keeps so (`Stored`). A device sends 16-bit words in network order; a
host that reads several of them as one number either takes the first word as the least
significant one or reverses all the bytes, which makes it the most significant one. Both
are the bytes of a number that is a sum over the words (`hostBytes_eq`).
-/

namespace ModbusProxy.Endian

open Memory

/-! ### Numbers -/

/-- The `n` low bytes of a number, least significant first. -/
def leBytes : ℕ → ℕ → List UInt8
  | 0, _ => []
  | n + 1, v => UInt8.ofNat v :: leBytes n (v / 256)

/-- The number with the given bytes, least significant first. -/
def leValue (bs : List UInt8) : ℕ := Nat.ofDigits 256 (bs.map UInt8.toNat)

@[simp] theorem leValue_nil : leValue [] = 0 := rfl

@[simp] theorem leValue_cons (b : UInt8) (bs : List UInt8) : leValue (b :: bs) = b.toNat + 256 * leValue bs := by
  simp [leValue, Nat.ofDigits_cons]

@[simp] theorem length_leBytes (n v : ℕ) : (leBytes n v).length = n := by
  induction n generalizing v with
  | zero => rfl
  | succ n ih => rw [leBytes, List.length_cons, ih]

/-- Reading back what was written loses what does not fit. -/
theorem leValue_leBytes (n v : ℕ) : leValue (leBytes n v) = v % 256 ^ n := by
  induction n generalizing v with
  | zero => simp [leBytes, Nat.mod_one]
  | succ n ih =>
    have hbyte : (UInt8.ofNat v).toNat = v % 256 := UInt8.toNat_ofNat'
    rw [leBytes, leValue_cons, ih, hbyte, pow_succ', Nat.mod_mul]

/-- The bytes of `v + 256 ^ m * u` are those of `v`, then those of `u`. -/
theorem leBytes_add {m v : ℕ} (hv : v < 256 ^ m) (k u : ℕ) :
    leBytes (m + k) (v + 256 ^ m * u) = leBytes m v ++ leBytes k u := by
  induction m generalizing v with
  | zero =>
    obtain rfl : v = 0 := by simpa using hv
    simp [leBytes]
  | succ m ih =>
    have hdiv : (v + 256 ^ (m + 1) * u) / 256 = v / 256 + 256 ^ m * u := by
      rw [pow_succ', Nat.mul_assoc, Nat.add_mul_div_left _ _ (by decide)]
    have hbyte : UInt8.ofNat (v + 256 ^ (m + 1) * u) = UInt8.ofNat v := by
      apply UInt8.toNat_inj.mp
      rw [UInt8.toNat_ofNat', UInt8.toNat_ofNat', pow_succ', Nat.mul_assoc]
      omega
    rw [show m + 1 + k = m + k + 1 by omega, leBytes, leBytes, hdiv, hbyte,
      ih (Nat.div_lt_of_lt_mul (by rwa [← pow_succ'])), List.cons_append]

/-! ### Words -/

/-- The bytes of `n` words as they are sent. -/
def beWords (f : ℕ → UInt16) (n : ℕ) : List UInt8 := (List.range n).flatMap fun k => [hi (f k), lo (f k)]

/-- The bytes of `n` words, the low byte of each first. -/
def leWords (f : ℕ → UInt16) (n : ℕ) : List UInt8 := (List.range n).flatMap fun k => [lo (f k), hi (f k)]

@[simp] theorem length_beWords (f : ℕ → UInt16) (n : ℕ) : (beWords f n).length = 2 * n := by
  simp [beWords, List.length_flatMap, Nat.mul_comm]

@[simp] theorem length_leWords (f : ℕ → UInt16) (n : ℕ) : (leWords f n).length = 2 * n := by
  simp [leWords, List.length_flatMap, Nat.mul_comm]

/-- Bytes taken two by two are words. -/
theorem map_range_eq_beWords (g : ℕ → UInt8) (n : ℕ) :
    (List.range (2 * n)).map g = beWords (fun k => be16 (g (2 * k)) (g (2 * k + 1))) n := by
  rw [← flatMap_pairs]
  simp only [beWords, hi_be16, lo_be16, Nat.mul_comm 2]

theorem leWords_succ (f : ℕ → UInt16) (n : ℕ) : leWords f (n + 1) = leWords f n ++ [lo (f n), hi (f n)] := by
  simp [leWords, List.range_succ, List.flatMap_append]

theorem leWords_add (f : ℕ → UInt16) (n m : ℕ) :
    leWords f (n + m) = leWords f n ++ leWords (fun k => f (n + k)) m := by
  simp [leWords, List.range_add, List.flatMap_append, List.flatMap_map]

/-- The bytes sent determine the words. -/
theorem beWords_inj {f g : ℕ → UInt16} {n : ℕ} (h : beWords f n = beWords g n) : ∀ k < n, f k = g k := by
  induction n with
  | zero => exact fun k hk => absurd hk (Nat.not_lt_zero k)
  | succ n ih =>
    simp only [beWords, List.range_succ, List.flatMap_append] at h
    obtain ⟨hinit, hlast⟩ := List.append_inj' h (by simp)
    intro k hk
    rcases Nat.lt_succ_iff_lt_or_eq.mp hk with hlt | rfl
    · exact ih hinit k hlt
    · simp only [List.flatMap_cons, List.flatMap_nil, List.append_nil, List.cons.injEq, and_true] at hlast
      rw [← be16_hi_lo (f k), hlast.1, hlast.2, be16_hi_lo]

theorem sum_words_lt (f : ℕ → UInt16) (n : ℕ) :
    ∑ k ∈ Finset.range n, (f k).toNat * 65536 ^ k < 65536 ^ n := by
  induction n with
  | zero => simp
  | succ n ih =>
    have hw := (f n).toNat_lt
    rw [Finset.sum_range_succ]
    calc _ < 65536 ^ n + (f n).toNat * 65536 ^ n := by omega
      _ = ((f n).toNat + 1) * 65536 ^ n := by ring
      _ ≤ 65536 * 65536 ^ n := Nat.mul_le_mul_right _ (by omega)
      _ = 65536 ^ (n + 1) := (pow_succ' _ _).symm

/-- Words with the low byte first are the bytes of one number. -/
theorem leWords_eq (f : ℕ → UInt16) (n : ℕ) :
    leWords f n = leBytes (2 * n) (∑ k ∈ Finset.range n, (f k).toNat * 65536 ^ k) := by
  have hpow (m : ℕ) : 65536 ^ m = 256 ^ (2 * m) := by rw [pow_mul]; norm_num
  induction n with
  | zero => rfl
  | succ n ih =>
    have hword : [lo (f n), hi (f n)] = leBytes 2 (f n).toNat := by
      simp only [leBytes, List.cons.injEq, and_true, true_and, ← UInt8.toNat_inj, toNat_lo, toNat_hi, UInt8.toNat_ofNat']
      have hw := (f n).toNat_lt
      omega
    rw [leWords_succ, ih, hword, ← leBytes_add (by rw [← hpow]; exact sum_words_lt f n), Finset.sum_range_succ, ← hpow,
      Nat.mul_comm (65536 ^ n)]
    rfl

/-- A run of words is a slice of the bytes. -/
theorem slice_leWords (f : ℕ → UInt16) {i m n : ℕ} (h : i + m ≤ n) :
    ((leWords f n).drop (2 * i)).take (2 * m) = leWords (fun k => f (i + k)) m := by
  obtain ⟨r, rfl⟩ := Nat.exists_eq_add_of_le h
  rw [Nat.add_assoc, leWords_add, List.drop_left' (by simp), leWords_add, List.take_left' (by simp)]

/-- Words as they are sent, with all bytes reversed. -/
theorem reverse_beWords (f : ℕ → UInt16) (n : ℕ) : (beWords f n).reverse = leWords (fun k => f (n - 1 - k)) n := by
  have hwords : beWords f n = ((List.range n).map fun k => [hi (f k), lo (f k)]).flatten := rfl
  rw [hwords, List.reverse_flatten, List.map_map, reverse_map_range]
  rfl

/-! ### Words as one number -/

/-- What a little-endian host keeps of `n` words that are one number: with `bigEndian`
the first word is the most significant one, else the least significant one. -/
def hostBytes (bigEndian : Bool) (n : ℕ) (f : ℕ → UInt16) : List UInt8 :=
  if bigEndian then leWords (fun k => f (n - 1 - k)) n else leWords f n

@[simp] theorem length_hostBytes (bigEndian : Bool) (n : ℕ) (f : ℕ → UInt16) :
    (hostBytes bigEndian n f).length = 2 * n := by
  cases bigEndian <;> simp [hostBytes]

theorem hostBytes_congr {bigEndian : Bool} {n : ℕ} {f g : ℕ → UInt16} (h : ∀ k < n, f k = g k) :
    hostBytes bigEndian n f = hostBytes bigEndian n g := by
  cases bigEndian with
  | false => exact List.flatMap_congr fun k hk => by rw [h k (List.mem_range.mp hk)]
  | true =>
    apply List.flatMap_congr
    intro k hk
    rw [List.mem_range] at hk
    simp only [h (n - 1 - k) (by omega)]

/-- Some of the words of a larger number, by their place in its bytes. -/
theorem slice_hostBytes (f : ℕ → UInt16) {i m n : ℕ} (h : i + m ≤ n) :
    ((hostBytes true n f).drop (2 * i)).take (2 * m) = hostBytes true m fun k => f (n - i - m + k) := by
  rw [hostBytes, if_pos rfl, slice_leWords _ h, hostBytes, if_pos rfl]
  apply List.flatMap_congr
  intro k hk
  rw [List.mem_range] at hk
  simp only [show n - 1 - (i + k) = n - i - m + (m - 1 - k) by omega]

/-- **The number that the words are.** -/
theorem hostBytes_eq (bigEndian : Bool) (n : ℕ) (f : ℕ → UInt16) :
    hostBytes bigEndian n f =
      leBytes (2 * n) (∑ k ∈ Finset.range n, (f k).toNat * 65536 ^ (if bigEndian then n - 1 - k else k)) := by
  cases bigEndian with
  | false => exact leWords_eq f n
  | true =>
    rw [hostBytes, if_pos rfl, leWords_eq, ← Finset.sum_range_reflect]
    congr 1
    apply Finset.sum_congr rfl
    intro k hk
    rw [Finset.mem_range] at hk
    rw [show n - 1 - (n - 1 - k) = k by omega, if_pos rfl]

/-- Zero words are zero bytes. -/
theorem hostBytes_zero (bigEndian : Bool) (n : ℕ) : hostBytes bigEndian n (fun _ => 0) = List.replicate (2 * n) 0 := by
  have hzero : leWords (fun _ => 0) n = List.replicate (2 * n) 0 := by
    induction n with
    | zero => rfl
    | succ n ih => rw [leWords_succ, ih, show 2 * (n + 1) = 2 * n + 2 by omega, List.replicate_add]; rfl
  cases bigEndian <;> exact hzero

/-! ### Objects -/

/-- A type of objects that the host keeps as a fixed number of bytes. -/
class Stored (α : Type) where
  /-- `sizeof`. -/
  size : ℕ
  /-- The bytes of an object. -/
  toBytes : α → List UInt8
  /-- The object with the given bytes. -/
  ofBytes : List UInt8 → α
  /-- Every object has as many bytes. -/
  length_toBytes : ∀ x, (toBytes x).length = size
  /-- The bytes determine the object. -/
  ofBytes_toBytes : ∀ x, ofBytes (toBytes x) = x

export Stored (toBytes ofBytes length_toBytes ofBytes_toBytes)

instance : Stored UInt16 where
  size := 2
  toBytes x := leBytes 2 x.toNat
  ofBytes bs := UInt16.ofNat (leValue bs)
  length_toBytes _ := length_leBytes _ _
  ofBytes_toBytes x := by
    rw [leValue_leBytes, Nat.mod_eq_of_lt (by exact x.toNat_lt), UInt16.ofNat_toNat]

instance : Stored UInt32 where
  size := 4
  toBytes x := leBytes 4 x.toNat
  ofBytes bs := UInt32.ofNat (leValue bs)
  length_toBytes _ := length_leBytes _ _
  ofBytes_toBytes x := by
    rw [leValue_leBytes, Nat.mod_eq_of_lt (by exact x.toNat_lt), UInt32.ofNat_toNat]

instance : Stored Int16 where
  size := 2
  toBytes x := toBytes x.toUInt16
  ofBytes bs := (ofBytes bs : UInt16).toInt16
  length_toBytes _ := length_leBytes _ _
  ofBytes_toBytes x := by rw [ofBytes_toBytes]; rfl

instance : Stored Int32 where
  size := 4
  toBytes x := toBytes x.toUInt32
  ofBytes bs := (ofBytes bs : UInt32).toInt32
  length_toBytes _ := length_leBytes _ _
  ofBytes_toBytes x := by rw [ofBytes_toBytes]; rfl

end ModbusProxy.Endian
