import ModbusProxy.Library.JsonText
import ModbusProxy.Library.Rounding

/-!
# Decimal numbers

Numbers as they are printed: integers with a sign, and fractions rounded to so many
decimals, of two nearest to the one with the even last digit. What is printed reads again
as the number that was rounded to (`read_integer`, `read_rounded`).
-/

namespace ModbusProxy.Decimal

open CString JsonText Rounding

/-! ### Digits -/

/-- The digits of a natural number. -/
def natural (n : ℕ) : List UInt8 := ascii (toString n)

/-- The last `d` digits of a number, with zeros in front. -/
def padded : ℕ → ℕ → List UInt8
  | 0, _ => []
  | d + 1, n => padded d (n / 10) ++ [UInt8.ofNat (48 + n % 10)]

/-- The number that digits stand for. -/
def digitsValue (l : List UInt8) : ℕ := l.foldl (fun v c => 10 * v + (c.toNat - 48)) 0

theorem toNat_digit {n : ℕ} {c : Char} (h : c ∈ Nat.toDigits 10 n) : 48 ≤ c.toNat ∧ c.toNat ≤ 57 := by
  have hdigit := Nat.isDigit_of_mem_toDigits (by decide) (by decide) h
  simp only [Char.isDigit, Bool.and_eq_true, decide_eq_true_eq, ge_iff_le, UInt32.le_iff_toNat_le] at hdigit
  exact hdigit

theorem isDigit_iff {c : UInt8} : isDigit c = true ↔ 48 ≤ c.toNat ∧ c.toNat ≤ 57 := by
  rw [isDigit, Bool.and_eq_true, decide_eq_true_eq, decide_eq_true_eq, UInt8.le_iff_toNat_le, UInt8.le_iff_toNat_le]
  rfl

theorem digit_toDigits {n : ℕ} {c : Char} (h : c ∈ Nat.toDigits 10 n) : isDigit (UInt8.ofNat c.toNat) = true := by
  obtain ⟨hlo, hhi⟩ := toNat_digit h
  rw [isDigit_iff, UInt8.toNat_ofNat']
  omega

theorem natural_eq (n : ℕ) : natural n = (Nat.toDigits 10 n).map fun c => UInt8.ofNat c.toNat := by
  rw [natural, ascii, Nat.toString_eq_repr, Nat.toList_repr]

theorem isDigit_natural (n : ℕ) : ∀ c ∈ natural n, isDigit c = true := by
  rw [natural_eq]
  intro c hc
  obtain ⟨d, hd, rfl⟩ := List.mem_map.mp hc
  exact digit_toDigits hd

theorem natural_ne_nil (n : ℕ) : natural n ≠ [] := by
  rw [natural_eq, ne_eq, List.map_eq_nil_iff]
  exact Nat.toDigits_ne_nil

theorem digitsValue_append (l m : List UInt8) :
    digitsValue (l ++ m) = 10 ^ m.length * digitsValue l + digitsValue m := by
  induction m using List.reverseRecOn with
  | nil => rw [List.append_nil, List.length_nil, pow_zero, one_mul]; rfl
  | append_singleton m c ih =>
    have hlast (l : List UInt8) : digitsValue (l ++ [c]) = 10 * digitsValue l + (c.toNat - 48) := by
      rw [digitsValue, List.foldl_append]
      rfl
    rw [← List.append_assoc, hlast, hlast, ih, List.length_append, pow_add]
    simp only [List.length_singleton, pow_one]
    ring

theorem digitsValue_digit {n : ℕ} (h : n < 10) : digitsValue [UInt8.ofNat (48 + n)] = n := by
  change 10 * 0 + ((UInt8.ofNat (48 + n)).toNat - 48) = n
  rw [UInt8.toNat_ofNat']
  omega

theorem toNat_digitChar {n : ℕ} (h : n < 10) : (n.digitChar).toNat = 48 + n := by
  interval_cases n <;> rfl

theorem digitsValue_natural (n : ℕ) : digitsValue (natural n) = n := by
  induction n using Nat.strong_induction_on with
  | _ n ih =>
    rw [natural_eq]
    by_cases hsmall : n < 10
    · rw [Nat.toDigits_of_lt_base hsmall, List.map_singleton, toNat_digitChar hsmall]
      exact digitsValue_digit hsmall
    · have hlt : n % 10 < 10 := Nat.mod_lt _ (by decide)
      rw [Nat.toDigits_of_base_le (by decide) (by omega), List.map_append, ← natural_eq, digitsValue_append,
        ih (n / 10) (by omega), List.map_singleton, toNat_digitChar hlt, digitsValue_digit hlt, List.length_singleton,
        pow_one]
      exact Nat.div_add_mod n 10

@[simp] theorem length_padded (d n : ℕ) : (padded d n).length = d := by
  induction d generalizing n with
  | zero => rfl
  | succ d ih => rw [padded, List.length_append, ih, List.length_singleton]

theorem isDigit_padded (d n : ℕ) : ∀ c ∈ padded d n, isDigit c = true := by
  induction d generalizing n with
  | zero => exact fun c hc => absurd hc List.not_mem_nil
  | succ d ih =>
    intro c hc
    rcases List.mem_append.mp hc with hc | hc
    · exact ih _ c hc
    · have hlt : n % 10 < 10 := Nat.mod_lt _ (by decide)
      rw [List.mem_singleton.mp hc, isDigit_iff, UInt8.toNat_ofNat']
      omega

theorem digitsValue_padded {d n : ℕ} (h : n < 10 ^ d) : digitsValue (padded d n) = n := by
  induction d generalizing n with
  | zero =>
    obtain rfl : n = 0 := by rw [pow_zero] at h; omega
    rfl
  | succ d ih =>
    have hlt : n % 10 < 10 := Nat.mod_lt _ (by decide)
    rw [pow_succ] at h
    rw [padded, digitsValue_append, ih (Nat.div_lt_of_lt_mul (by rwa [mul_comm])), digitsValue_digit hlt,
      List.length_singleton, pow_one]
    exact Nat.div_add_mod n 10

/-- A decimal number with more than one digit does not begin with a zero. -/
theorem head_toDigits (n : ℕ) : ∃ c l, Nat.toDigits 10 n = c :: l ∧ (c = '0' → l = []) := by
  induction n using Nat.strong_induction_on with
  | _ n ih =>
    by_cases hsmall : n < 10
    · exact ⟨_, [], Nat.toDigits_of_lt_base hsmall, fun _ => rfl⟩
    · obtain ⟨c, l, hdigits, hzero⟩ := ih (n / 10) (by omega)
      refine ⟨c, l ++ [(n % 10).digitChar], ?_, fun hc => ?_⟩
      · rw [Nat.toDigits_of_base_le (by decide) (by omega), hdigits, List.cons_append]
      · -- a single zero is the number zero
        rw [hc, hzero hc] at hdigits
        have hvalue := Nat.ofDigitChars_ten_toDigits (n := n / 10)
        rw [hdigits] at hvalue
        have hdiv : n / 10 = 0 := hvalue.symm
        omega

/-! ### Numbers -/

/-- So many units of the last of `d` decimals. -/
def fixed (d n : ℕ) : List UInt8 := natural (n / 10 ^ d) ++ if d = 0 then [] else 46 :: padded d (n % 10 ^ d)

/-- A number with or without a sign in front. -/
def signed (negative : Bool) (t : List UInt8) : List UInt8 := if negative then 45 :: t else t

/-- An integer. -/
def integer (z : ℤ) : List UInt8 := signed (z < 0) (natural z.natAbs)

/-- A fraction, rounded to `d` decimals. -/
def rounded (d : ℕ) (q : ℚ) : List UInt8 := signed (q < 0) (fixed d (nearestEven (|q| * 10 ^ d)).toNat)

/-- The value of a number without a sign. -/
def readUnsigned (l : List UInt8) : Option ℚ :=
  if l.takeWhile isDigit = [] then none
  else match l.dropWhile isDigit with
    | [] => some (digitsValue l)
    | c :: fs =>
      if c = 46 ∧ fs ≠ [] ∧ fs.all isDigit then
        some (digitsValue (l.takeWhile isDigit) + digitsValue fs / 10 ^ fs.length)
      else none

/-- The value of a number. -/
def read : List UInt8 → Option ℚ
  | [] => none
  | c :: l => if c = 45 then (readUnsigned l).map Neg.neg else readUnsigned (c :: l)

theorem takeWhile_natural (n : ℕ) {r : List UInt8} (hr : ∀ c, r.head? = some c → isDigit c = false) :
    (natural n ++ r).takeWhile isDigit = natural n ∧ (natural n ++ r).dropWhile isDigit = r := by
  have hall := isDigit_natural n
  rw [List.takeWhile_append_of_pos hall, List.dropWhile_append_of_pos hall]
  cases r with
  | nil => exact ⟨List.append_nil _, rfl⟩
  | cons c r =>
    have hc := hr c rfl
    rw [List.takeWhile_cons_of_neg (by rw [hc]; decide), List.dropWhile_cons_of_neg (by rw [hc]; decide), List.append_nil]
    exact ⟨rfl, rfl⟩

theorem readUnsigned_fixed (d n : ℕ) : readUnsigned (fixed d n) = some ((n : ℚ) / 10 ^ d) := by
  have hne := natural_ne_nil (n / 10 ^ d)
  by_cases hd : d = 0
  · subst hd
    obtain ⟨htake, hdrop⟩ := takeWhile_natural n (r := []) (fun c hc => by cases hc)
    rw [List.append_nil] at htake hdrop
    rw [fixed, if_pos rfl, List.append_nil, pow_zero, Nat.div_one, readUnsigned, htake, hdrop,
      if_neg (natural_ne_nil n), digitsValue_natural, pow_zero, div_one]
  · obtain ⟨htake, hdrop⟩ := takeWhile_natural (n / 10 ^ d) (r := 46 :: padded d (n % 10 ^ d)) (by
      intro c hc
      cases hc
      rfl)
    have hpadded : padded d (n % 10 ^ d) ≠ [] := List.ne_nil_of_length_pos (by rw [length_padded]; omega)
    have hlt : n % 10 ^ d < 10 ^ d := Nat.mod_lt _ (by positivity)
    rw [fixed, if_neg hd, readUnsigned, htake, hdrop, if_neg hne]
    simp only
    rw [if_pos ⟨trivial, hpadded, List.all_eq_true.mpr (isDigit_padded d _)⟩, digitsValue_natural,
      digitsValue_padded hlt, length_padded]
    have hsplit : (n : ℚ) = 10 ^ d * (n / 10 ^ d : ℕ) + (n % 10 ^ d : ℕ) := by
      exact_mod_cast (Nat.div_add_mod n (10 ^ d)).symm
    rw [hsplit]
    field_simp

theorem readUnsigned_head {l : List UInt8} {q : ℚ} (h : readUnsigned l = some q) : ∃ c t, l = c :: t ∧ c ≠ 45 := by
  cases l with
  | nil => cases h
  | cons c t =>
    refine ⟨c, t, rfl, ?_⟩
    rintro rfl
    cases h

theorem read_signed {l : List UInt8} {q : ℚ} (h : readUnsigned l = some q) (negative : Bool) :
    read (signed negative l) = some (if negative then -q else q) := by
  cases negative with
  | true =>
    change (readUnsigned l).map Neg.neg = _
    rw [h]
    rfl
  | false =>
    obtain ⟨c, t, rfl, hc⟩ := readUnsigned_head h
    exact (if_neg hc).trans h

/-- Digits read as the number that they stand for. -/
theorem read_digits {l : List UInt8} (hne : l ≠ []) (hl : ∀ c ∈ l, isDigit c = true) : read l = some (digitsValue l : ℚ) := by
  have hunsigned : readUnsigned l = some (digitsValue l : ℚ) := by
    rw [readUnsigned, List.takeWhile_eq_self_iff.mpr hl, if_neg hne, List.dropWhile_eq_nil_iff.mpr hl]
  exact read_signed hunsigned false

theorem integer_natCast (n : ℕ) : integer n = natural n := by
  rw [integer, Int.natAbs_natCast, decide_eq_false (not_lt.mpr (Int.natCast_nonneg n))]
  rfl

/-- **An integer reads as itself.** -/
theorem read_integer (z : ℤ) : read (integer z) = some (z : ℚ) := by
  have h := readUnsigned_fixed 0 z.natAbs
  rw [fixed, if_pos rfl, List.append_nil, pow_zero, Nat.div_one, pow_zero, div_one] at h
  rw [integer, read_signed h]
  congr 1
  by_cases hz : z < 0
  · rw [if_pos (decide_eq_true hz), Nat.cast_natAbs, abs_of_neg hz, Int.cast_neg, neg_neg]
  · rw [if_neg (by simpa using hz), Nat.cast_natAbs, abs_of_nonneg (not_lt.mp hz)]

/-- **A fraction reads as what it was rounded to.** -/
theorem read_rounded (d : ℕ) (q : ℚ) : read (rounded d q) = some ((nearestEven (q * 10 ^ d) : ℚ) / 10 ^ d) := by
  have hnonneg : 0 ≤ nearestEven (|q| * 10 ^ d) := by
    have h := nearestEven_mono (show (0 : ℤ) ≤ |q| * 10 ^ d by push_cast; positivity)
    rwa [nearestEven_intCast] at h
  have hnat : ((nearestEven (|q| * 10 ^ d)).toNat : ℚ) = nearestEven (|q| * 10 ^ d) := by
    exact_mod_cast Int.toNat_of_nonneg hnonneg
  rw [rounded, read_signed (readUnsigned_fixed d _), hnat]
  congr 1
  by_cases hq : q < 0
  · rw [if_pos (decide_eq_true hq), abs_of_neg hq, neg_mul, nearestEven_neg, Int.cast_neg, neg_div, neg_neg]
  · rw [if_neg (by simpa using hq), abs_of_nonneg (not_lt.mp hq)]

/-! ### Characters -/

/-- A character of a number. -/
def IsNumeral (c : UInt8) : Prop := isDigit c = true ∨ c = 45 ∨ c = 46

theorem isNumeral_signed {negative : Bool} {t : List UInt8} (ht : ∀ c ∈ t, IsNumeral c) :
    ∀ c ∈ signed negative t, IsNumeral c := by
  cases negative with
  | true => exact List.forall_mem_cons.mpr ⟨.inr (.inl rfl), ht⟩
  | false => exact ht

theorem isNumeral_integer (z : ℤ) : ∀ c ∈ integer z, IsNumeral c :=
  isNumeral_signed fun c hc => .inl (isDigit_natural _ c hc)

theorem isNumeral_rounded (d : ℕ) (q : ℚ) : ∀ c ∈ rounded d q, IsNumeral c := by
  apply isNumeral_signed
  intro c hc
  rcases List.mem_append.mp hc with hc | hc
  · exact .inl (isDigit_natural _ c hc)
  · split at hc
    · cases hc
    · rcases List.mem_cons.mp hc with rfl | hc
      · exact .inr (.inr rfl)
      · exact .inl (isDigit_padded _ _ c hc)

end ModbusProxy.Decimal
