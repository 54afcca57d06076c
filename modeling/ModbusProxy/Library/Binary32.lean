import Mathlib
import ModbusProxy.Library.Quantize
import ModbusProxy.Library.Rounding

/-!
# Floats of 32 bits

What the operations on `Float32` do to the numbers that the floats stand for. A float is
unpacked into a sign, a mantissa and an exponent; an operation is carried out on these with
two residual bits for what is lost, and its result is rounded by them and packed again.

## What is proved

A float `Stands` for a number if it is a zero or a normal float with that number. In the
range of the normal floats a product and a quotient stand for the exact ones rounded to 24
binary digits (`Stands.mul`, `Stands.div`), and so does a converted integer
(`stands_ofInt`); the sign and the integer part are those of the number.
-/

namespace ModbusProxy.Binary32

open Float.Model Float.Model.UnpackedFloat Rounding

/-! ### Residual bits -/

/-- The number is the mantissa and a fraction that the residual bits describe. -/
def Located (em : ExtendedMantissa) (x : ℚ) : Prop :=
  match em.roundBit, em.stickyBit with
  | false, false => x = em.mantissa
  | false, true => em.mantissa < x ∧ x < em.mantissa + 1 / 2
  | true, false => x = em.mantissa + 1 / 2
  | true, true => em.mantissa + 1 / 2 < x ∧ x < em.mantissa + 1

variable {em : ExtendedMantissa} {x : ℚ}

theorem Located.mem (h : Located em x) : (em.mantissa : ℚ) ≤ x ∧ x < em.mantissa + 1 := by
  obtain ⟨m, r, s⟩ := em
  cases r <;> cases s <;> simp only [Located] at h <;> constructor <;> linarith

/-- Rounding by the residual bits is rounding to the nearest integer. -/
theorem Located.roundedMantissa (h : Located em x) : (em.roundedMantissa : ℤ) = nearestEven x := by
  obtain ⟨m, r, s⟩ := em
  symm
  apply nearestEven_eq
  cases r <;> cases s <;> simp only [Located] at h
  case false.false =>
    refine .inl ?_
    simp [ExtendedMantissa.roundedMantissa, ExtendedMantissa.accuracy, Accuracy.roundToNearestEven, h]
  case false.true =>
    refine .inl ?_
    simp only [ExtendedMantissa.roundedMantissa, ExtendedMantissa.accuracy, Accuracy.roundToNearestEven, Int.cast_natCast]
    rw [abs_of_pos (by linarith)]
    linarith
  case true.false =>
    refine .inr ⟨?_, ?_⟩
    · simp only [ExtendedMantissa.roundedMantissa, ExtendedMantissa.accuracy, Accuracy.roundToNearestEven]
      rw [h]
      rcases Nat.mod_two_eq_zero_or_one m with hm | hm <;> rw [hm] <;> push_cast
      · rw [show (m : ℚ) + 1 / 2 - (m + 0) = 1 / 2 by ring]
        norm_num
      · rw [show (m : ℚ) + 1 / 2 - (m + 1) = -(1 / 2) by ring, abs_neg]
        norm_num
    · simp only [ExtendedMantissa.roundedMantissa, ExtendedMantissa.accuracy, Accuracy.roundToNearestEven]
      omega
  case true.true =>
    refine .inl ?_
    simp only [ExtendedMantissa.roundedMantissa, ExtendedMantissa.accuracy, Accuracy.roundToNearestEven]
    push_cast
    rw [abs_of_neg (by linarith)]
    linarith

theorem Located.shiftRightOne (h : Located em x) : Located em.shiftRightOne (x / 2) := by
  obtain ⟨m, r, s⟩ := em
  obtain ⟨k, hk | hk⟩ : ∃ k, m = 2 * k ∨ m = 2 * k + 1 := ⟨m / 2, by omega⟩
  · have hhalf : m / 2 = k := by omega
    have hbit : (m % 2 != 0) = false := by simp [hk]
    have hm : (m : ℚ) = 2 * k := by exact_mod_cast hk
    cases r <;> cases s <;>
      simp only [Located, ExtendedMantissa.shiftRightOne, hhalf, hbit, hm, Bool.or_false, Bool.or_true, Bool.or_self] at h ⊢
    case false.false => linarith
    all_goals constructor <;> linarith
  · have hhalf : m / 2 = k := by omega
    have hbit : (m % 2 != 0) = true := by simp [hk]
    have hm : (m : ℚ) = 2 * k + 1 := by exact_mod_cast hk
    cases r <;> cases s <;>
      simp only [Located, ExtendedMantissa.shiftRightOne, hhalf, hbit, hm, Bool.or_false, Bool.or_true, Bool.or_self] at h ⊢
    case false.false => linarith
    all_goals constructor <;> linarith

/-- A shift keeps what the residual bits describe. -/
theorem Located.shiftRight (h : Located em x) (n : ℕ) : Located (em >>> n) (x / 2 ^ n) := by
  change Located (n.repeat ExtendedMantissa.shiftRightOne em) _
  induction n with
  | zero =>
    rw [pow_zero, div_one]
    exact h
  | succ n ih =>
    rw [Nat.repeat, pow_succ, ← div_div]
    exact ih.shiftRightOne

/-! ### Rounding -/

section Rounding

variable {s : Sign} {m : ℕ} {e : ℤ} {acc : Accuracy}

theorem log2_eq {n k : ℕ} (hlow : 2 ^ k ≤ n) (hhigh : n < 2 ^ (k + 1)) : n.log2 = k := by
  have hn : n ≠ 0 := Nat.ne_zero_of_lt (Nat.lt_of_lt_of_le (Nat.two_pow_pos k) hlow)
  have h1 := (Nat.le_log2 hn).mpr hlow
  have h2 := (Nat.log2_lt hn).mpr hhigh
  omega

theorem le_log {k : ℤ} (h : (2 : ℚ) ^ k ≤ x) : k ≤ Int.log 2 x :=
  (Int.zpow_le_iff_le_log (by decide) ((zpow_pos (by norm_num) k).trans_le h)).mp (by rwa [Nat.cast_ofNat])

theorem log_lt {k : ℤ} (hx : 0 < x) (h : x < (2 : ℚ) ^ k) : Int.log 2 x < k :=
  (Int.lt_zpow_iff_log_lt (by decide) hx).mp (by rwa [Nat.cast_ofNat])

/-- The position of the first digit is that of the mantissa. -/
theorem totalExponent_eq (hm : 0 < m) (h : (m : ℚ) ≤ x / 2 ^ e ∧ x / 2 ^ e < m + 1) :
    totalExponent m e = Int.log 2 x + 1 := by
  have hpos : (0 : ℚ) < 2 ^ e := zpow_pos (by norm_num) _
  have hx : 0 < x := by
    have : (0 : ℚ) < m := by exact_mod_cast hm
    exact (div_pos_iff_of_pos_right hpos).mp (this.trans_le h.1)
  rw [le_div_iff₀ hpos, div_lt_iff₀ hpos] at h
  have hlow : ((2 ^ m.log2 : ℕ) : ℚ) ≤ m := by exact_mod_cast Nat.log2_self_le hm.ne'
  have hhigh : (m : ℚ) + 1 ≤ ((2 ^ (m.log2 + 1) : ℕ) : ℚ) := by exact_mod_cast Nat.lt_log2_self
  push_cast at hlow hhigh
  have h1 : (2 : ℚ) ^ (m.log2 + e) ≤ x := by
    rw [zpow_add₀ (by norm_num), zpow_natCast]
    exact (mul_le_mul_of_nonneg_right hlow hpos.le).trans h.1
  have h2 : x < (2 : ℚ) ^ (m.log2 + 1 + e) := by
    rw [zpow_add₀ (by norm_num), ← Nat.cast_succ, zpow_natCast]
    exact h.2.trans_le (mul_le_mul_of_nonneg_right hhigh hpos.le)
  have h1' := le_log h1
  have h2' := log_lt hx h2
  rw [totalExponent]
  omega

/-- A unit of the last digit, and how many of them there are. -/
theorem located_digits (hx : 0 < x) {t : ℤ} (ht : t = Int.log 2 x - 23) : (2 ^ 23 : ℤ) ≤ nearestEven (x / 2 ^ t) ∧
    nearestEven (x / 2 ^ t) ≤ 2 ^ 24 ∧ unit 24 x = 2 ^ t := by
  have hpos : (0 : ℚ) < 2 ^ t := zpow_pos (by norm_num) _
  have hunit : unit 24 x = 2 ^ t := by
    rw [unit, abs_of_pos hx, ht]
    congr 1
    push_cast
    ring
  obtain ⟨hlow, hhigh⟩ := unit_mul_le (p := 24) hx.ne'
  rw [hunit, abs_of_pos hx] at hlow hhigh
  have h1 : (((2 ^ 23 : ℤ)) : ℚ) ≤ x / 2 ^ t := by
    rw [le_div_iff₀ hpos]
    push_cast
    linarith
  have h2 : x / 2 ^ t ≤ ((2 ^ 24 : ℤ) : ℚ) := by
    rw [div_le_iff₀ hpos]
    push_cast
    linarith
  refine ⟨?_, ?_, hunit⟩
  · have := nearestEven_mono h1
    rwa [nearestEven_intCast] at this
  · have := nearestEven_mono h2
    rwa [nearestEven_intCast] at this

theorem shiftToExponent_eq (m : ℕ) (e : ℤ) (acc : Accuracy) (n : ℕ) :
    shiftToExponent m e acc (e + n) = (ExtendedMantissa.ofMantissaAndAccuracy m acc >>> n, e + n) := by
  rw [shiftToExponent, show (e + n - e).toNat = n by omega]

theorem targetExponent_eq {t : ℤ} (ht : -149 ≤ t) : Format.binary32.targetExponent (t + 24) = t := by
  have hdigits : (Format.binary32.mantissaBits : ℤ) = 24 := rfl
  have hleast : Format.binary32.minExponent = -149 := rfl
  rw [Format.targetExponent, hdigits, hleast]
  omega

/-- After rounding there may be a digit more, which is dropped: it is a zero. -/
theorem shift_rounded {r : ℕ} {t : ℤ} (hlow : 2 ^ 23 ≤ r) (hhigh : r ≤ 2 ^ 24) (ht : -149 ≤ t) :
    ∃ em e', shiftToTargetExponent .binary32 r t .exact = (em, e') ∧ 2 ^ 23 ≤ em.mantissa ∧ em.mantissa < 2 ^ 24 ∧
      t ≤ e' ∧ e' ≤ t + 1 ∧ (em.mantissa : ℚ) * 2 ^ e' = r * 2 ^ t := by
  rcases Nat.lt_or_eq_of_le hhigh with hlt | rfl
  · have htotal : totalExponent r t = t + 24 := by
      rw [totalExponent, log2_eq hlow hlt]
      push_cast
      ring
    have hshift := shiftToExponent_eq r t .exact 0
    rw [Nat.cast_zero, add_zero] at hshift
    refine ⟨_, _, by rw [shiftToTargetExponent, htotal, targetExponent_eq ht, hshift], ?_⟩
    exact ⟨hlow, hlt, le_rfl, by omega, rfl⟩
  · have htotal : totalExponent (2 ^ 24) t = t + 1 + 24 := by
      rw [totalExponent, log2_eq (k := 24) le_rfl (by decide)]
      push_cast
      ring
    have hshift := shiftToExponent_eq (2 ^ 24) t .exact 1
    rw [Nat.cast_one] at hshift
    refine ⟨_, _, by rw [shiftToTargetExponent, htotal, targetExponent_eq (by omega), hshift], ?_⟩
    have hhalf : (ExtendedMantissa.ofMantissaAndAccuracy (2 ^ 24) .exact >>> 1).mantissa = 2 ^ 23 := rfl
    rw [hhalf, zpow_add_one₀ (by norm_num)]
    refine ⟨le_rfl, by decide, by omega, le_rfl, ?_⟩
    push_cast
    ring

/-- **A number that is known to be located somewhere** is rounded to 24 digits. -/
theorem roundWithAccuracy_eq (s : Sign) (hm : 0 < m) (hx : Located (.ofMantissaAndAccuracy m acc) (x / 2 ^ e))
    (he : e ≤ Int.log 2 x - 23) (hmin : -126 ≤ Int.log 2 x) :
    ∃ m' e' h, roundWithAccuracy .binary32 s m e acc = .finite s m' e' h ∧ 2 ^ 23 ≤ m' ∧ m' < 2 ^ 24 ∧ -149 ≤ e' ∧
      e' ≤ Int.log 2 x - 22 ∧ (m' : ℚ) * 2 ^ e' = toBinary 24 x := by
  have hmantissa : (ExtendedMantissa.ofMantissaAndAccuracy m acc).mantissa = m := by
    rcases acc with _ | _ | _ | _ <;> rfl
  have hmem := hmantissa ▸ hx.mem
  have hpos : 0 < x := by
    have hm' : (0 : ℚ) < m := by exact_mod_cast hm
    exact (div_pos_iff_of_pos_right (zpow_pos (by norm_num) _)).mp (hm'.trans_le hmem.1)
  obtain ⟨n, hn⟩ := Int.le.dest he
  obtain ⟨hlow, hhigh, hunit⟩ := located_digits hpos hn
  -- the first shift keeps what is known of the number
  have hfirst : shiftToTargetExponent .binary32 m e acc =
      (ExtendedMantissa.ofMantissaAndAccuracy m acc >>> n, e + n) := by
    rw [shiftToTargetExponent, totalExponent_eq hm hmem, show Int.log 2 x + 1 = e + n + 24 by omega,
      targetExponent_eq (by omega), shiftToExponent_eq]
  have hlocated : Located (ExtendedMantissa.ofMantissaAndAccuracy m acc >>> n) (x / 2 ^ (e + n)) := by
    rw [zpow_add₀ (by norm_num), zpow_natCast, ← div_div]
    exact hx.shiftRight n
  have hrounded := hlocated.roundedMantissa
  rw [← hrounded] at hlow hhigh
  obtain ⟨em, e', hsecond, hem, hem', hle, hle', hvalue⟩ :=
    shift_rounded (t := e + n) (by exact_mod_cast hlow) (by exact_mod_cast hhigh) (by omega)
  refine ⟨em.mantissa, e', Nat.lt_of_lt_of_le (by decide) hem, ?_, hem, hem', by omega, by omega, ?_⟩
  · simp only [roundWithAccuracy, hfirst, hsecond]
    rw [dif_neg (Nat.pos_iff_ne_zero.mp (Nat.lt_of_lt_of_le (by decide) hem))]
  · rw [hvalue, toBinary, hunit, ← hrounded, Int.cast_natCast]

end Rounding

/-! ### Packing -/

/-- A zero, or a float with 24 digits and an exponent that fits. -/
def Fits : UnpackedFloat → Prop
  | .zero _ => True
  | .finite _ m e _ => 2 ^ 23 ≤ m ∧ m < 2 ^ 24 ∧ -149 ≤ e ∧ e ≤ 104
  | _ => False

/-- The sign as a factor. -/
def factor : Sign → ℚ
  | .negative => -1
  | .positive => 1

/-- The number that a float stands for, if it is finite. -/
def number : UnpackedFloat → ℚ
  | .finite s m e _ => factor s * (m * 2 ^ e)
  | _ => 0

theorem unpackSign_packComponents (s : Sign) (e : BitVec 8) (m : BitVec 23) :
    unpackSign (packComponents .binary32 s e m) = s.toBitVec := by
  ext i hi
  obtain rfl : i = 0 := by omega
  have hlast : ((s.toBitVec ++ e) ++ m).getLsbD 31 = s.toBitVec[0] := by
    rw [BitVec.getLsbD_append, BitVec.getLsbD_append]
    rfl
  simp only [unpackSign, packComponents, BitVec.getElem_cast, BitVec.extractLsb, BitVec.getElem_extractLsb']
  exact hlast

theorem ofBitVec_toBitVec (s : Sign) : Sign.ofBitVec s.toBitVec = s := by
  cases s <;> rfl

theorem unpack_pack {f : UnpackedFloat} (hf : Fits f) : (Float32.Model.pack f).unpack = f := by
  change UnpackedFloat.unpack .binary32 (UnpackedFloat.pack .binary32 f) = f
  cases f with
  | infinity s => exact hf.elim
  | notANumber => exact hf.elim
  | zero s => cases s <;> rfl
  | finite s m e hm =>
    obtain ⟨hlow, hhigh, hmin, hmax⟩ := hf
    obtain ⟨b, hb⟩ := Int.eq_ofNat_of_zero_le (show 0 ≤ e + 150 by omega)
    have hbias : (e + (Format.binary32.exponentBias : ℤ) + (23 : ℕ)).toNat = b := by
      change (e + 127 + 23).toNat = b
      omega
    have hpack : UnpackedFloat.pack .binary32 (.finite s m e hm) = packComponents .binary32 s (.ofNat 8 b) (.ofNat 23 m) := by
      rw [UnpackedFloat.pack]
      simp only [hbias, log2_eq hlow hhigh]
      rw [if_neg (by omega)]
      exact if_pos rfl
    -- the implicit digit is taken off and put on again
    have hmantissa : (1#1 ++ BitVec.ofNat 23 m).toNat = m := by
      have hlt : m % 2 ^ 23 < 2 ^ 23 := Nat.mod_lt _ (Nat.two_pow_pos 23)
      rw [BitVec.toNat_append, BitVec.toNat_ofNat, BitVec.toNat_ofNat, ← Nat.shiftLeft_add_eq_or_of_lt hlt,
        Nat.shiftLeft_eq]
      omega
    have hexponent : (BitVec.ofNat 8 b).toNat = b := by
      rw [BitVec.toNat_ofNat]
      omega
    have hzero : BitVec.ofNat 8 b ≠ 0#8 := fun h => by
      have := congrArg BitVec.toNat h
      rw [hexponent, BitVec.toNat_zero] at this
      omega
    have hones : BitVec.ofNat 8 b ≠ -1#8 := fun h => by
      have := congrArg BitVec.toNat h
      rw [hexponent] at this
      change b = 255 at this
      omega
    rw [hpack, UnpackedFloat.unpack]
    simp only [unpackMantissa_packComponents, unpackExponent_packComponents, unpackSign_packComponents,
      ofBitVec_toBitVec, if_neg hones, if_neg hzero, hmantissa, hexponent]
    congr 1
    change (b : ℤ) - (127 + 23) = e
    omega

/-! ### What a float stands for -/

/-- The float is a zero or a normal one, and stands for the number. -/
def Stands (x : Float32) (q : ℚ) : Prop := Fits x.toModel.unpack ∧ number x.toModel.unpack = q

/-- The number of a finite float. -/
def value (x : Float32) : ℚ := number x.toModel.unpack

theorem Stands.value_eq {x : Float32} {q : ℚ} (h : Stands x q) : value x = q := h.2

/-- The number is zero, or in the range of the normal floats and rounded to one of them. -/
def InRange (q : ℚ) : Prop := q = 0 ∨ 2 ^ (-126 : ℤ) ≤ |q| ∧ |q| < 2 ^ (127 : ℤ)

theorem factor_mul (s s' : Sign) : factor (s * s') = factor s * factor s' := by
  cases s <;> cases s' <;> decide +kernel

theorem factor_div (s s' : Sign) : factor (s / s') = factor s / factor s' := by
  cases s <;> cases s' <;> decide +kernel

theorem factor_neg (s : Sign) : factor (-s) = -factor s := by
  cases s <;> rfl

theorem abs_factor (s : Sign) : |factor s| = 1 := by
  cases s <;> simp [factor]

theorem factor_mul_toBinary (s : Sign) (p : ℕ) (x : ℚ) : factor s * toBinary p x = toBinary p (factor s * x) := by
  cases s
  · rw [factor, neg_one_mul, neg_one_mul, toBinary_neg]
  · rw [factor, one_mul, one_mul]

theorem InRange.magnitude {s : Sign} (h : InRange (factor s * x)) (hx : 0 < x) :
    2 ^ (-126 : ℤ) ≤ x ∧ x < 2 ^ (127 : ℤ) := by
  have habs : |factor s * x| = x := by rw [abs_mul, abs_factor, one_mul, abs_of_pos hx]
  rcases h with h | h
  · rw [h, abs_zero] at habs
    exact absurd habs hx.ne
  · rwa [habs] at h

variable {a b : Float32} {p q : ℚ}

theorem stands_pack {f : UnpackedFloat} (hf : Fits f) : Stands (.ofModel (.pack f)) (number f) := by
  rw [Stands, unpack_pack hf]
  exact ⟨hf, rfl⟩

/-- Where a float that stands for a number is a zero, and where it is not. -/
theorem Stands.cases (h : Stands a p) : (p = 0 ∧ ∃ s, a.toModel.unpack = .zero s) ∨
    ∃ s m e hm, a.toModel.unpack = .finite s m e hm ∧ 2 ^ 23 ≤ m ∧ m < 2 ^ 24 ∧ -149 ≤ e ∧ e ≤ 104 ∧
      p = factor s * (m * 2 ^ e) := by
  obtain ⟨hf, rfl⟩ := h
  generalize a.toModel.unpack = f at *
  cases f with
  | infinity s => exact hf.elim
  | notANumber => exact hf.elim
  | zero s => exact .inl ⟨rfl, s, rfl⟩
  | finite s m e hm => exact .inr ⟨s, m, e, hm, rfl, hf.1, hf.2.1, hf.2.2.1, hf.2.2.2, rfl⟩

/-- What is rounded stands for the rounded number. -/
theorem stands_round {m : ℕ} {e : ℤ} {acc : Accuracy} (s : Sign) (hm : 0 < m)
    (hx : Located (.ofMantissaAndAccuracy m acc) (x / 2 ^ e)) (he : e ≤ Int.log 2 x - 23)
    (hmin : 2 ^ (-126 : ℤ) ≤ x) (hmax : x < 2 ^ (127 : ℤ)) :
    Stands (.ofModel (.pack (roundWithAccuracy .binary32 s m e acc))) (toBinary 24 (factor s * x)) := by
  have hpos : 0 < x := (zpow_pos (by norm_num) _).trans_le hmin
  have h1 := le_log hmin
  have h2 := log_lt hpos hmax
  obtain ⟨m', e', h', heq, hlow, hhigh, hmin', hmax', hvalue⟩ := roundWithAccuracy_eq s hm hx he h1
  have hstands := stands_pack (f := .finite s m' e' h') ⟨hlow, hhigh, hmin', by omega⟩
  rwa [heq, ← factor_mul_toBinary, ← hvalue]

/-- **A product** is rounded. -/
theorem Stands.mul (ha : Stands a p) (hb : Stands b q) (hrange : InRange (p * q)) : Stands (a * b) (toBinary 24 (p * q)) := by
  change Stands (.ofModel (.pack (UnpackedFloat.mul .binary32 a.toModel.unpack b.toModel.unpack))) _
  rcases ha.cases with ⟨rfl, s, hs⟩ | ⟨s, m, e, hm, hs, hlow, hhigh, hmin, hmax, rfl⟩
  · rw [hs, zero_mul, toBinary_zero]
    rcases hb.cases with ⟨-, s', hs'⟩ | ⟨s', m', e', hm', hs', -⟩
    · rw [hs']
      exact stands_pack (f := .zero (s * s')) trivial
    · rw [hs']
      exact stands_pack (f := .zero (s * s')) trivial
  · rcases hb.cases with ⟨rfl, s', hs'⟩ | ⟨s', m', e', hm', hs', hlow', hhigh', hmin', hmax', rfl⟩
    · rw [hs, hs', mul_zero, toBinary_zero]
      exact stands_pack (f := .zero (s * s')) trivial
    · rw [hs, hs'] at *
      have hpos (k : ℤ) : (0 : ℚ) < 2 ^ k := zpow_pos (by norm_num) k
      have hm₀ : (0 : ℚ) < m := by exact_mod_cast hm
      have hm₀' : (0 : ℚ) < m' := by exact_mod_cast hm'
      generalize hx : (m : ℚ) * m' * 2 ^ (e + e') = x
      have hxpos : 0 < x := hx ▸ mul_pos (mul_pos hm₀ hm₀') (hpos _)
      have hprod : factor s * (m * 2 ^ e) * (factor s' * (m' * 2 ^ e')) = factor (s * s') * x := by
        rw [factor_mul, ← hx, zpow_add₀ (by norm_num)]
        ring
      rw [hprod] at hrange ⊢
      obtain ⟨hlo, hhi⟩ := hrange.magnitude hxpos
      refine stands_round _ (Nat.mul_pos hm hm') ?_ ?_ hlo hhi
      · rw [← hx, mul_div_assoc, div_self (hpos _).ne', mul_one]
        exact (Nat.cast_mul m m').symm
      · -- a product of two mantissas has at least 47 digits
        have hdigits : (2 : ℚ) ^ 46 ≤ m * m' := by exact_mod_cast Nat.mul_le_mul hlow hlow'
        have hlog := le_log (k := 46 + (e + e')) (x := x) (by
          rw [zpow_add₀ (by norm_num), ← hx]
          exact mul_le_mul_of_nonneg_right hdigits (hpos _).le)
        omega

/-- The quotient of two integers lies where the remainder says. -/
theorem located_quotient (n : ℕ) {d : ℕ} (hd : 0 < d) :
    Located (.ofMantissaAndAccuracy (n / d) (accuracyOfFraction (n % d) d)) ((n : ℚ) / d) := by
  have hd' : (0 : ℚ) < d := by exact_mod_cast hd
  have hsplit : (n : ℚ) / d = (n / d : ℕ) + ((n % d : ℕ) : ℚ) / d := by
    have h : (n : ℚ) = d * (n / d : ℕ) + (n % d : ℕ) := by exact_mod_cast (Nat.div_add_mod n d).symm
    rw [div_eq_iff hd'.ne', add_mul, div_mul_cancel₀ _ hd'.ne']
    linarith
  have hlt : ((n % d : ℕ) : ℚ) < d := by exact_mod_cast Nat.mod_lt n hd
  rw [hsplit]
  generalize n % d = r at *
  rcases Nat.eq_zero_or_pos r with rfl | hr
  · rw [accuracyOfFraction, if_pos rfl, Nat.cast_zero, zero_div, add_zero]
    exact rfl
  have hr' : (0 : ℚ) < r := by exact_mod_cast hr
  have hpos : 0 < (r : ℚ) / d := div_pos hr' hd'
  rw [accuracyOfFraction, if_neg hr.ne']
  rcases lt_trichotomy (2 * r) d with hlt' | heq | hgt
  · have hhalf : (r : ℚ) / d < 1 / 2 := by
      rw [div_lt_div_iff₀ hd' two_pos]
      exact_mod_cast (by omega : r * 2 < 1 * d)
    rw [Nat.compare_eq_lt.mpr hlt']
    exact ⟨lt_add_of_pos_right _ hpos, (add_lt_add_iff_left _).mpr hhalf⟩
  · have hhalf : (r : ℚ) / d = 1 / 2 := by
      rw [div_eq_div_iff hd'.ne' two_ne_zero]
      exact_mod_cast (by omega : r * 2 = 1 * d)
    rw [Nat.compare_eq_eq.mpr heq, hhalf]
    exact rfl
  · have hhalf : 1 / 2 < (r : ℚ) / d := by
      rw [div_lt_div_iff₀ two_pos hd']
      exact_mod_cast (by omega : 1 * d < r * 2)
    have hone : (r : ℚ) / d < 1 := (div_lt_one hd').mpr hlt
    rw [Nat.compare_eq_gt.mpr hgt]
    exact ⟨(add_lt_add_iff_left _).mpr hhalf, (add_lt_add_iff_left _).mpr hone⟩

/-- **A quotient** is rounded. -/
theorem Stands.div (ha : Stands a p) (hb : Stands b q) (hq : q ≠ 0) (hrange : InRange (p / q)) :
    Stands (a / b) (toBinary 24 (p / q)) := by
  change Stands (.ofModel (.pack (UnpackedFloat.div .binary32 a.toModel.unpack b.toModel.unpack))) _
  obtain ⟨s', m', e', hm', hs', hlow', hhigh', hmin', hmax', rfl⟩ := hb.cases.resolve_left fun h => hq h.1
  rcases ha.cases with ⟨rfl, s, hs⟩ | ⟨s, m, e, hm, hs, hlow, hhigh, hmin, hmax, rfl⟩
  · rw [hs, hs', zero_div, toBinary_zero]
    exact stands_pack (f := .zero (s / s')) trivial
  · rw [hs, hs'] at *
    have hpos (k : ℤ) : (0 : ℚ) < 2 ^ k := zpow_pos (by norm_num) k
    have hm₀ : (0 : ℚ) < m := by exact_mod_cast hm
    have hm₀' : (0 : ℚ) < m' := by exact_mod_cast hm'
    generalize hx : (m : ℚ) / m' * 2 ^ (e - e') = x
    have hxpos : 0 < x := hx ▸ mul_pos (div_pos hm₀ hm₀') (hpos _)
    have hquot : factor s * (m * 2 ^ e) / (factor s' * (m' * 2 ^ e')) = factor (s / s') * x := by
      rw [factor_div, ← hx, zpow_sub₀ (by norm_num), mul_div_mul_comm, mul_div_mul_comm]
    rw [hquot] at hrange ⊢
    obtain ⟨hlo, hhi⟩ := hrange.magnitude hxpos
    have hlog := le_log hlo
    have hlog' : e - e' - 1 ≤ Int.log 2 x := by
      refine le_log ?_
      have hhalf : (1 : ℚ) / 2 ≤ m / m' := by
        rw [div_le_div_iff₀ two_pos hm₀']
        exact_mod_cast (by omega : 1 * m' ≤ m * 2)
      have hle := mul_le_mul_of_nonneg_right hhalf (hpos (e - e')).le
      rw [zpow_sub_one₀ (by norm_num), ← hx]
      linarith
    -- both mantissas have 24 digits, so the quotient needs as many more
    generalize ht : min (e - e') (Format.binary32.targetExponent (totalExponent m e - totalExponent m' e')) = t
    have htarget : t ≤ e - e' ∧ t ≤ Int.log 2 x - 23 := by
      have hleast : Format.binary32.minExponent = -149 := rfl
      have hdigits : (Format.binary32.mantissaBits : ℤ) = 24 := rfl
      rw [totalExponent, totalExponent, log2_eq hlow hhigh, log2_eq hlow' hhigh', Format.targetExponent, hleast,
        hdigits] at ht
      omega
    obtain ⟨n, hn⟩ := Int.le.dest htarget.1
    have hdiv : UnpackedFloat.div .binary32 (.finite s m e hm) (.finite s' m' e' hm') =
        roundWithAccuracy .binary32 (s / s') ((m <<< n) / m') t (accuracyOfFraction ((m <<< n) % m') m') := by
      simp only [UnpackedFloat.div, divCore, ht, show (e - e' - t).toNat = n by omega]
    have hx' : x / 2 ^ t = ((m <<< n : ℕ) : ℚ) / m' := by
      rw [← hx, ← hn, Nat.shiftLeft_eq, zpow_add₀ (by norm_num), zpow_natCast, div_eq_iff (hpos t).ne']
      push_cast
      ring
    have hpos' : 0 < (m <<< n) / m' := by
      have hone : (1 : ℚ) ≤ x / 2 ^ t := by
        rw [le_div_iff₀ (hpos t), one_mul]
        have hle := Int.zpow_log_le_self (b := 2) (by decide) hxpos
        rw [Nat.cast_ofNat] at hle
        exact (zpow_le_zpow_right₀ (by norm_num) (by omega)).trans hle
      rw [hx', le_div_iff₀ hm₀', one_mul] at hone
      exact Nat.div_pos (by exact_mod_cast hone) hm'
    rw [hdiv]
    exact stands_round _ hpos' (hx' ▸ located_quotient _ hm') htarget.2 hlo hhi

/-! ### Integers -/

/-- A mantissa with any number of digits is rounded. -/
theorem stands_roundMantissa {m : ℕ} {e : ℤ} (s : Sign) (hm : 0 < m) (hrange : InRange (factor s * (m * 2 ^ e))) :
    Stands (.ofModel (.pack (UnpackedFloat.round .binary32 s m e))) (toBinary 24 (factor s * (m * 2 ^ e))) := by
  have hpos (k : ℤ) : (0 : ℚ) < 2 ^ k := zpow_pos (by norm_num) k
  have hm₀ : (0 : ℚ) < m := by exact_mod_cast hm
  generalize hx : (m : ℚ) * 2 ^ e = x at *
  have hxpos : 0 < x := hx ▸ mul_pos hm₀ (hpos _)
  obtain ⟨hlo, hhi⟩ := hrange.magnitude hxpos
  have hlog := le_log hlo
  have hexact : x / 2 ^ e = m := by rw [← hx, mul_div_assoc, div_self (hpos _).ne', mul_one]
  have htotal : totalExponent m e = Int.log 2 x - 23 + 24 := by
    rw [totalExponent_eq hm (by rw [hexact]; exact ⟨le_rfl, lt_add_one _⟩)]
    ring
  generalize ht : Int.log 2 x - 23 = t at *
  obtain ⟨n, hn⟩ : ∃ n : ℕ, (e - t).toNat = n := ⟨_, rfl⟩
  have hround : UnpackedFloat.round .binary32 s m e = roundWithAccuracy .binary32 s (m <<< n) (e - n) .exact := by
    simp only [UnpackedFloat.round, decreaseExponent, htotal, targetExponent_eq (show -149 ≤ t by omega), hn]
  rw [hround]
  refine stands_round s (by rw [Nat.shiftLeft_eq]; positivity) ?_ (by omega) hlo hhi
  have hx' : x / 2 ^ (e - n) = ((m <<< n : ℕ) : ℚ) := by
    rw [← hx, Nat.shiftLeft_eq, zpow_sub₀ (by norm_num), zpow_natCast]
    push_cast
    field_simp
  rw [hx']
  exact rfl

theorem inRange_natCast {n : ℕ} (hn : n < 2 ^ 127) : InRange n := by
  rcases Nat.eq_zero_or_pos n with rfl | hpos
  · exact .inl Nat.cast_zero
  · refine .inr ⟨?_, ?_⟩
    · rw [Nat.abs_cast]
      have hone : (1 : ℚ) ≤ n := by exact_mod_cast hpos
      refine le_trans ?_ hone
      norm_num
    · rw [Nat.abs_cast, show (127 : ℤ) = (127 : ℕ) from rfl, zpow_natCast]
      exact_mod_cast hn

theorem stands_one : Stands (Float32.ofBits 0x3F800000) 1 := by
  have hunpack : (Float32.ofBits 0x3F800000).toModel.unpack = .finite .positive 8388608 (-23) (by decide) := by
    rfl
  rw [Stands, hunpack]
  refine ⟨⟨by decide, by decide, by decide, by decide⟩, ?_⟩
  simp only [number, factor]
  norm_num

/-- A natural number that is converted. -/
theorem stands_pack_ofNat {n : ℕ} (hn : n < 2 ^ 127) :
    Stands (.ofModel (.pack (UnpackedFloat.ofNat .binary32 n))) (toBinary 24 n) := by
  rcases Nat.eq_zero_or_pos n with rfl | hpos
  · rw [Nat.cast_zero, toBinary_zero]
    exact stands_pack (f := .zero .positive) trivial
  · have hcompare : compare (n : ℤ) 0 = .gt := Int.compare_eq_gt.mpr (by omega)
    have hnumber : factor .positive * ((n : ℚ) * 2 ^ (0 : ℤ)) = n := by rw [factor, zpow_zero, mul_one, one_mul]
    have h := stands_roundMantissa (e := 0) .positive hpos (hnumber.symm ▸ inRange_natCast hn)
    rw [hnumber] at h
    simp only [UnpackedFloat.ofNat, UnpackedFloat.ofInt, UnpackedFloat.normalize, hcompare, Int.toNat_natCast]
    exact h

theorem stands_ofNat {n : ℕ} (hn : n < 2 ^ 64) : Stands (Float32.ofNat n) (toBinary 24 n) := by
  have hn' : n < 2 ^ 127 := hn.trans (by decide)
  by_cases hsmall : n < 2 ^ 23
  · -- it is multiplied by one
    have hfloat : Stands n.toUInt64.toFloat32 n := by
      have hexact : toBinary 24 (n : ℚ) = n := by
        have h := toBinary_intCast (p := 24) (by decide) (z := n) (by rw [Nat.abs_cast]; exact_mod_cast (by omega))
        exact_mod_cast h
      have h := stands_pack_ofNat hn'
      rw [hexact] at h
      have hto : n.toUInt64.toNat = n := by
        rw [Nat.toUInt64, UInt64.toNat_ofNat']
        omega
      have heq : n.toUInt64.toFloat32 = .ofModel (.pack (UnpackedFloat.ofNat .binary32 n.toUInt64.toNat)) := rfl
      rwa [heq, hto]
    have hof : Float32.ofNat n = n.toUInt64.toFloat32 * Float32.ofBits 0x3F800000 := by
      rw [Float32.ofNat]
      change Float32.ofScientific n false 0 = _
      rw [Float32.ofScientific, dif_pos ⟨hsmall, by decide⟩]
      rfl
    have h := hfloat.mul stands_one (by rw [mul_one]; exact inRange_natCast hn')
    rwa [hof, ← mul_one (n : ℚ)]
  · have hpos : 0 < n := by omega
    have hof : Float32.ofNat n = .ofModel (.pack (roundWithAccuracy .binary32 (.positive * .positive)
        ((n <<< 24) * 10 ^ 0) (-24) .exact)) := by
      change Float32.ofScientific n false 0 = _
      rw [Float32.ofScientific, dif_neg fun h => hsmall h.1]
      change Float32.ofModel (.pack (UnpackedFloat.ofScientific .binary32 n 0)) = _
      rw [UnpackedFloat.ofScientific, dif_neg hpos.ne', if_neg (by decide), if_neg (by norm_num), if_pos le_rfl]
      rfl
    have hlog : 23 ≤ Int.log 2 (n : ℚ) := le_log (by norm_num; exact_mod_cast Nat.le_of_not_lt hsmall)
    have hmagnitude := (inRange_natCast hn').resolve_left (by exact_mod_cast hpos.ne')
    rw [Nat.abs_cast] at hmagnitude
    have hlocated : Located (.ofMantissaAndAccuracy ((n <<< 24) * 10 ^ 0) .exact) ((n : ℚ) / 2 ^ (-24 : ℤ)) := by
      have hexact : (n : ℚ) / (2 : ℚ) ^ (-24 : ℤ) = (((n <<< 24) * 10 ^ 0 : ℕ) : ℚ) := by
        rw [Nat.shiftLeft_eq, zpow_neg, div_inv_eq_mul, pow_zero, mul_one]
        push_cast
        rfl
      rw [hexact]
      exact rfl
    have hmantissa : 0 < (n <<< 24) * 10 ^ 0 := by
      rw [Nat.shiftLeft_eq]
      positivity
    have h := stands_round .positive hmantissa hlocated (by omega) hmagnitude.1 hmagnitude.2
    rw [factor, one_mul] at h
    exact hof ▸ h

/-- **A negated float** stands for the negated number. -/
theorem Stands.neg {a : Float32} {p : ℚ} (h : Stands a p) : Stands (-a) (-p) := by
  change Stands (.ofModel (.pack a.toModel.unpack.neg)) _
  rcases h.cases with ⟨rfl, s, hs⟩ | ⟨s, m, e, hm, hs, hlow, hhigh, hmin, hmax, rfl⟩
  · rw [hs, neg_zero]
    exact stands_pack (f := .zero (-s)) trivial
  · rw [hs, ← neg_mul, ← factor_neg]
    exact stands_pack (f := .finite (-s) m e hm) ⟨hlow, hhigh, hmin, hmax⟩

/-- **A converted integer** is rounded. -/
theorem stands_ofInt {z : ℤ} (hz : |z| < 2 ^ 64) : Stands (Float32.ofInt z) (toBinary 24 z) := by
  rcases z with n | n
  · have h := stands_ofNat (n := n) (by rw [Int.ofNat_eq_natCast, Nat.abs_cast] at hz; exact_mod_cast hz)
    exact_mod_cast h
  · have h := stands_ofNat (n := n + 1) (by rw [Int.negSucc_eq, abs_neg] at hz; exact_mod_cast hz)
    have heq : ((Int.negSucc n : ℤ) : ℚ) = -((n + 1 : ℕ) : ℚ) := by
      rw [Int.cast_negSucc]
    rw [heq, toBinary_neg]
    exact h.neg

/-- An integer of 24 digits is converted exactly. -/
theorem stands_int {z : ℤ} (hz : |z| ≤ 2 ^ 24) : Stands (Float32.ofInt z) z := by
  have h := stands_ofInt (hz.trans_lt (by decide))
  rwa [toBinary_intCast (by decide) hz] at h

/-- The quotient of two such integers is rounded once. -/
theorem stands_ratio {z s : ℤ} (hz : |z| ≤ 2 ^ 24) (hs : 0 < s) (hs' : s ≤ 2 ^ 24) :
    Stands (Float32.ofInt z / Float32.ofInt s) (toBinary 24 (z / s)) := by
  have hspos : (0 : ℚ) < s := by exact_mod_cast hs
  have hstands : Stands (Float32.ofInt s) s := stands_int (by rwa [abs_of_pos hs])
  refine (stands_int hz).div hstands hspos.ne' ?_
  by_cases hzero : z = 0
  · exact .inl (by rw [hzero, Int.cast_zero, zero_div])
  · refine .inr ?_
    have hone : (1 : ℚ) ≤ |(z : ℚ)| := by exact_mod_cast Int.one_le_abs hzero
    have hz' : |(z : ℚ)| ≤ 2 ^ 24 := by exact_mod_cast hz
    have hs'' : (s : ℚ) ≤ 2 ^ 24 := by exact_mod_cast hs'
    rw [abs_div, abs_of_pos hspos, le_div_iff₀ hspos, div_lt_iff₀ hspos]
    have hsmall : (2 : ℚ) ^ (-126 : ℤ) * 2 ^ 24 ≤ 1 := by norm_num
    have hlarge : (2 : ℚ) ^ 24 < 2 ^ (127 : ℤ) := by norm_num
    have hone' : (1 : ℚ) ≤ s := by exact_mod_cast hs
    constructor
    · exact ((mul_le_mul_of_nonneg_left hs'' (zpow_pos (by norm_num) _).le).trans hsmall).trans hone
    · exact (hz'.trans_lt hlarge).trans_le (le_mul_of_one_le_right (zpow_pos (by norm_num) _).le hone')

/-! ### Signs and integer parts -/

section Parts

variable {a : Float32} {p : ℚ}

theorem number_sign {s : Sign} {m : ℕ} {e : ℤ} (hm : 0 < m) :
    (factor s * (m * 2 ^ e) < 0 ↔ s = .negative) ∧ factor s * (m * 2 ^ e) ≠ 0 := by
  have hpos : (0 : ℚ) < m * 2 ^ e := mul_pos (by exact_mod_cast hm) (zpow_pos (by norm_num) e)
  cases s
  · rw [factor, neg_one_mul]
    exact ⟨iff_of_true (neg_lt_zero.mpr hpos) rfl, (neg_lt_zero.mpr hpos).ne⟩
  · rw [factor, one_mul]
    exact ⟨iff_of_false hpos.not_gt Sign.noConfusion, hpos.ne'⟩

theorem unpack_zero : (0 : Float32).toModel.unpack = .zero .positive := rfl

/-- **A comparison with zero** is that of the number. -/
theorem Stands.lt_zero (h : Stands a p) : a < 0 ↔ p < 0 := by
  change decide (a.toModel.unpack.lt (0 : Float32).toModel.unpack = true) = true ↔ _
  rw [decide_eq_true_iff, unpack_zero]
  rcases h.cases with ⟨rfl, s, hs⟩ | ⟨s, m, e, hm, hs, -, -, -, -, rfl⟩
  · rw [hs]
    exact iff_of_false Bool.false_ne_true (lt_irrefl 0)
  · rw [hs, (number_sign hm).1]
    cases s
    · exact iff_of_true rfl rfl
    · exact iff_of_false Bool.false_ne_true Sign.noConfusion

theorem Stands.nonneg (h : Stands a p) : 0 ≤ a ↔ 0 ≤ p := by
  change decide ((0 : Float32).toModel.unpack.le a.toModel.unpack = true) = true ↔ _
  rw [decide_eq_true_iff, unpack_zero]
  rcases h.cases with ⟨rfl, s, hs⟩ | ⟨s, m, e, hm, hs, -, -, -, -, rfl⟩
  · rw [hs]
    exact iff_of_true rfl le_rfl
  · rw [hs, ← not_lt, (number_sign hm).1]
    cases s
    · exact iff_of_false Bool.false_ne_true (not_not.mpr rfl)
    · exact iff_of_true rfl Sign.noConfusion

/-- The part of the mantissa above the point. -/
theorem roundToInt_eq {m : ℕ} {e : ℤ} : roundToInt .positive m e = ⌊(m : ℚ) * 2 ^ e⌋ := by
  have hpos (k : ℤ) : (0 : ℚ) < 2 ^ k := zpow_pos (by norm_num) k
  obtain ⟨n, hn⟩ : ∃ n : ℕ, e.toNat = n := ⟨_, rfl⟩
  obtain ⟨k, hk⟩ : ∃ k : ℕ, e = n - k ∧ (n = 0 ∨ k = 0) := ⟨(-e).toNat, by omega, by omega⟩
  have hexact : Located (.ofMantissaAndAccuracy (m <<< n) .exact) ((m <<< n : ℕ) : ℚ) := rfl
  have hlocated := hexact.shiftRight k
  have hvalue : ((m <<< n : ℕ) : ℚ) / 2 ^ k = m * 2 ^ e := by
    rw [hk.1, Nat.shiftLeft_eq, zpow_sub₀ (by norm_num), zpow_natCast, zpow_natCast]
    push_cast
    ring
  rw [hvalue] at hlocated
  have hround : roundToInt .positive m e =
      ((ExtendedMantissa.ofMantissaAndAccuracy (m <<< n) .exact >>> k).mantissa : ℤ) := by
    have hshift : shiftToExponent (m <<< n) (e - n) .exact 0 =
        (ExtendedMantissa.ofMantissaAndAccuracy (m <<< n) .exact >>> k, e - n + k) := by
      rw [shiftToExponent, show (0 - (e - n)).toNat = k by omega]
    simp only [roundToInt, decreaseExponent, sub_zero, hn, hshift, Sign.apply]
  rw [hround]
  exact (Int.floor_eq_iff.mpr ⟨by exact_mod_cast hlocated.mem.1, by exact_mod_cast hlocated.mem.2⟩).symm

/-- **The conversion to an unsigned integer** takes the integer part. -/
theorem Stands.toUInt32 (h : Stands a p) (hp : 0 ≤ p) (hlt : p < 2 ^ 32) : (a.toUInt32.toNat : ℤ) = ⌊p⌋ := by
  change ((UInt32.ofNatClamp (a.toModel.unpack.toInt 0 (UInt32.size - 1)).toNat).toNat : ℤ) = _
  have hfloor : 0 ≤ ⌊p⌋ ∧ ⌊p⌋ < 2 ^ 32 := by
    refine ⟨Int.floor_nonneg.mpr hp, ?_⟩
    rw [Int.floor_lt]
    exact_mod_cast hlt
  have hint : a.toModel.unpack.toInt 0 (UInt32.size - 1) = ⌊p⌋ := by
    rcases h.cases with ⟨rfl, s, hs⟩ | ⟨s, m, e, hm, hs, -, -, -, -, rfl⟩
    · rw [hs, Int.floor_zero]
      rfl
    · rw [hs]
      cases s
      · exact absurd hp (not_le.mpr ((number_sign hm).1.mpr rfl))
      · rw [factor, one_mul, ← roundToInt_eq]
        rfl
  have hnat : ⌊p⌋.toNat < 2 ^ 32 := by omega
  rw [hint, UInt32.ofNatClamp_eq_ofNat _ hnat, UInt32.toNat_ofNat', Nat.mod_eq_of_lt hnat]
  exact Int.toNat_of_nonneg hfloor.1

theorem toInt_toInt32_of_lt {x : UInt32} (h : x.toNat < 2 ^ 31) : x.toInt32.toInt = x.toNat :=
  BitVec.toInt_eq_toNat_of_lt (show 2 * x.toNat < 2 ^ 32 by omega)

/-- **The conversion to a signed integer**, with the sign apart, cuts off the fraction. -/
theorem Stands.toInt32 (h : Stands a p) (hlt : |p| < 2 ^ 31) :
    (if a < 0 then -(-a).toUInt32.toInt32 else a.toUInt32.toInt32).toInt = Quantize.trunc p := by
  have h32 : (2 : ℚ) ^ 31 < 2 ^ 32 := by norm_num
  -- the magnitude is converted exactly
  have hmagnitude {b : Float32} {q : ℚ} (hb : Stands b q) (hq : 0 ≤ q) (hlt : q < 2 ^ 31) :
      b.toUInt32.toInt32.toInt = ⌊q⌋ ∧ 0 ≤ ⌊q⌋ ∧ ⌊q⌋ < 2 ^ 31 := by
    have hnat := hb.toUInt32 hq (hlt.trans h32)
    have hfloor : ⌊q⌋ < 2 ^ 31 := Int.floor_lt.mpr (by exact_mod_cast hlt)
    exact ⟨(toInt_toInt32_of_lt (by omega)).trans hnat, Int.floor_nonneg.mpr hq, hfloor⟩
  rcases lt_or_ge p 0 with hp | hp
  · rw [abs_of_neg hp] at hlt
    obtain ⟨hint, hlow, hhigh⟩ := hmagnitude h.neg (neg_nonneg.mpr hp.le) hlt
    rw [if_pos (h.lt_zero.mpr hp), Int32.toInt_neg, hint, Quantize.trunc_of_neg hp, ← Int.neg_neg ⌈p⌉, ← Int.floor_neg]
    exact Int.bmod_eq_of_le (by omega) (by omega)
  · rw [abs_of_nonneg hp] at hlt
    rw [if_neg (by rw [h.lt_zero]; exact not_lt.mpr hp), Quantize.trunc_of_nonneg hp]
    exact (hmagnitude h hp hlt).1

end Parts

/-! ### Relative errors -/

section Errors

variable {x : Float32} {q ε : ℚ}

/-- The float stands for a number that is off by no more than a part of it. -/
def Within (ε : ℚ) (x : Float32) (q : ℚ) : Prop := ∃ p, Stands x p ∧ |p - q| ≤ ε * |q|

theorem Within.neg (h : Within ε x q) : Within ε (-x) (-q) := by
  obtain ⟨p, hp, hclose⟩ := h
  refine ⟨-p, hp.neg, ?_⟩
  rw [← neg_sub', abs_neg, abs_neg]
  exact hclose

/-- A quotient by an integer, of something that is not too small. -/
theorem Within.div (h : Within ε x q) (hε : ε ≤ 1 / 2) (hq : q = 0 ∨ 1 ≤ |q|) (hq' : |q| ≤ 2 ^ 64) {s : ℤ} (hs : s ≠ 0)
    (hs' : |s| ≤ 2 ^ 24) : Within (ε + (1 + ε) / 2 ^ 24) (x / Float32.ofInt s) (q / s) := by
  obtain ⟨p, hp, hclose⟩ := h
  have hsq : (s : ℚ) ≠ 0 := by exact_mod_cast hs
  have hspos : 0 < |(s : ℚ)| := abs_pos.mpr hsq
  have hsone : (1 : ℚ) ≤ |(s : ℚ)| := by exact_mod_cast Int.one_le_abs hs
  have hslarge : |(s : ℚ)| ≤ 2 ^ 24 := by exact_mod_cast hs'
  have habs : |p / s - q / s| ≤ ε * |q / s| := by
    rw [← sub_div, abs_div, abs_div, ← mul_div_assoc]
    exact div_le_div_of_nonneg_right hclose hspos.le
  have hrange : InRange (p / s) := by
    rcases hq with rfl | hq
    · rw [sub_zero, abs_zero, mul_zero] at hclose
      exact .inl (by rw [abs_nonpos_iff.mp hclose, zero_div])
    · -- at least one half, by at most `2 ^ 24`
      have hsum := abs_sub_abs_le_abs_sub q p
      have hsum' := abs_sub_abs_le_abs_sub p q
      rw [abs_sub_comm] at hsum
      have hlow : 1 / 2 ≤ |p| := by nlinarith
      have hhigh : |p| ≤ 2 * 2 ^ 64 := by nlinarith
      refine .inr ⟨?_, ?_⟩
      · rw [abs_div, le_div_iff₀ hspos]
        have hsmall : (2 : ℚ) ^ (-126 : ℤ) * 2 ^ 24 ≤ 1 / 2 := by norm_num
        exact ((mul_le_mul_of_nonneg_left hslarge (zpow_pos two_pos _).le).trans hsmall).trans hlow
      · rw [abs_div, div_lt_iff₀ hspos]
        have hlarge : (2 : ℚ) * 2 ^ 64 < 2 ^ (127 : ℤ) := by norm_num
        exact (hhigh.trans_lt hlarge).trans_le (le_mul_of_one_le_right (zpow_pos two_pos _).le hsone)
  refine ⟨_, hp.div (stands_int hs') hsq hrange, ?_⟩
  have hround := abs_toBinary_sub_le_mul 24 (p / s)
  have hmagnitude : |p / s| ≤ (1 + ε) * |q / s| := by
    have hsum := abs_sub_abs_le_abs_sub (p / s) (q / s)
    linarith
  calc |toBinary 24 (p / s) - q / s| ≤ |toBinary 24 (p / s) - p / s| + |p / s - q / s| := abs_sub_le _ _ _
    _ ≤ (1 + ε) * |q / s| / 2 ^ 24 + ε * |q / s| := by
      refine add_le_add (hround.trans ?_) habs
      exact div_le_div_of_nonneg_right hmagnitude (by norm_num)
    _ = (ε + (1 + ε) / 2 ^ 24) * |q / s| := by ring

end Errors

end ModbusProxy.Binary32
