import ModbusProxy.Library.Binary32
import ModbusProxy.Library.Decimal
import ModbusProxy.Library.LineProtocol
import ModbusProxy.Logger.Fields
import ModbusProxy.Logger.Ring

/-!
# The text of a record

`solar_logger_post_data` prints a slot with one format, as a line of the line protocol. Where
a field is a fraction it prints the quotient of two `float`s, which is rounded, and that to
one, two, three or six decimals.

## The model

The arguments of `asprintf` are integers and `float`s, and what is printed of a `float` is
the exact number that it stands for, rounded to the decimals.

## What is proved

The text is a line that reads as the measurement `power_data` with all fields in their
order, and every number in it is within half a unit of what the slot holds, in the
resolution of the slot, exact where the decimals are those of the resolution
(`recordText_reads`). So the text tells all that is in the slot but the flag
(`recordText_eq_iff`).
-/

namespace ModbusProxy.Logger

open Binary32 CString Decimal LineProtocol Quantize Rounding
open JsonText (isDigit)

/-! ### Arguments -/

/-- An argument of `asprintf`, with its conversion. -/
inductive Argument where
  /-- `%d`, `%u`, `%lu`, `%hhu`. -/
  | int (z : ℤ)
  /-- `%f`, `%.1f`, `%.2f`, `%.3f`, with the number of decimals. -/
  | double (decimals : ℕ) (x : Float32)

/-- What is printed. -/
def Argument.text : Argument → List UInt8
  | .int z => integer z
  | .double decimals x => rounded decimals (value x)

/-- `(float) z / divisor`. -/
def quotient (z divisor : ℤ) : Float32 := Float32.ofInt z / Float32.ofInt divisor

/-- The arguments of the format of a record. -/
def CachedSolarValues.argument (v : CachedSolarValues) : Field → Argument
  | .pPv => .int v.pPv.toInt
  | .pPv1 => .int v.pPv1.toInt
  | .pPv2 => .int v.pPv2.toInt
  | .uPv1 => .double 1 (quotient v.uPv1.toInt 10)
  | .uPv2 => .double 1 (quotient v.uPv2.toInt 10)
  | .iPv1 => .double 2 (quotient v.iPv1.toInt 100)
  | .iPv2 => .double 2 (quotient v.iPv2.toInt 100)
  | .pInvAc => .int v.pInvAc.toInt
  | .pGrid => .int v.pGrid.toInt
  | .pLoad => .int v.pLoad.toInt
  | .pBat => .int v.pBat.toInt
  | .soc => .double 6 (quotient v.batSocF10.toNat 10)
  | .freq => .double 2 (quotient v.freq.toInt 100)
  | .iL k => .double 2 (quotient (v.iL k).toInt 100)
  | .uL k => .double 1 (quotient (v.uL k).toNat 10)
  | .pL k => .double 2 (quotient (v.pL k).toInt 10)
  | .sL k => .double 2 (quotient (v.sL k).toInt 10)
  | .energyProdDay => .int v.energyProdDay.toNat
  | .energyProdWh => .int v.energyProdWh.toNat
  | .energyInvDay => .int v.energyInvDay.toNat
  | .energyInvWh => .int v.energyInvWh.toNat
  | .energyBatChrgDay => .int v.energyBatChrgDay.toNat
  | .energyBatDiscDay => .int v.energyBatDiscDay.toNat
  | .energyBatChrg => .int v.energyBatChrg.toNat
  | .energyBatDisc => .int v.energyBatDisc.toNat
  | .energyExpWh => .int v.energyExpWh.toNat
  | .energyImpWh => .int v.energyImpWh.toNat
  -- not divided
  | .nrgIL k => .double 2 (Float32.ofInt (v.nrgIL k).toNat)
  | .chargingPower => .double 3 (quotient v.pNrgkick.toInt 1000)
  | .chargedEnergy => .int v.chargedEnergy.toNat
  | .housingTemp => .double 2 (quotient v.housingTemp.toInt 100)
  | .cpStatus => .int v.cpStatus.toNat
  | .switchedRelais => .int v.switchedRelais.toNat
  | .warningCode => .int v.warningCode.toNat
  | .errorCode => .int v.errorCode.toNat
  | .connectorTempL k => .double 2 (quotient (v.connectorTempL k).toInt 100)
  | .maxCurrentToEv => .double 1 (quotient v.maxCurrentToEv.toNat 10)
  | .userSetCurrent => .double 1 (quotient v.userSetCurrent.toNat 10)
  | .boilerTemp => .double 1 (quotient v.boilerTemp.toInt 10)
  | .slPower => .int v.slPower.toNat
  | .slTemp => .double 1 (quotient v.slTemp.toInt 10)
  | .slStatus => .int v.slStatus.toNat
  | .ts => .int v.ts.toNat

/-- The fields between the tag and the timestamp. -/
def lineFields : List Field := recordFields.filter (· ≠ .ts)

/-- What the format of a record prints. -/
def recordText (v : CachedSolarValues) : List UInt8 :=
  ascii "power_data,source=grid " ++
    [44].intercalate (lineFields.map fun f => ascii f.name ++ 61 :: (v.argument f).text) ++
    32 :: (v.argument .ts).text ++ ascii "000000000\n"

/-! ### What is read -/

/-- The point of a record. -/
def recordPoint (v : CachedSolarValues) : Point where
  measurement := ascii "power_data"
  tags := [(ascii "source", ascii "grid")]
  fields := lineFields.map fun f => (ascii f.name, (v.argument f).text)
  timestamp := (v.argument .ts).text ++ ascii "000000000"

/-- The integer that a slot holds for a field. -/
def CachedSolarValues.stored (v : CachedSolarValues) : Field → ℤ
  | .pPv => v.pPv.toInt
  | .pPv1 => v.pPv1.toInt
  | .pPv2 => v.pPv2.toInt
  | .uPv1 => v.uPv1.toInt
  | .uPv2 => v.uPv2.toInt
  | .iPv1 => v.iPv1.toInt
  | .iPv2 => v.iPv2.toInt
  | .pInvAc => v.pInvAc.toInt
  | .pGrid => v.pGrid.toInt
  | .pLoad => v.pLoad.toInt
  | .pBat => v.pBat.toInt
  | .soc => v.batSocF10.toNat
  | .freq => v.freq.toInt
  | .iL k => (v.iL k).toInt
  | .uL k => (v.uL k).toNat
  | .pL k => (v.pL k).toInt
  | .sL k => (v.sL k).toInt
  | .energyProdDay => v.energyProdDay.toNat
  | .energyProdWh => v.energyProdWh.toNat
  | .energyInvDay => v.energyInvDay.toNat
  | .energyInvWh => v.energyInvWh.toNat
  | .energyBatChrgDay => v.energyBatChrgDay.toNat
  | .energyBatDiscDay => v.energyBatDiscDay.toNat
  | .energyBatChrg => v.energyBatChrg.toNat
  | .energyBatDisc => v.energyBatDisc.toNat
  | .energyExpWh => v.energyExpWh.toNat
  | .energyImpWh => v.energyImpWh.toNat
  | .nrgIL k => (v.nrgIL k).toNat
  | .chargingPower => v.pNrgkick.toInt
  | .chargedEnergy => v.chargedEnergy.toNat
  | .housingTemp => v.housingTemp.toInt
  | .cpStatus => v.cpStatus.toNat
  | .switchedRelais => v.switchedRelais.toNat
  | .warningCode => v.warningCode.toNat
  | .errorCode => v.errorCode.toNat
  | .connectorTempL k => (v.connectorTempL k).toInt
  | .maxCurrentToEv => v.maxCurrentToEv.toNat
  | .userSetCurrent => v.userSetCurrent.toNat
  | .boilerTemp => v.boilerTemp.toInt
  | .slPower => v.slPower.toNat
  | .slTemp => v.slTemp.toInt
  | .slStatus => v.slStatus.toNat
  | .ts => v.ts.toNat

/-- The decimals of the number that is printed for a field: the integer counts units of the last. -/
def Field.decimals : Field → ℕ
  | .uPv1 | .uPv2 | .uL _ | .pL _ | .sL _ | .soc | .maxCurrentToEv | .userSetCurrent | .boilerTemp | .slTemp => 1
  | .iPv1 | .iPv2 | .freq | .iL _ | .housingTemp | .connectorTempL _ => 2
  | .chargingPower => 3
  | _ => 0

/-- The fields that are printed with more decimals than they are stored with, as quotients. -/
def Field.Finer : Field → Prop
  | .soc | .pL _ | .sL _ => True
  | _ => False

/-- The argument prints the number, which is `z` units of the decimal `k`. -/
inductive Prints : Argument → Printed → ℕ → ℤ → Prop where
  /-- An integer. -/
  | int (z : ℤ) : Prints (.int z) (.int z) 0 z
  /-- A fraction that a `float` stands for, but for rounding. -/
  | double {d k : ℕ} {z : ℤ} {x : Float32} (hk : k ≤ d) (hz : |z| < 2 ^ 22)
      (hx : Stands x (toBinary 24 (z / 10 ^ k))) : Prints (.double d x) (.fixed d (z / 10 ^ k)) k z

theorem Prints.quotient {d k : ℕ} {z : ℤ} (hk : k ≤ d) (hsmall : k ≤ 3) (hz : |z| < 2 ^ 22) {s : ℤ} (hs : s = 10 ^ k)
    {q : ℚ} (hq : q = z / 10 ^ k) : Prints (.double d (quotient z s)) (.fixed d q) k z := by
  subst hs hq
  refine .double hk hz ?_
  have hpow : (10 : ℤ) ^ k ≤ 10 ^ 3 := pow_le_pow_right₀ (by norm_num) hsmall
  have h := stands_ratio (z := z) (s := 10 ^ k) (hz.le.trans (by norm_num)) (by positivity) (by omega)
  rw [Logger.quotient]
  push_cast at h
  exact h

theorem abs_toInt_lt {n : ℕ} (hn : n ≤ 22) (x : BitVec n) : |x.toInt| < 2 ^ 22 := by
  have h1 := x.two_mul_toInt_lt
  have h2 := x.le_two_mul_toInt
  have h3 : (2 : ℤ) ^ n ≤ 2 ^ 22 := pow_le_pow_right₀ (by decide) hn
  rw [abs_lt]
  omega

theorem abs_toNat_lt {n : ℕ} (hn : n ≤ 22) (x : BitVec n) : |(x.toNat : ℤ)| < 2 ^ 22 := by
  have h1 := x.isLt
  have h3 : 2 ^ n ≤ 2 ^ 22 := Nat.pow_le_pow_right (by decide) hn
  rw [abs_lt]
  omega

/-- The format prints every field of a slot. -/
theorem prints (v : CachedSolarValues) (f : Field) : Prints (v.argument f) (v.print f) f.decimals (v.stored f) := by
  cases f <;> simp only [CachedSolarValues.argument, CachedSolarValues.print, Field.decimals, CachedSolarValues.stored]
  case nrgIL k =>
    have hz := abs_toNat_lt (by decide) (v.nrgIL k)
    have hstands := stands_int (z := ((v.nrgIL k).toNat : ℤ)) (hz.le.trans (by norm_num))
    have heq : ((v.nrgIL k).toNat : ℚ) = ((v.nrgIL k).toNat : ℤ) / 10 ^ 0 := by
      rw [pow_zero, div_one, Int.cast_natCast]
    rw [heq]
    refine .double (Nat.zero_le 2) hz ?_
    rwa [pow_zero, div_one, toBinary_intCast (by decide) (hz.le.trans (by norm_num))]
  case soc | uL | maxCurrentToEv | userSetCurrent =>
    exact .quotient (by decide) (by decide) (abs_toNat_lt (by decide) _) (by rfl) (by push_cast; norm_num)
  case uPv1 | uPv2 | iPv1 | iPv2 | freq | iL | pL | sL | chargingPower | housingTemp | connectorTempL | boilerTemp
    | slTemp =>
    exact .quotient (by decide) (by decide) (abs_toInt_lt (by decide) _) (by rfl) (by norm_num)
  all_goals exact .int _

/-! ### Numbers -/

/-- The decimals with which a number is printed. -/
def Printed.decimals : Printed → ℕ
  | .int _ => 0
  | .fixed d _ => d

/-- Only the finer fields have more decimals where they are printed than where they are stored. -/
theorem decimals_print (v : CachedSolarValues) {f : Field} (hf : ¬f.Finer) :
    (v.print f).decimals = f.decimals ∨ f.decimals = 0 := by
  cases f <;> first | exact .inl rfl | exact .inr rfl | exact absurd trivial hf

section Read

variable {a : Argument} {p : Printed} {d k : ℕ} {z : ℤ}

theorem number_tenths (hk : k ≤ d) (z : ℤ) : (Printed.fixed d (z / 10 ^ k)).number = z / 10 ^ k := by
  have h := number_fixed (d := d) (s := 10 ^ k) (by positivity) (pow_dvd_pow 10 hk) z
  push_cast at h
  exact h

theorem Prints.number (h : Prints a p k z) : p.number = z / 10 ^ k := by
  cases h with
  | int z => rw [Printed.number, pow_zero, div_one]
  | @double d k z x hk hz hx => exact number_tenths hk z

/-- The quotient is rounded by less than a quarter of a unit. -/
theorem abs_toBinary_quotient_lt (hz : |z| < 2 ^ 22) (k : ℕ) :
    |toBinary 24 ((z : ℚ) / 10 ^ k) - z / 10 ^ k| < 1 / (4 * 10 ^ k) := by
  have hz' : |(z : ℚ)| < 2 ^ 22 := by exact_mod_cast hz
  have hpos : (0 : ℚ) < 10 ^ k := by positivity
  calc |toBinary 24 ((z : ℚ) / 10 ^ k) - z / 10 ^ k| ≤ |(z : ℚ) / 10 ^ k| / 2 ^ 24 := abs_toBinary_sub_le_mul 24 _
    _ = |(z : ℚ)| / 2 ^ 24 / 10 ^ k := by rw [abs_div, abs_of_pos hpos, div_right_comm]
    _ < 1 / 4 / 10 ^ k := by
      refine div_lt_div_of_pos_right ?_ hpos
      linarith
    _ = 1 / (4 * 10 ^ k) := by rw [div_div]

/-- The digits of the quotient, where they are as many as the decimals of the number. -/
theorem nearestEven_quotient (hz : |z| < 2 ^ 22) (k : ℕ) : nearestEven (toBinary 24 ((z : ℚ) / 10 ^ k) * 10 ^ k) = z := by
  have hpos : (0 : ℚ) < 10 ^ k := by positivity
  have hclose := abs_toBinary_quotient_lt hz k
  refine nearestEven_eq (.inl ?_)
  calc |toBinary 24 ((z : ℚ) / 10 ^ k) * 10 ^ k - z|
      = |toBinary 24 ((z : ℚ) / 10 ^ k) - z / 10 ^ k| * 10 ^ k := by
        rw [← abs_of_pos hpos, ← abs_mul, abs_of_pos hpos, sub_mul, div_mul_cancel₀ _ hpos.ne']
    _ < 1 / (4 * 10 ^ k) * 10 ^ k := mul_lt_mul_of_pos_right hclose hpos
    _ = 1 / 4 := by field_simp
    _ < 1 / 2 := by norm_num

/-- **What is printed reads as the number of the slot** to within half a unit, and exactly
where it has no more digits than the number. -/
theorem Prints.read (h : Prints a p k z) :
    ∃ r, Decimal.read a.text = some r ∧ |r - p.number| < 1 / (2 * 10 ^ k) ∧ (p.decimals = k ∨ k = 0 → r = p.number) := by
  cases h with
  | int z => exact ⟨z, read_integer z, by rw [Printed.number, sub_self, abs_zero]; positivity, fun _ => rfl⟩
  | @double d k z x hk hz hx =>
    have hread := read_rounded d (value x)
    rw [hx.value_eq] at hread
    have hexact : d = k ∨ k = 0 → (nearestEven (toBinary 24 ((z : ℚ) / 10 ^ k) * 10 ^ d) : ℚ) / 10 ^ d = z / 10 ^ k := by
      rintro (rfl | rfl)
      · rw [nearestEven_quotient hz]
      · have hint : (z : ℚ) * 10 ^ d = ((z * 10 ^ d : ℤ) : ℚ) := by push_cast; rfl
        rw [pow_zero, div_one, toBinary_intCast (by decide) (hz.le.trans (by norm_num)), hint, nearestEven_intCast, ← hint,
          mul_div_cancel_right₀ _ (by positivity)]
    refine ⟨_, by rw [Argument.text, hx.value_eq, hread], ?_, fun h => by rw [number_tenths hk, hexact h]⟩
    rw [number_tenths hk]
    by_cases hd : d = k
    · rw [hexact (.inl hd), sub_self, abs_zero]
      positivity
    · -- a tenth of a unit, or less, is the last decimal
      have hlast : (1 : ℚ) / (2 * 10 ^ d) ≤ 1 / (20 * 10 ^ k) := by
        have hpow : (10 : ℚ) ^ (k + 1) ≤ 10 ^ d := pow_le_pow_right₀ (by norm_num) (by omega)
        refine one_div_le_one_div_of_le (by positivity) ?_
        rw [pow_succ] at hpow
        linarith
      calc |(nearestEven (toBinary 24 ((z : ℚ) / 10 ^ k) * 10 ^ d) : ℚ) / 10 ^ d - z / 10 ^ k|
          ≤ 1 / (2 * 10 ^ d) + |toBinary 24 ((z : ℚ) / 10 ^ k) - z / 10 ^ k| :=
            (abs_sub_le _ _ _).trans (add_le_add_left (abs_nearestEven_div_sub_le _ d) _)
        _ < 1 / (20 * 10 ^ k) + 1 / (4 * 10 ^ k) := add_lt_add_of_le_of_lt hlast (abs_toBinary_quotient_lt hz k)
        _ < 1 / (2 * 10 ^ k) := by
          rw [← div_div, ← div_div, ← div_div, ← add_div]
          exact div_lt_div_of_pos_right (by norm_num) (by positivity)

end Read

/-! ### Numbers of a record -/

/-- What is printed of a number of a record. -/
def Printed.text : Printed → List UInt8
  | .int z => integer z
  | .fixed d q => rounded d (toBinary 24 q)

/-- The arguments of the format print the numbers of the record. -/
theorem Prints.text_eq {a : Argument} {p : Printed} {k : ℕ} {z : ℤ} (h : Prints a p k z) : a.text = p.text := by
  cases h with
  | int z => rfl
  | double hk hz hx => rw [Argument.text, Printed.text, hx.value_eq]

/-! ### Lines -/

theorem isPlain_of_isNumeral {c : UInt8} (h : IsNumeral c) : IsPlain c := by
  have hlow : c.toNat = 45 ∨ c.toNat = 46 ∨ 48 ≤ c.toNat ∧ c.toNat ≤ 57 := by
    rcases h with h | rfl | rfl
    · exact .inr (.inr (isDigit_iff.mp h))
    · exact .inl rfl
    · exact .inr (.inl rfl)
  refine ⟨?_, ?_, ?_, ?_, ?_, ?_⟩ <;>
    · rintro rfl
      revert hlow
      decide

theorem plain_argument (a : Argument) : Plain a.text := by
  cases a with
  | int z => exact fun c hc => isPlain_of_isNumeral (isNumeral_integer z c hc)
  | double d x => exact fun c hc => isPlain_of_isNumeral (isNumeral_rounded d _ c hc)

theorem plain_name : ∀ f ∈ lineFields, Plain (ascii f.name) := by
  decide +kernel

theorem plain_format : Plain (ascii "power_data") ∧ Plain (ascii "source") ∧ Plain (ascii "grid") ∧
    Plain (ascii "000000000") := by
  decide +kernel

theorem recordPoint_isPlain (v : CachedSolarValues) : (recordPoint v).IsPlain where
  measurement := plain_format.1
  tags := List.forall_mem_singleton.mpr ⟨plain_format.2.1, plain_format.2.2.1⟩
  fields := by
    intro p hp
    obtain ⟨f, hf, rfl⟩ := List.mem_map.mp hp
    exact ⟨plain_name f hf, plain_argument _⟩
  fields_ne_nil := List.cons_ne_nil _ _
  timestamp := by
    intro c hc
    exact (List.mem_append.mp hc).elim (plain_argument _ c) (plain_format.2.2.2 c)

/-- The text is the line of the point. -/
theorem recordText_eq (v : CachedSolarValues) : recordText v = pointsText [recordPoint v] := by
  have hkey : ascii "power_data,source=grid " =
      [44].intercalate (ascii "power_data" :: [(ascii "source", ascii "grid")].map pairText) ++ [32] := by decide +kernel
  have hend : ascii "000000000\n" = ascii "000000000" ++ [10] := by decide +kernel
  rw [recordText, hkey, hend, pointsText, List.flatMap_singleton, Point.text, recordPoint, List.map_map]
  simp only [List.append_assoc, List.cons_append, List.nil_append]
  rfl

/-! ### Reading a record -/

/-- The value of a field of a point, found by its name. -/
def fieldValue (p : Point) (name : String) : Option ℚ := (p.fields.lookup (ascii name)).bind Decimal.read

theorem names_nodup : (lineFields.map fun f => ascii f.name).Nodup := by
  decide +kernel

theorem lookup_map {α β γ : Type} [BEq β] [LawfulBEq β] {name : α → β} {value : α → γ} {xs : List α} (h : (xs.map name).Nodup)
    {x : α} (hx : x ∈ xs) : (xs.map fun y => (name y, value y)).lookup (name x) = some (value x) := by
  induction xs with
  | nil => cases hx
  | cons y ys ih =>
    rw [List.map_cons, List.nodup_cons] at h
    rw [List.map_cons, List.lookup_cons]
    rcases List.mem_cons.mp hx with rfl | hx
    · rw [beq_self_eq_true]
    · have hne : name x ≠ name y := fun heq => h.1 (heq ▸ List.mem_map_of_mem hx)
      rw [beq_eq_false_iff_ne.mpr hne]
      exact ih h.2 hx

theorem fieldValue_recordPoint (v : CachedSolarValues) {f : Field} (hf : f ∈ lineFields) :
    fieldValue (recordPoint v) f.name = Decimal.read (v.argument f).text := by
  rw [fieldValue, recordPoint, lookup_map names_nodup hf, Option.bind_some]

theorem read_timestamp (v : CachedSolarValues) :
    Decimal.read (recordPoint v).timestamp = some (v.ts.toNat * 10 ^ 9 : ℚ) := by
  have hzeros : (∀ c ∈ ascii "000000000", isDigit c = true) ∧ digitsValue (ascii "000000000") = 0 ∧
      (ascii "000000000").length = 9 := by decide +kernel
  have hdigits : ∀ c ∈ natural v.ts.toNat ++ ascii "000000000", isDigit c = true := fun c hc =>
    (List.mem_append.mp hc).elim (isDigit_natural _ c) (hzeros.1 c)
  change Decimal.read (integer v.ts.toNat ++ ascii "000000000") = _
  rw [integer_natCast, read_digits (List.append_ne_nil_of_left_ne_nil (natural_ne_nil _) _) hdigits, digitsValue_append,
    digitsValue_natural, hzeros.2.1, hzeros.2.2, add_zero, mul_comm, Nat.cast_mul, Nat.cast_pow]
  rfl

/-- **A record reads as its slot.** The text of a slot is one point, its timestamp the seconds
of the slot, and every field by its name the number of the slot to within half a unit, exactly
if it is not printed finer. -/
theorem recordText_reads (v : CachedSolarValues) :
    ∃ p, readPoints (recordText v) = some [p] ∧ p.measurement = ascii "power_data" ∧
      p.fields.map Prod.fst = lineFields.map (fun f => ascii f.name) ∧
      Decimal.read p.timestamp = some (v.ts.toNat * 10 ^ 9 : ℚ) ∧
      ∀ f ∈ lineFields, ∃ r, fieldValue p f.name = some r ∧ |r - (v.print f).number| < 1 / (2 * 10 ^ f.decimals) ∧
        (¬f.Finer → r = (v.print f).number) := by
  refine ⟨recordPoint v, ?_, rfl, ?_, ?_, fun f hf => ?_⟩
  · rw [recordText_eq, readPoints_text (List.forall_mem_singleton.mpr (recordPoint_isPlain v))]
  · rw [recordPoint, List.map_map]
    rfl
  · exact read_timestamp v
  · obtain ⟨r, hread, hclose, hexact⟩ := (prints v f).read
    rw [fieldValue_recordPoint v hf]
    exact ⟨r, hread, hclose, fun hf => hexact (decimals_print v hf)⟩

/-! ### The text tells the slot -/

theorem mem_recordFields (f : Field) : f ∈ recordFields := by
  cases f
  case iL k | uL k | pL k | sL k | nrgIL k | connectorTempL k => fin_cases k <;> decide
  all_goals decide

/-- Two numbers with the same text are equal. -/
theorem Prints.unique {a a' : Argument} {p p' : Printed} {k : ℕ} {z z' : ℤ} (h : Prints a p k z) (h' : Prints a' p' k z')
    (htext : a.text = a'.text) : z = z' := by
  obtain ⟨r, hread, hclose, -⟩ := h.read
  obtain ⟨r', hread', hclose', -⟩ := h'.read
  rw [htext, hread'] at hread
  obtain rfl : r' = r := Option.some.inj hread
  have hpos : (0 : ℚ) < 10 ^ k := by positivity
  have hdist : |p.number - p'.number| < 1 / 10 ^ k := by
    have hhalves : (1 : ℚ) / (2 * 10 ^ k) + 1 / (2 * 10 ^ k) = 1 / 10 ^ k := by field_simp; norm_num
    rw [abs_sub_comm] at hclose
    calc |p.number - p'.number| ≤ |p.number - r'| + |r' - p'.number| := abs_sub_le _ _ _
      _ < 1 / 10 ^ k := by rw [← hhalves]; exact add_lt_add hclose hclose'
  -- they are whole numbers of units, less than one apart
  rw [h.number, h'.number, ← sub_div, abs_div, abs_of_pos hpos, div_lt_div_iff_of_pos_right hpos] at hdist
  have hint : |z - z'| < 1 := by exact_mod_cast hdist
  exact sub_eq_zero.mp (Int.abs_lt_one_iff.mp hint)

/-- The integers of the fields are all of a slot but the flag. -/
theorem setUploaded_eq {v w : CachedSolarValues} (h : ∀ f, v.stored f = w.stored f) :
    v.setUploaded false = w.setUploaded false := by
  have hnat {m n : ℕ} (hmn : (m : ℤ) = n) : m = n := Int.ofNat_inj.mp hmn
  rw [CachedSolarValues.setUploaded, CachedSolarValues.setUploaded, CachedSolarValues.mk.injEq]
  refine ⟨BitVec.eq_of_toInt_eq (h .pInvAc), BitVec.eq_of_toInt_eq (h .pGrid), BitVec.eq_of_toInt_eq (h .pLoad),
    BitVec.eq_of_toInt_eq (h .pBat), BitVec.eq_of_toNat_eq (hnat (h .cpStatus)), rfl,
    funext fun k => BitVec.eq_of_toNat_eq (hnat (h (.nrgIL k))), BitVec.eq_of_toInt_eq (h .chargingPower),
    funext fun k => BitVec.eq_of_toInt_eq (h (.iL k)), funext fun k => BitVec.eq_of_toNat_eq (hnat (h (.uL k))),
    BitVec.eq_of_toNat_eq (hnat (h .ts)), funext fun k => BitVec.eq_of_toInt_eq (h (.pL k)),
    funext fun k => BitVec.eq_of_toInt_eq (h (.sL k)), BitVec.eq_of_toInt_eq (h .freq), BitVec.eq_of_toInt_eq (h .pPv),
    BitVec.eq_of_toNat_eq (hnat (h .soc)), UInt32.toNat_inj.mp (hnat (h .energyProdDay)),
    UInt32.toNat_inj.mp (hnat (h .energyProdWh)), UInt32.toNat_inj.mp (hnat (h .energyInvDay)),
    UInt32.toNat_inj.mp (hnat (h .energyInvWh)), UInt32.toNat_inj.mp (hnat (h .energyBatChrgDay)),
    UInt32.toNat_inj.mp (hnat (h .energyBatDiscDay)), UInt32.toNat_inj.mp (hnat (h .energyBatChrg)),
    UInt32.toNat_inj.mp (hnat (h .energyBatDisc)), BitVec.eq_of_toInt_eq (h .pPv1), BitVec.eq_of_toInt_eq (h .pPv2),
    BitVec.eq_of_toInt_eq (h .uPv1), BitVec.eq_of_toInt_eq (h .uPv2), BitVec.eq_of_toInt_eq (h .iPv1),
    BitVec.eq_of_toInt_eq (h .iPv2), UInt64.toNat_inj.mp (hnat (h .energyExpWh)),
    UInt64.toNat_inj.mp (hnat (h .energyImpWh)), UInt8.toNat_inj.mp (hnat (h .warningCode)),
    UInt8.toNat_inj.mp (hnat (h .errorCode)), funext fun k => BitVec.eq_of_toInt_eq (h (.connectorTempL k)),
    BitVec.eq_of_toNat_eq (hnat (h .maxCurrentToEv)), BitVec.eq_of_toNat_eq (hnat (h .userSetCurrent)),
    UInt32.toNat_inj.mp (hnat (h .chargedEnergy)), BitVec.eq_of_toInt_eq (h .housingTemp),
    BitVec.eq_of_toNat_eq (hnat (h .switchedRelais)), BitVec.eq_of_toInt_eq (h .boilerTemp),
    BitVec.eq_of_toInt_eq (h .slTemp), UInt16.toNat_inj.mp (hnat (h .slPower)),
    UInt16.toNat_inj.mp (hnat (h .slStatus))⟩

/-- **The text of a record tells the slot.** Two slots have the same text exactly if they
hold the same samples, whatever rounding has done to their fractions; only the flag is not
in the text. -/
theorem recordText_eq_iff (v w : CachedSolarValues) :
    recordText v = recordText w ↔ v.setUploaded false = w.setUploaded false := by
  have hflag (v : CachedSolarValues) : recordText v = recordText (v.setUploaded false) := rfl
  refine ⟨fun h => ?_, fun h => (hflag v).trans ((congrArg recordText h).trans (hflag w).symm)⟩
  have hpoint : recordPoint v = recordPoint w := by
    have hread := congrArg readPoints h
    rw [recordText_eq, recordText_eq, readPoints_text (List.forall_mem_singleton.mpr (recordPoint_isPlain v)),
      readPoints_text (List.forall_mem_singleton.mpr (recordPoint_isPlain w))] at hread
    exact List.singleton_inj.mp (Option.some.inj hread)
  have htext (f : Field) : (v.argument f).text = (w.argument f).text := by
    by_cases hf : f ∈ lineFields
    · have hfields := congrArg (fun p => p.fields.lookup (ascii f.name)) hpoint
      simp only [recordPoint, lookup_map names_nodup hf] at hfields
      exact Option.some.inj hfields
    · obtain rfl : f = .ts := by
        by_contra hne
        exact hf (List.mem_filter.mpr ⟨mem_recordFields f, decide_eq_true hne⟩)
      exact List.append_cancel_right (congrArg Point.timestamp hpoint)
  exact setUploaded_eq fun f => (prints v f).unique (prints w f) (htext f)

end ModbusProxy.Logger
