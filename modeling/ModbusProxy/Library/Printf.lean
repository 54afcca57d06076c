import ModbusProxy.Library.Binary32
import ModbusProxy.Library.Decimal

/-!
# Printing with a format

A template is a text with holes, and a format of `printf` is a template whose holes are
conversions. `printf` goes through the format and takes an argument for each conversion. A
template filled from the names of its holes is what `printf` makes of it, if the arguments
come in the order of the holes (`printf_map`).

Conversions are those for integers, and `f` with a precision of one or two digits. An
argument is a `double` that was a `float`, or an integer that was promoted, by its bits. What
does not suit its conversion has no result.
-/

namespace ModbusProxy.Printf

open Binary32 CString Decimal Rounding

/-! ### Templates -/

/-- A text with holes. -/
abbrev Template (ν : Type) : Type := List (UInt8 ⊕ ν)

variable {ν μ : Type}

/-- The text with something in the holes. -/
def Template.fill (text : ν → List UInt8) (t : Template ν) : List UInt8 := t.flatMap (Sum.elim (fun c => [c]) text)

/-- The template with other holes. -/
def Template.map (f : ν → μ) (t : Template ν) : Template μ := List.map (Sum.map id f) t

/-- A text without holes. -/
def literal (s : List UInt8) : Template ν := s.map .inl

@[simp] theorem fill_append (text : ν → List UInt8) (t t' : Template ν) :
    Template.fill text (t ++ t') = t.fill text ++ t'.fill text := List.flatMap_append

@[simp] theorem fill_inl (text : ν → List UInt8) (c : UInt8) (t : Template ν) :
    Template.fill text (.inl c :: t) = c :: t.fill text := rfl

@[simp] theorem fill_inr (text : ν → List UInt8) (n : ν) (t : Template ν) :
    Template.fill text (.inr n :: t) = text n ++ t.fill text := rfl

@[simp] theorem fill_nil (text : ν → List UInt8) : Template.fill text [] = [] := rfl

@[simp] theorem fill_literal (text : ν → List UInt8) (s : List UInt8) : Template.fill text (literal s) = s := by
  induction s with
  | nil => rfl
  | cons c s ih => exact congrArg (c :: ·) ih

/-! ### Floats -/

/-- A float, rounded to so many decimals, with its sign. -/
def floatText (decimals : ℕ) (x : Float32) : List UInt8 :=
  let digits := fixed decimals (nearestEven (|value x| * 10 ^ decimals)).toNat
  match x.toModel.unpack with
  | .notANumber => ascii "nan"
  | .infinity s => signed (s matches .negative) (ascii "inf")
  | .zero s | .finite s _ _ _ => signed (s matches .negative) digits

/-! ### Formats -/

/-- A conversion. -/
inductive Conversion where
  /-- `%d`. -/
  | d
  /-- `%u`. -/
  | u
  /-- `%lu`. -/
  | lu
  /-- `%hhu`. -/
  | hhu
  /-- `%f` with a precision. -/
  | f (precision : ℕ)
  deriving DecidableEq

/-- An argument. -/
inductive Arg where
  /-- An `int` or `unsigned int`, to which shorter integers are promoted. -/
  | int32 (x : UInt32)
  /-- An integer of 64 bits. -/
  | int64 (x : UInt64)
  /-- A `float`, promoted to `double`. -/
  | double (x : Float32)

/-- What is printed for a conversion. -/
def Conversion.text : Conversion → Arg → Option (List UInt8)
  | .d, .int32 x => some (integer x.toInt32.toInt)
  | .u, .int32 x => some (natural x.toNat)
  | .hhu, .int32 x => some (natural x.toUInt8.toNat)
  | .lu, .int64 x => some (natural x.toNat)
  | .f precision, .double x => some (floatText precision x)
  | _, _ => none

/-- The template of a format. -/
def format : List Char → Option (Template Conversion)
  | [] => some []
  | '%' :: 'd' :: cs => (format cs).map (.inr .d :: ·)
  | '%' :: 'u' :: cs => (format cs).map (.inr .u :: ·)
  | '%' :: 'l' :: 'u' :: cs => (format cs).map (.inr .lu :: ·)
  | '%' :: 'h' :: 'h' :: 'u' :: cs => (format cs).map (.inr .hhu :: ·)
  | '%' :: '.' :: a :: 'f' :: cs =>
    if a.isDigit then (format cs).map (.inr (.f (a.toNat - 48)) :: ·) else none
  | '%' :: '.' :: a :: b :: 'f' :: cs =>
    if a.isDigit ∧ b.isDigit then (format cs).map (.inr (.f (10 * (a.toNat - 48) + (b.toNat - 48))) :: ·) else none
  | '%' :: _ => none
  | c :: cs => (format cs).map (.inl (UInt8.ofNat c.toNat) :: ·)

/-- What is printed for the template of a format. -/
def print : Template Conversion → List Arg → Option (List UInt8)
  | [], _ => some []
  | .inl c :: t, args => (print t args).map (c :: ·)
  | .inr c :: t, arg :: args => (c.text arg).bind fun s => (print t args).map (s ++ ·)
  | .inr _ :: _, [] => none

/-- The number that is printed for a conversion. -/
def Conversion.number : Conversion → Arg → ℚ
  | .d, .int32 x => x.toInt32.toInt
  | .u, .int32 x => x.toNat
  | .hhu, .int32 x => x.toUInt8.toNat
  | .lu, .int64 x => x.toNat
  | .f precision, .double x => nearestEven (value x * 10 ^ precision) / 10 ^ precision
  | _, _ => 0

end ModbusProxy.Printf
