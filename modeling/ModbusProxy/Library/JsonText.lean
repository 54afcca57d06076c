import ModbusProxy.Library.CString
import ModbusProxy.Library.Json

/-!
# JSON texts

The value of a JSON text, and of the string literals in it. A string that is put between
quotes as it is reads as itself exactly if it has no quote, no backslash and no control
character (`stringLiteral_iff`): a quote ends it, and what a backslash begins stands for
fewer bytes than it has.

A number is known by its text. Bytes from `0x80` on are read as they are, and half of a
surrogate pair is no character.
-/

namespace ModbusProxy.JsonText

/-- Something that a text begins with, and the rest of the text. -/
abbrev Parser (α : Type) : Type := List UInt8 → Option (α × List UInt8)

/-! ### Strings -/

/-- The value of a hexadecimal digit. -/
def hexValue (c : UInt8) : Option ℕ :=
  if 48 ≤ c ∧ c ≤ 57 then some (c.toNat - 48)
  else if 65 ≤ c ∧ c ≤ 70 then some (c.toNat - 55)
  else if 97 ≤ c ∧ c ≤ 102 then some (c.toNat - 87)
  else none

/-- Four hexadecimal digits. -/
def hex4 : Parser ℕ
  | a :: b :: c :: d :: l => do
    let a ← hexValue a
    let b ← hexValue b
    let c ← hexValue c
    let d ← hexValue d
    return (4096 * a + 256 * b + 16 * c + d, l)
  | _ => none

/-- The bytes of the character with a number. -/
def character (n : ℕ) : List UInt8 := String.utf8EncodeChar (Char.ofNat n)

/-- What follows the first half of a surrogate pair. -/
def lowSurrogate : Parser ℕ
  | a :: b :: l =>
    if a = 92 ∧ b = 117 then
      (hex4 l).bind fun m => if 0xDC00 ≤ m.1 ∧ m.1 < 0xE000 then some (m.1 - 0xDC00, m.2) else none
    else none
  | _ => none

/-- What follows a backslash and `u`. -/
def unicode (l : List UInt8) : Option (List UInt8 × List UInt8) :=
  (hex4 l).bind fun n =>
    if 0xD800 ≤ n.1 ∧ n.1 < 0xDC00 then
      (lowSurrogate n.2).map fun m => (character (0x10000 + 0x400 * (n.1 - 0xD800) + m.1), m.2)
    else if 0xDC00 ≤ n.1 ∧ n.1 < 0xE000 then none
    else some (character n.1, n.2)

/-- The characters that stand for one byte behind a backslash, and the bytes. -/
def escapes : List (UInt8 × UInt8) :=
  [(34, 34), (92, 92), (47, 47), (98, 8), (102, 12), (110, 10), (114, 13), (116, 9)]

/-- What follows a backslash. -/
def escape : Parser (List UInt8)
  | [] => none
  | c :: l =>
    match escapes.lookup c with
    | some b => some ([b], l)
    | none => if c = 117 then unicode l else none

/-- The string up to the closing quote. -/
def stringBody : ℕ → Parser (List UInt8)
  | 0, _ => none
  | _ + 1, [] => none
  | fuel + 1, c :: l =>
    if c = 34 then some ([], l)
    else if c = 92 then (escape l).bind fun e => (stringBody fuel e.2).map fun s => (e.1 ++ s.1, s.2)
    else if c < 32 then none
    else (stringBody fuel l).map fun s => (c :: s.1, s.2)

/-- A string literal behind its opening quote. -/
def stringLiteral (l : List UInt8) : Option (List UInt8 × List UInt8) := stringBody (l.length + 1) l

/-- A character that is neither a quote, nor a backslash, nor a control character. -/
def IsPlain (c : UInt8) : Prop := c ≠ 34 ∧ c ≠ 92 ∧ ¬c < 32

instance : DecidablePred IsPlain := fun _ => inferInstanceAs (Decidable (_ ∧ _))

/-- A string of such characters. -/
def Plain (s : List UInt8) : Prop := ∀ c ∈ s, IsPlain c

instance : DecidablePred Plain := List.decidableBAll IsPlain

theorem stringBody_plain {c : UInt8} (hc : IsPlain c) (fuel : ℕ) (l : List UInt8) :
    stringBody (fuel + 1) (c :: l) = (stringBody fuel l).map fun s => (c :: s.1, s.2) := by
  rw [stringBody, if_neg hc.1, if_neg hc.2.1, if_neg hc.2.2]

/-- A plain string reads as itself. -/
theorem stringBody_of_plain {t : List UInt8} (ht : Plain t) {fuel : ℕ} (hfuel : t.length < fuel) (r : List UInt8) :
    stringBody fuel (t ++ 34 :: r) = some (t, r) := by
  induction t generalizing fuel with
  | nil =>
    obtain ⟨fuel, rfl⟩ := Nat.exists_eq_succ_of_ne_zero (Nat.ne_zero_of_lt hfuel)
    rfl
  | cons c t ih =>
    obtain ⟨fuel, rfl⟩ := Nat.exists_eq_succ_of_ne_zero (Nat.ne_zero_of_lt hfuel)
    rw [Plain, List.forall_mem_cons] at ht
    rw [List.cons_append, stringBody_plain ht.1, ih ht.2 (Nat.lt_of_succ_lt_succ hfuel), Option.map_some]

/-! ### Escapes before a quote -/

section Escapes

variable {p s l d : List UInt8}

/-- Four digits lie before the quote. -/
theorem hex4_quote {n : ℕ} (h : hex4 (p ++ 34 :: s) = some (n, l)) :
    ∃ e q, p = e ++ q ∧ e.length = 4 ∧ l = q ++ 34 :: s := by
  have hquote : hexValue 34 = none := by decide
  rcases p with _ | ⟨a, _ | ⟨b, _ | ⟨c, _ | ⟨d, q⟩⟩⟩⟩
  · rcases s with _ | ⟨_, _ | ⟨_, _ | ⟨_, s⟩⟩⟩ <;> simp [hex4, hquote] at h
  · rcases s with _ | ⟨_, _ | ⟨_, s⟩⟩ <;> simp [hex4, hquote] at h
  · rcases s with _ | ⟨_, s⟩ <;> simp [hex4, hquote] at h
  · simp [hex4, hquote] at h
  · refine ⟨[a, b, c, d], q, rfl, rfl, ?_⟩
    simp only [List.cons_append, hex4, Option.bind_eq_bind, Option.bind_eq_some_iff] at h
    obtain ⟨_, -, _, -, _, -, _, -, h⟩ := h
    exact (Prod.mk.inj (Option.some.inj h)).2.symm

theorem lowSurrogate_quote {n : ℕ} (hp : 34 ∉ p) (h : lowSurrogate (p ++ 34 :: s) = some (n, l)) :
    ∃ e q, p = e ++ q ∧ e.length = 6 ∧ l = q ++ 34 :: s := by
  rcases p with _ | ⟨a, _ | ⟨b, p⟩⟩
  · cases s with
    | nil => cases h
    | cons c s => cases h
  · rw [List.cons_append, List.nil_append, lowSurrogate, if_neg fun hab => absurd hab.2 (by decide)] at h
    cases h
  · rw [List.cons_append, List.cons_append, lowSurrogate] at h
    split at h
    · obtain ⟨m, hm, h⟩ := Option.bind_eq_some_iff.mp h
      split at h
      · obtain ⟨-, rfl⟩ := Prod.mk.inj (Option.some.inj h)
        obtain ⟨e, q, rfl, he, hl⟩ := hex4_quote hm
        exact ⟨a :: b :: e, q, rfl, by rw [List.length_cons, List.length_cons, he], hl⟩
      · cases h
    · cases h

theorem length_character (n : ℕ) : (character n).length ≤ 4 := by
  rw [character, String.length_utf8EncodeChar]
  exact Char.utf8Size_le_four _

theorem unicode_quote (hp : 34 ∉ p) (h : unicode (p ++ 34 :: s) = some (d, l)) :
    ∃ e q, p = e ++ q ∧ l = q ++ 34 :: s ∧ d ≠ [] ∧ d.length ≤ e.length := by
  obtain ⟨n, hn, hn'⟩ := Option.bind_eq_some_iff.mp h
  clear h
  obtain ⟨e, q, rfl, he, hq⟩ := hex4_quote hn
  have hne (k : ℕ) : character k ≠ [] := String.utf8EncodeChar_ne_nil
  split at hn'
  · obtain ⟨m, hm, hpair⟩ := Option.map_eq_some_iff.mp hn'
    obtain ⟨rfl, rfl⟩ := Prod.mk.inj hpair
    rw [hq] at hm
    obtain ⟨e', q', rfl, he', hl⟩ := lowSurrogate_quote (fun h34 => hp (List.mem_append_right _ h34)) hm
    refine ⟨e ++ e', q', (List.append_assoc ..).symm, hl, hne _, (length_character _).trans ?_⟩
    rw [List.length_append, he]
    exact Nat.le_add_right 4 _
  · split at hn'
    · cases hn'
    · obtain ⟨rfl, rfl⟩ := Prod.mk.inj (Option.some.inj hn')
      exact ⟨e, q, rfl, hq, hne _, (length_character _).trans he.ge⟩

/-- An escape takes the quote itself, or lies before it and has as many characters as it
stands for bytes, without the backslash. -/
theorem escape_quote (hp : 34 ∉ p) (h : escape (p ++ 34 :: s) = some (d, l)) :
    (p = [] ∧ d = [34]) ∨ ∃ e q, p = e ++ q ∧ l = q ++ 34 :: s ∧ d ≠ [] ∧ d.length ≤ e.length := by
  cases p with
  | nil =>
    cases h
    exact .inl ⟨rfl, rfl⟩
  | cons c p =>
    rw [List.cons_append, escape] at h
    rw [List.mem_cons, not_or] at hp
    split at h
    · cases h
      exact .inr ⟨[c], p, rfl, rfl, List.cons_ne_nil _ _, le_rfl⟩
    · split at h
      · obtain ⟨e, q, rfl, hl, hd, hlength⟩ := unicode_quote hp.2 h
        exact .inr ⟨c :: e, q, rfl, hl, hd, hlength.trans (Nat.le_succ _)⟩
      · cases h

end Escapes

/-- What is left to be read if less has been read than stands there. -/
theorem exists_left {α : Type*} {d rest b c : List α} (hread : d ++ rest = b ++ c) (hlength : d.length < b.length) :
    ∃ w, w ≠ [] ∧ b = d ++ w ∧ rest = w ++ c := by
  rcases List.append_eq_append_iff.mp hread with ⟨w, rfl, hrest⟩ | ⟨w, rfl, -⟩
  · refine ⟨w, fun hnil => ?_, rfl, hrest⟩
    rw [hnil, List.append_nil] at hlength
    exact absurd hlength (Nat.lt_irrefl _)
  · rw [List.length_append] at hlength
    omega

/-- Up to the first quote nothing is read as itself with something before or behind it, and
only plain strings are read as themselves: behind an escape the rest would have to stand
for more than itself. -/
theorem plain_of_stringBody {fuel : ℕ} {p w t s r : List UInt8} (hp : 34 ∉ p) (hw : 34 ∉ w)
    (h : stringBody fuel (p ++ 34 :: s) = some (w ++ p ++ t, r)) : w = [] ∧ t = [] ∧ Plain p := by
  induction fuel generalizing p w with
  | zero => cases h
  | succ fuel ih =>
    cases p with
    | nil =>
      obtain ⟨hnil, -⟩ := Prod.mk.inj (Option.some.inj h)
      obtain ⟨hw', ht⟩ := List.append_eq_nil_iff.mp hnil.symm
      exact ⟨(List.append_eq_nil_iff.mp hw').1, ht, fun _ hc => by cases hc⟩
    | cons c p =>
      rw [List.mem_cons, not_or] at hp
      rw [List.cons_append, stringBody, if_neg (Ne.symm hp.1)] at h
      split at h
      · next hslash =>
        obtain ⟨e, he, h⟩ := Option.bind_eq_some_iff.mp h
        obtain ⟨rest, hrest, h⟩ := Option.map_eq_some_iff.mp h
        obtain ⟨hread, rfl⟩ := Prod.mk.inj h
        rcases escape_quote hp.2 (show escape (p ++ 34 :: s) = some (e.1, e.2) from he) with
          ⟨rfl, hd⟩ | ⟨e', q, rfl, hl, -, hlength⟩
        · -- the escaped quote is no character of what should have been read
          rw [hd, hslash, List.singleton_append] at hread
          cases w with
          | nil => cases hread
          | cons a w =>
            obtain ⟨rfl, -⟩ := List.cons.inj hread
            exact absurd (List.mem_cons_self ..) hw
        · have hsplit : e.1 ++ rest.1 = (w ++ c :: e') ++ (q ++ t) := by
            rw [hread]
            simp only [List.append_assoc, List.cons_append]
          obtain ⟨w', hne, hw', hrest'⟩ := exists_left hsplit (by
            rw [List.length_append, List.length_cons]
            omega)
          have h34 : 34 ∉ w ++ c :: e' := by
            rw [List.mem_append, List.mem_cons, not_or, not_or]
            exact ⟨hw, hp.1, fun hmem => hp.2 (List.mem_append_left _ hmem)⟩
          rw [hw'] at h34
          refine absurd (ih (fun hmem => hp.2 (List.mem_append_right _ hmem))
            (fun hmem => h34 (List.mem_append_right _ hmem)) ?_).1 hne
          rw [← hl, hrest, List.append_assoc, ← hrest']
      · next hslash =>
        split at h
        · cases h
        · next hcontrol =>
          obtain ⟨rest, hrest, h⟩ := Option.map_eq_some_iff.mp h
          obtain ⟨hread, rfl⟩ := Prod.mk.inj h
          cases w with
          | nil =>
            have hrest' : rest.1 = p ++ t := (List.cons.inj hread).2
            obtain ⟨-, ht, hplain⟩ := ih hp.2 List.not_mem_nil (by rw [hrest, List.nil_append, ← hrest'])
            exact ⟨rfl, ht, List.forall_mem_cons.mpr ⟨⟨Ne.symm hp.1, hslash, hcontrol⟩, hplain⟩⟩
          | cons a w =>
            have hrest' : rest.1 = w ++ c :: p ++ t := (List.cons.inj hread).2
            rw [List.mem_cons, not_or] at hw
            have h34 : 34 ∉ w ++ [c] := by
              rw [List.mem_append, List.mem_singleton, not_or]
              exact ⟨hw.2, hp.1⟩
            refine absurd (ih hp.2 h34 ?_).1 (List.append_ne_nil_of_right_ne_nil _ (List.cons_ne_nil _ _))
            rw [hrest, List.append_assoc w, List.singleton_append, ← hrest']

theorem stringLiteral_of_plain {t : List UInt8} (ht : Plain t) (r : List UInt8) :
    stringLiteral (t ++ 34 :: r) = some (t, r) :=
  stringBody_of_plain ht (by rw [List.length_append]; omega) r

/-- **A string between quotes** reads as itself if and only if it is plain. -/
theorem stringLiteral_iff {t r : List UInt8} :
    (∃ r', stringLiteral (t ++ 34 :: r) = some (t, r')) ↔ Plain t := by
  constructor
  · rintro ⟨r', h⟩
    by_cases hquote : 34 ∈ t
    · obtain ⟨p, q, rfl, hp⟩ := List.eq_append_cons_of_mem hquote
      rw [stringLiteral, List.append_assoc, List.cons_append] at h
      exact absurd (plain_of_stringBody (w := []) hp List.not_mem_nil h).2.1 (List.cons_ne_nil _ _)
    · exact (plain_of_stringBody (w := []) (t := []) hquote List.not_mem_nil
        (by rw [List.nil_append, List.append_nil]; exact h)).2.2
  · exact fun ht => ⟨r, stringLiteral_of_plain ht r⟩

/-! ### Numbers -/

/-- A decimal digit. -/
def isDigit (c : UInt8) : Bool := 48 ≤ c && c ≤ 57

/-- Digits, at least one. -/
def digits (l : List UInt8) : Option (List UInt8 × List UInt8) :=
  if l.takeWhile isDigit = [] then none else some (l.takeWhile isDigit, l.dropWhile isDigit)

/-- The integer part: a zero, or digits of which the first is no zero. -/
def integer : Parser (List UInt8)
  | [] => none
  | c :: l => if c = 48 then some ([48], l) else digits (c :: l)

/-- The fraction, if there is one. -/
def fraction : Parser (List UInt8)
  | [] => some ([], [])
  | c :: l => if c = 46 then (digits l).map fun ds => (46 :: ds.1, ds.2) else some ([], c :: l)

/-- The sign of an exponent, if there is one, and its digits. -/
def signedDigits : Parser (List UInt8)
  | [] => none
  | c :: l => if c = 43 ∨ c = 45 then (digits l).map fun ds => (c :: ds.1, ds.2) else digits (c :: l)

/-- The exponent, if there is one. -/
def exponent : Parser (List UInt8)
  | [] => some ([], [])
  | c :: l => if c = 69 ∨ c = 101 then (signedDigits l).map fun ds => (c :: ds.1, ds.2) else some ([], c :: l)

/-- A number without a sign. -/
def unsigned (l : List UInt8) : Option (List UInt8 × List UInt8) :=
  (integer l).bind fun i => (fraction i.2).bind fun f => (exponent f.2).map fun e => (i.1 ++ f.1 ++ e.1, e.2)

/-- A number. -/
def number : Parser (List UInt8)
  | [] => none
  | c :: l => if c = 45 then (unsigned l).map fun n => (45 :: n.1, n.2) else unsigned (c :: l)

theorem takeWhile_digits {t : List UInt8} (ht : ∀ c ∈ t, isDigit c = true) {c : UInt8} (hc : isDigit c = false)
    (r : List UInt8) : (t ++ c :: r).takeWhile isDigit = t ∧ (t ++ c :: r).dropWhile isDigit = c :: r := by
  rw [List.takeWhile_append_of_pos ht, List.dropWhile_append_of_pos ht,
    List.takeWhile_cons_of_neg (by rw [hc]; decide), List.dropWhile_cons_of_neg (by rw [hc]; decide), List.append_nil]
  exact ⟨rfl, rfl⟩

/-- Digits that are a number as they are, before something that cannot belong to a number. -/
theorem number_of_digits {c d : UInt8} {t r : List UInt8} (ht : ∀ b ∈ c :: t, isDigit b = true)
    (hzero : c = 48 → t = []) (hd : isDigit d = false) (hpoint : d ≠ 46) (hexponent : ¬(d = 69 ∨ d = 101)) :
    number (c :: t ++ d :: r) = some (c :: t, d :: r) := by
  obtain ⟨htake, hdrop⟩ := takeWhile_digits ht hd r
  have hinteger : integer (c :: t ++ d :: r) = some (c :: t, d :: r) := by
    rw [List.cons_append, integer]
    split
    · next hc =>
      rw [hzero hc, hc]
      rfl
    · rw [← List.cons_append, digits, htake, hdrop, if_neg (List.cons_ne_nil c t)]
  have hsign : c ≠ 45 := by
    rintro rfl
    exact absurd (ht 45 (List.mem_cons_self ..)) (by decide)
  have hunsigned : unsigned (c :: t ++ d :: r) = some (c :: t, d :: r) := by
    rw [unsigned, hinteger, Option.bind_some, fraction, if_neg hpoint, Option.bind_some, exponent, if_neg hexponent,
      Option.map_some, List.append_nil, List.append_nil]
  rw [List.cons_append, number, if_neg hsign, ← List.cons_append, hunsigned]

/-! ### Values -/

/-- White space. -/
def isWhite (c : UInt8) : Bool := c = 32 || c = 9 || c = 10 || c = 13

/-- The text without white space before it. -/
def skipWhite (l : List UInt8) : List UInt8 := l.dropWhile isWhite

/-- Items with commas between them, up to a closing bracket. -/
def separated {α : Type} (item : Parser α) (close : UInt8) : ℕ → Parser (List α)
  | 0, _ => none
  | n + 1, l => (item l).bind fun x =>
    match skipWhite x.2 with
    | [] => none
    | c :: l =>
      if c = 44 then (separated item close n l).map fun xs => (x.1 :: xs.1, xs.2)
      else if c = close then some ([x.1], l)
      else none

/-- Such items behind an opening bracket, or none. -/
def bracketed {α : Type} (item : Parser α) (close : UInt8) (l : List UInt8) : Option (List α × List UInt8) :=
  match skipWhite l with
  | [] => none
  | c :: r => if c = close then some ([], r) else separated item close (r.length + 1) (c :: r)

/-- The member of an object. -/
def pair {α : Type} (value : Parser α) (l : List UInt8) : Option ((List UInt8 × α) × List UInt8) :=
  match skipWhite l with
  | [] => none
  | c :: l =>
    if c = 34 then (stringLiteral l).bind fun name =>
      match skipWhite name.2 with
      | [] => none
      | c :: l => if c = 58 then (value l).map fun v => ((name.1, v.1), v.2) else none
    else none

/-- A value, not nested deeper than a number says. -/
def value : ℕ → Parser (Json (List UInt8))
  | 0, _ => none
  | depth + 1, l =>
    match skipWhite l with
    | [] => none
    | c :: l =>
      if c = 34 then (stringLiteral l).map fun s => (.string s.1, s.2)
      else if c = 123 then (bracketed (pair (value depth)) 125 l).map fun ms => (.object ms.1, ms.2)
      else if c = 91 then (bracketed (value depth) 93 l).map fun vs => (.array vs.1, vs.2)
      else if CString.ascii "true" <+: c :: l then some (.bool true, l.drop 3)
      else if CString.ascii "false" <+: c :: l then some (.bool false, l.drop 4)
      else if CString.ascii "null" <+: c :: l then some (.null, l.drop 3)
      else (number (c :: l)).map fun n => (.number n.1, n.2)

/-- The value of a JSON text. -/
def parse (l : List UInt8) : Option (Json (List UInt8)) :=
  (value (l.length + 1) l).bind fun v => if skipWhite v.2 = [] then some v.1 else none

section Values

variable {α : Type} {item : Parser α} {close : UInt8} {depth n : ℕ} {l r : List UInt8}

theorem skipWhite_cons {c : UInt8} (hc : isWhite c = false) (l : List UInt8) : skipWhite (c :: l) = c :: l :=
  List.dropWhile_cons_of_neg (by rw [hc]; decide)

theorem value_string : value (depth + 1) (34 :: l) = (stringLiteral l).map fun s => (.string s.1, s.2) := rfl

theorem value_object : value (depth + 1) (123 :: 34 :: l) =
    (separated (pair (value depth)) 125 (l.length + 1) (34 :: l)).map fun ms => (.object ms.1, ms.2) := rfl

theorem value_digits {c : UInt8} (hc : isDigit c = true) (l : List UInt8) :
    value (depth + 1) (c :: l) = (number (c :: l)).map fun n => (.number n.1, n.2) := by
  have hne (d : UInt8) (hd : isDigit d = false) : c ≠ d := by
    rintro rfl
    rw [hc] at hd
    cases hd
  have hword (d : UInt8) (hd : isDigit d = false) (w : List UInt8) : ¬d :: w <+: c :: l := fun h =>
    hne d hd (List.cons_prefix_cons.mp h).1.symm
  have hwhite : isWhite c = false := by
    simp only [isWhite, Bool.or_eq_false_iff, decide_eq_false_iff_not]
    exact ⟨⟨⟨hne 32 rfl, hne 9 rfl⟩, hne 10 rfl⟩, hne 13 rfl⟩
  rw [value, skipWhite_cons hwhite]
  simp only [if_neg (hne 34 rfl), if_neg (hne 123 rfl), if_neg (hne 91 rfl)]
  rw [if_neg (show ¬CString.ascii "true" <+: c :: l from hword 116 rfl _),
    if_neg (show ¬CString.ascii "false" <+: c :: l from hword 102 rfl _),
    if_neg (show ¬CString.ascii "null" <+: c :: l from hword 110 rfl _)]

/-- A member with a plain name. -/
theorem pair_name {name : List UInt8} (hname : Plain name) (item : Parser α) (l : List UInt8) :
    pair item (34 :: (name ++ 34 :: 58 :: l)) = (item l).map fun v => ((name, v.1), v.2) := by
  rw [pair, skipWhite_cons rfl]
  simp only [if_pos, stringLiteral_of_plain hname, Option.bind_some]
  rw [skipWhite_cons rfl]
  exact if_pos rfl

/-- Some item comes first. -/
theorem exists_item {xs : List α} (h : separated item close (n + 1) l = some (xs, r)) :
    ∃ x, item l = some x ∧ xs.head? = some x.1 := by
  obtain ⟨x, hx, h⟩ := Option.bind_eq_some_iff.mp h
  refine ⟨x, hx, ?_⟩
  split at h
  · cases h
  · split at h
    · obtain ⟨ys, -, hys⟩ := Option.map_eq_some_iff.mp h
      cases hys
      rfl
    · split at h
      · cases h
        rfl
      · cases h

theorem separated_comma {x : α} (h : item l = some (x, 44 :: r)) :
    separated item close (n + 1) l = (separated item close n r).map fun xs => (x :: xs.1, xs.2) := by
  rw [separated, h]
  rfl

theorem separated_brace {x : α} (h : item l = some (x, 125 :: r)) : separated item 125 (n + 1) l = some ([x], r) := by
  rw [separated, h]
  rfl

end Values

end ModbusProxy.JsonText
