import ModbusProxy.Library.Printf

/-!
# JSON values as templates

The text of a JSON value without white space, with a hole for every number. Filled with the
texts of numbers it reads as the value with these texts (`parse_template`).
-/

namespace ModbusProxy

namespace Json

open CString Printf

variable {ν μ : Type}

mutual

/-- The value with other numbers. -/
def map (f : ν → μ) : Json ν → Json μ
  | .null => .null
  | .bool b => .bool b
  | .number n => .number (f n)
  | .string s => .string s
  | .array items => .array (mapItems f items)
  | .object members => .object (mapMembers f members)

/-- Items with other numbers. -/
def mapItems (f : ν → μ) : List (Json ν) → List (Json μ)
  | [] => []
  | v :: items => v.map f :: mapItems f items

/-- Members with other numbers. -/
def mapMembers (f : ν → μ) : List (List UInt8 × Json ν) → List (List UInt8 × Json μ)
  | [] => []
  | (name, v) :: members => (name, v.map f) :: mapMembers f members

end

/-- What is between an item and the next. -/
def comma {α : Type} : List α → Template ν
  | [] => []
  | _ :: _ => literal [44]

mutual

/-- The text of a value. -/
def template : Json ν → Template ν
  | .null => literal (ascii "null")
  | .bool true => literal (ascii "true")
  | .bool false => literal (ascii "false")
  | .number n => [.inr n]
  | .string s => literal (34 :: (s ++ [34]))
  | .array items => literal [91] ++ itemsTemplate items ++ literal [93]
  | .object members => literal [123] ++ membersTemplate members ++ literal [125]

/-- The text of items. -/
def itemsTemplate : List (Json ν) → Template ν
  | [] => []
  | v :: items => v.template ++ comma items ++ itemsTemplate items

/-- The text of members. -/
def membersTemplate : List (List UInt8 × Json ν) → Template ν
  | [] => []
  | (name, v) :: members => literal (34 :: (name ++ [34, 58])) ++ v.template ++ comma members ++ membersTemplate members

end

mutual

/-- All strings and names are plain. -/
def isPlain : Json ν → Bool
  | .string s => decide (JsonText.Plain s)
  | .array items => itemsPlain items
  | .object members => membersPlain members
  | _ => true

/-- All strings and names in the items are plain. -/
def itemsPlain : List (Json ν) → Bool
  | [] => true
  | v :: items => v.isPlain && itemsPlain items

/-- All strings and names in the members are plain. -/
def membersPlain : List (List UInt8 × Json ν) → Bool
  | [] => true
  | (name, v) :: members => decide (JsonText.Plain name) && v.isPlain && membersPlain members

end

/-! ### Members -/

end Json

namespace JsonText

open CString Decimal Json Printf

/-! ### Numbers -/

/-- What follows does not go on with a number. -/
def Ends (r : List UInt8) : Prop := ∀ c, r.head? = some c → isDigit c = false ∧ c ≠ 46 ∧ ¬(c = 69 ∨ c = 101)

/-- The text is a number. -/
structure IsNumber (t : List UInt8) : Prop where
  /-- It begins with a sign or a digit. -/
  head : ∃ c l, t = c :: l ∧ (c = 45 ∨ isDigit c = true)
  /-- It is read. -/
  read : ∀ r, Ends r → number (t ++ r) = some (t, r)

section Numbers

variable {r : List UInt8}

end Numbers

/-! ### Values -/

section Values

variable {ν : Type} {text : ν → List UInt8}

theorem value_number {c : UInt8} (hc : c = 45 ∨ isDigit c = true) (depth : ℕ) (l : List UInt8) :
    value (depth + 1) (c :: l) = (number (c :: l)).map fun n => (.number n.1, n.2) := by
  obtain rfl | hc := hc
  · rfl
  · exact value_digits hc l

/-- What a value begins with. -/
theorem exists_head (htext : ∀ n, IsNumber (text n)) (v : Json ν) :
    ∃ c l, v.template.fill text = c :: l ∧ isWhite c = false ∧ c ≠ 93 := by
  cases v with
  | null => exact ⟨_, _, fill_literal text (110 :: _), by decide, by decide⟩
  | bool b =>
    cases b with
    | true => exact ⟨_, _, fill_literal text (116 :: _), by decide, by decide⟩
    | false => exact ⟨_, _, fill_literal text (102 :: _), by decide, by decide⟩
  | string s => exact ⟨_, _, fill_literal text (34 :: _), by decide, by decide⟩
  | number n =>
    obtain ⟨c, l, hl, hc⟩ := (htext n).head
    refine ⟨c, l, by rw [template, fill_inr, fill_nil, List.append_nil, hl], ?_⟩
    have hne : c = 45 ∨ 48 ≤ c.toNat ∧ c.toNat ≤ 57 := hc.imp id isDigit_iff.mp
    constructor
    · simp only [isWhite, Bool.or_eq_false_iff, decide_eq_false_iff_not]
      refine ⟨⟨⟨?_, ?_⟩, ?_⟩, ?_⟩ <;>
        · rintro rfl
          revert hne
          decide
    · rintro rfl
      revert hne
      decide
  | array items => exact ⟨91, _, rfl, by decide, by decide⟩
  | object members => exact ⟨123, _, rfl, by decide, by decide⟩

/-- What items begin with. -/
theorem exists_head_items (htext : ∀ n, IsNumber (text n)) (v : Json ν) (items : List (Json ν)) :
    ∃ c l, (itemsTemplate (v :: items)).fill text = c :: l ∧ isWhite c = false ∧ c ≠ 93 := by
  obtain ⟨c, l, hl, hc⟩ := exists_head htext v
  refine ⟨c, l ++ (comma items).fill text ++ (itemsTemplate items).fill text, ?_, hc⟩
  rw [itemsTemplate, fill_append, fill_append, hl]
  rfl

theorem length_le_fuel (c : UInt8) (l r : List UInt8) : (c :: l).length ≤ (l ++ r).length + 1 := by
  rw [List.length_cons, List.length_append]
  omega

theorem value_array (depth : ℕ) (l : List UInt8) :
    value (depth + 1) (91 :: l) = (bracketed (value depth) 93 l).map fun vs => (.array vs.1, vs.2) := rfl

theorem value_braces (depth : ℕ) (l : List UInt8) :
    value (depth + 1) (123 :: l) = (bracketed (pair (value depth)) 125 l).map fun ms => (.object ms.1, ms.2) := rfl

/-- A bracket that closes at once, and one before an item. -/
theorem bracketed_close {α : Type} (item : Parser α) {close : UInt8} (hclose : isWhite close = false) (r : List UInt8) :
    bracketed item close (close :: r) = some ([], r) := by
  rw [bracketed, skipWhite_cons hclose]
  exact if_pos rfl

theorem bracketed_item {α : Type} (item : Parser α) {close c : UInt8} (hc : isWhite c = false) (hne : c ≠ close)
    (r : List UInt8) : bracketed item close (c :: r) = separated item close (r.length + 1) (c :: r) := by
  rw [bracketed, skipWhite_cons hc]
  exact if_neg hne

theorem separated_close {α : Type} {item : Parser α} {close : UInt8} (hwhite : isWhite close = false) (hcomma : close ≠ 44)
    {n : ℕ} {l r : List UInt8} {x : α} (h : item l = some (x, close :: r)) :
    separated item close (n + 1) l = some ([x], r) := by
  rw [separated, h, Option.bind_some]
  simp only [skipWhite_cons hwhite, if_neg hcomma, if_pos]

theorem ends_cons {c : UInt8} (h : isDigit c = false ∧ c ≠ 46 ∧ ¬(c = 69 ∨ c = 101)) (r : List UInt8) : Ends (c :: r) := by
  rintro d ⟨⟩
  exact h

mutual

/-- **The text of a value** reads as the value. -/
theorem value_template (htext : ∀ n, IsNumber (text n)) : ∀ v : Json ν, v.isPlain = true → ∀ (depth : ℕ) (r : List UInt8),
    (v.template.fill text).length ≤ depth → Ends r → value (depth + 1) (v.template.fill text ++ r) = some (v.map text, r)
  | .null, _, depth, r, _, _ => by
    rw [template, fill_literal]
    rfl
  | .bool true, _, depth, r, _, _ => by
    rw [template, fill_literal]
    rfl
  | .bool false, _, depth, r, _, _ => by
    rw [template, fill_literal]
    rfl
  | .number n, _, depth, r, _, hr => by
    obtain ⟨⟨c, l, hl, hc⟩, hread⟩ := htext n
    rw [template, fill_inr, fill_nil, List.append_nil]
    have h := hread r hr
    rw [hl, List.cons_append] at h ⊢
    rw [value_number hc, h, Option.map_some, Json.map, hl]
  | .string s, hplain, depth, r, _, _ => by
    have hs : Plain s := of_decide_eq_true hplain
    rw [template, fill_literal, List.cons_append, List.append_assoc, value_string]
    change (stringLiteral (s ++ 34 :: r)).map _ = _
    rw [stringLiteral_of_plain hs]
    rfl
  | .array items, hplain, depth, r, hdepth, _ => by
    rw [template, fill_append, fill_append, fill_literal, fill_literal, List.length_append, List.length_append] at hdepth
    rw [template, fill_append, fill_append, fill_literal, fill_literal, List.append_assoc, List.append_assoc]
    change value (depth + 1) (91 :: ((itemsTemplate items).fill text ++ 93 :: r)) = _
    rw [value_array]
    cases items with
    | nil =>
      rw [itemsTemplate, fill_nil, List.nil_append, bracketed_close _ rfl]
      rfl
    | cons v items =>
      have hitems := separated_items htext (v :: items) (List.cons_ne_nil v items) hplain depth
      obtain ⟨c, l, hl, hwhite, hne⟩ := exists_head_items htext v items
      simp only [List.length_singleton] at hdepth
      rw [hl] at hitems hdepth ⊢
      rw [List.cons_append, bracketed_item _ hwhite hne, ← List.cons_append, hitems _ r (by omega) (length_le_fuel c l _)]
      rfl
  | .object members, hplain, depth, r, hdepth, _ => by
    rw [template, fill_append, fill_append, fill_literal, fill_literal, List.length_append, List.length_append] at hdepth
    rw [template, fill_append, fill_append, fill_literal, fill_literal, List.append_assoc, List.append_assoc]
    change value (depth + 1) (123 :: ((membersTemplate members).fill text ++ 125 :: r)) = _
    rw [value_braces]
    cases members with
    | nil =>
      rw [membersTemplate, fill_nil, List.nil_append, bracketed_close _ rfl]
      rfl
    | cons m members =>
      have hmembers := separated_members htext (m :: members) (List.cons_ne_nil m members) hplain depth
      obtain ⟨l, hl⟩ : ∃ l, (membersTemplate (m :: members)).fill text = 34 :: l := ⟨_, rfl⟩
      simp only [List.length_singleton] at hdepth
      rw [hl] at hmembers hdepth ⊢
      rw [List.cons_append, bracketed_item _ rfl (by decide), ← List.cons_append,
        hmembers _ r (by omega) (length_le_fuel 34 l _)]
      rfl

/-- The text of items. -/
theorem separated_items (htext : ∀ n, IsNumber (text n)) : ∀ items : List (Json ν), items ≠ [] → itemsPlain items = true →
    ∀ (depth n : ℕ) (r : List UInt8), ((itemsTemplate items).fill text).length < depth →
      ((itemsTemplate items).fill text).length ≤ n →
      separated (value depth) 93 n ((itemsTemplate items).fill text ++ 93 :: r) = some (mapItems text items, r)
  | [], hne, _, _, _, _, _, _ => absurd rfl hne
  | v :: items, _, hplain, depth, n, r, hdepth, hn => by
    obtain ⟨hv, hitems⟩ := Bool.and_eq_true_iff.mp hplain
    obtain ⟨d, rfl⟩ : ∃ d, depth = d + 1 := ⟨depth - 1, by omega⟩
    obtain ⟨c, l, hl, -⟩ := exists_head htext v
    have hvalue := value_template htext v hv d
    rw [itemsTemplate, fill_append, fill_append, List.length_append, List.length_append] at hdepth hn
    rw [itemsTemplate, fill_append, fill_append, List.append_assoc, List.append_assoc]
    have hpos : 0 < (v.template.fill text).length := by rw [hl]; exact Nat.succ_pos _
    obtain ⟨n, rfl⟩ : ∃ k, n = k + 1 := ⟨n - 1, by omega⟩
    cases items with
    | nil =>
      change separated _ 93 _ (v.template.fill text ++ 93 :: r) = _
      rw [separated_close rfl (by decide) (hvalue _ (by omega) (ends_cons (by decide) r))]
      rfl
    | cons w items =>
      have hrest := separated_items htext (w :: items) (List.cons_ne_nil w items) hitems (d + 1) n r (by omega) (by omega)
      change separated _ _ _ (v.template.fill text ++ 44 :: ((itemsTemplate (w :: items)).fill text ++ 93 :: r)) = _
      rw [separated_comma (hvalue _ (by omega) (ends_cons (by decide) _)), hrest]
      rfl

/-- The text of members. -/
theorem separated_members (htext : ∀ n, IsNumber (text n)) : ∀ members : List (List UInt8 × Json ν), members ≠ [] →
    membersPlain members = true → ∀ (depth n : ℕ) (r : List UInt8),
      ((membersTemplate members).fill text).length < depth → ((membersTemplate members).fill text).length ≤ n →
      separated (pair (value depth)) 125 n ((membersTemplate members).fill text ++ 125 :: r) =
        some (mapMembers text members, r)
  | [], hne, _, _, _, _, _, _ => absurd rfl hne
  | (name, v) :: members, _, hplain, depth, n, r, hdepth, hn => by
    obtain ⟨hname, hmembers⟩ := Bool.and_eq_true_iff.mp hplain
    obtain ⟨hname, hv⟩ := Bool.and_eq_true_iff.mp hname
    obtain ⟨d, rfl⟩ : ∃ d, depth = d + 1 := ⟨depth - 1, by omega⟩
    have hvalue := value_template htext v hv d
    have hpair (l : List UInt8) := pair_name (of_decide_eq_true hname) (value (d + 1)) l
    rw [membersTemplate, fill_append, fill_append, fill_append, fill_literal, List.length_append, List.length_append,
      List.length_append, List.length_cons] at hdepth hn
    rw [membersTemplate, fill_append, fill_append, fill_append, fill_literal, List.append_assoc, List.append_assoc,
      List.append_assoc, List.cons_append, List.append_assoc]
    obtain ⟨n, rfl⟩ : ∃ k, n = k + 1 := ⟨n - 1, by omega⟩
    cases members with
    | nil =>
      change separated _ 125 _ (34 :: (name ++ 34 :: 58 :: (v.template.fill text ++ 125 :: r))) = _
      rw [separated_close rfl (by decide) ((hpair _).trans (by
        rw [hvalue _ (by omega) (ends_cons (by decide) r), Option.map_some]))]
      rfl
    | cons m members =>
      have hrest := separated_members htext (m :: members) (List.cons_ne_nil m members) hmembers (d + 1) n r (by omega)
        (by omega)
      change separated _ 125 _ (34 :: (name ++ 34 :: 58 ::
        (v.template.fill text ++ 44 :: ((membersTemplate (m :: members)).fill text ++ 125 :: r)))) = _
      rw [separated_comma ((hpair _).trans (by rw [hvalue _ (by omega) (ends_cons (by decide) _), Option.map_some])),
        hrest]
      rfl

end

end Values

end JsonText

end ModbusProxy
