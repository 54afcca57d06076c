import Mathlib.Data.List.Basic
import Mathlib.Data.List.TakeWhile
import Mathlib.Tactic

/-!
# C strings

What a pointer points at is the list of the bytes that may be read from it on; reading on
after them has no result. A C string is the text before the first NUL. This module has the
text at a pointer, the comparison of the first bytes of two texts (`strncmp`), and lists
that are split at the first item that has or lacks a property.
-/

namespace ModbusProxy.CString

/-- The bytes of a literal. -/
def ascii (s : String) : List UInt8 := s.toList.map fun c => UInt8.ofNat c.toNat

/-- The text at a pointer. -/
def cstring : List UInt8 → Option (List UInt8)
  | [] => none
  | c :: m => if c = 0 then some [] else (cstring m).map (c :: ·)

theorem cstring_append {t : List UInt8} (ht : 0 ∉ t) (r : List UInt8) : cstring (t ++ 0 :: r) = some t := by
  induction t with
  | nil => rfl
  | cons c t ih =>
    rw [List.mem_cons, not_or] at ht
    rw [List.cons_append, cstring, if_neg fun hc => ht.1 hc.symm, ih ht.2, Option.map_some]

/-- A list in which not every item has a property is split at the first that has not. -/
theorem exists_first {α : Type*} {p : α → Bool} {l : List α} (h : ¬∀ x ∈ l, p x = true) :
    ∃ b x r, l = b ++ x :: r ∧ (∀ y ∈ b, p y = true) ∧ p x = false := by
  induction l with
  | nil => exact absurd (fun x hx => by cases hx) h
  | cons a l ih =>
    cases ha : p a with
    | false => exact ⟨[], a, l, rfl, (fun y hy => by cases hy), ha⟩
    | true =>
      have hl : ¬∀ x ∈ l, p x = true := fun hl => h (List.forall_mem_cons.mpr ⟨ha, hl⟩)
      obtain ⟨b, x, r, rfl, hb, hx⟩ := ih hl
      exact ⟨a :: b, x, r, rfl, List.forall_mem_cons.mpr ⟨ha, hb⟩, hx⟩

/-- A list with a NUL is a text, a NUL and a rest. -/
theorem exists_text {m : List UInt8} (h : 0 ∈ m) : ∃ t r, 0 ∉ t ∧ m = t ++ 0 :: r := by
  have hnot : ¬∀ x ∈ m, (x != 0) = true := fun hall => absurd (hall 0 h) (by decide)
  obtain ⟨t, x, r, rfl, ht, hx⟩ := exists_first hnot
  obtain rfl : x = 0 := by simpa using hx
  exact ⟨t, r, fun h0 => absurd (ht 0 h0) (by decide), rfl⟩

/-- What begins a text and its NUL, without a NUL itself, begins the text. -/
theorem begins_text {l t : List UInt8} (hl : 0 ∉ l) {r : List UInt8} (h : l <+: t ++ 0 :: r) : l <+: t := by
  rcases List.prefix_or_prefix_of_prefix h (List.prefix_append t (0 :: r)) with hlt | ⟨x, rfl⟩
  · exact hlt
  · cases x with
    | nil => rw [List.append_nil]
    | cons c x =>
      rw [List.prefix_append_right_inj, List.cons_prefix_cons] at h
      rw [h.1] at hl
      exact absurd (List.mem_append_right t (List.mem_cons_self ..)) hl

/-- What is left of the first `n` items after those with a property. -/
theorem dropWhile_take {α : Type*} (p : α → Bool) (l : List α) (n : ℕ) :
    (l.take n).dropWhile p = (l.dropWhile p).take (n - (l.takeWhile p).length) := by
  induction l generalizing n with
  | nil => simp
  | cons a l ih =>
    cases n with
    | zero => rw [List.take_zero, Nat.zero_sub, List.take_zero, List.dropWhile_nil]
    | succ n =>
      rw [List.take_succ_cons]
      by_cases ha : p a = true
      · rw [List.dropWhile_cons_of_pos ha, List.dropWhile_cons_of_pos ha, List.takeWhile_cons_of_pos ha, ih,
          List.length_cons, Nat.add_sub_add_right]
      · rw [List.dropWhile_cons_of_neg ha, List.dropWhile_cons_of_neg ha, List.takeWhile_cons_of_neg ha,
          List.length_nil, Nat.sub_zero, List.take_succ_cons]

/-- Items without the property at the end stay. -/
theorem dropWhile_append_singleton {α : Type*} {p : α → Bool} {x : α} (hx : p x = false) (l : List α) :
    (l ++ [x]).dropWhile p = l.dropWhile p ++ [x] := by
  induction l with
  | nil => rw [List.nil_append, List.dropWhile_nil, List.dropWhile_cons_of_neg (by rw [hx]; decide), List.nil_append]
  | cons a l ih =>
    rw [List.cons_append]
    by_cases ha : p a = true
    · rw [List.dropWhile_cons_of_pos ha, List.dropWhile_cons_of_pos ha, ih]
    · rw [List.dropWhile_cons_of_neg ha, List.dropWhile_cons_of_neg ha, List.cons_append]

/-- `strncmp(s, t, n) == 0`. -/
def strncmpEq : ℕ → List UInt8 → List UInt8 → Option Bool
  | 0, _, _ => some true
  | n + 1, a :: s, b :: t => if a ≠ b then some false else if a = 0 then some true else strncmpEq n s t
  | _ + 1, [], _ => none
  | _ + 1, _ :: _, [] => none

/-- All of a literal is compared with a list that begins with it. -/
theorem strncmpEq_of_begins {t : List UInt8} (ht : 0 ∉ t) (r s : List UInt8) :
    strncmpEq t.length (t ++ r) (t ++ s) = some true := by
  induction t with
  | nil => rfl
  | cons c t ih =>
    rw [List.mem_cons, not_or] at ht
    rw [List.length_cons, List.cons_append, List.cons_append, strncmpEq, if_neg (not_not.mpr rfl),
      if_neg fun hc => ht.1 hc.symm]
    exact ih ht.2

/-- The comparison with a literal ends where the list differs from it. -/
theorem strncmpEq_of_differs {t m : List UInt8} (ht : 0 ∉ t) (htm : ¬t <+: m) (hmt : ¬m <+: t) (s : List UInt8) :
    strncmpEq t.length m (t ++ s) = some false := by
  induction t generalizing m with
  | nil => exact absurd List.nil_prefix htm
  | cons c t ih =>
    cases m with
    | nil => exact absurd List.nil_prefix hmt
    | cons a m =>
      rw [List.mem_cons, not_or] at ht
      rw [List.length_cons, List.cons_append, strncmpEq]
      by_cases hac : a = c
      · subst hac
        rw [if_neg (not_not.mpr rfl), if_neg fun hc => ht.1 hc.symm]
        rw [List.cons_prefix_cons] at htm hmt
        exact ih ht.2 (fun h => htm ⟨rfl, h⟩) fun h => hmt ⟨rfl, h⟩
      · rw [if_pos hac]

end ModbusProxy.CString
