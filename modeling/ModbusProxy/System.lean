import ModbusProxy.Library.CString

/-!
# The system helpers

`memcpy_reverse` of `system.c`, which every big-endian read goes through, and
`trim_leading_whitespace`, which works in place: it looks for the first byte that is not
blank and moves the text from there on to the front.

## The model

A buffer is the list of the bytes that may be read; a read beyond them has no result.

## What is proved

When the trim reads beyond its buffer, and what the buffer begins with if it does not
(`trim_overruns`, `trim_moves`, `trim_of_not_blank`).
-/

namespace ModbusProxy.System

open CString

/-- The loop of `memcpy_reverse`: `ps` starts at `s + size` and moves down, `pd`
moves up. What it writes to `d`, first byte first. -/
def copyDown (s : ℕ → UInt8) : ℕ → List UInt8
  | 0 => []
  | size + 1 => s size :: copyDown s size

/-- `memcpy_reverse(d, s, size)`: the bytes written to `d`. The size is an
`unsigned char`. -/
def memcpyReverse (s : ℕ → UInt8) (size : UInt8) : List UInt8 := copyDown s size.toNat

theorem copyDown_eq (s : ℕ → UInt8) (n : ℕ) : copyDown s n = ((List.range n).map s).reverse := by
  induction n with
  | zero => rfl
  | succ n ih => rw [copyDown, ih, List.range_succ, List.map_append, List.reverse_append]; rfl

theorem length_copyDown (s : ℕ → UInt8) (n : ℕ) : (copyDown s n).length = n := by
  simp [copyDown_eq]

/-! ### Trimming -/

/-- `' '`, `'\n'`, `'\r'` and `'\t'`. -/
def isBlank (c : UInt8) : Bool := c = 32 || c = 10 || c = 13 || c = 9

/-- `while (*start == ' ' || …) start++`: where it stops. -/
def skipBlanks (buf : List UInt8) : ℕ → ℕ → Option ℕ
  | 0, _ => none
  | fuel + 1, start => do
    let c ← buf[start]?
    if isBlank c then skipBlanks buf fuel (start + 1) else some start

/-- `while (*start) *str++ = *start++` and `*str = '\0'`. -/
def moveText : ℕ → List UInt8 → ℕ → ℕ → Option (List UInt8)
  | 0, _, _, _ => none
  | fuel + 1, buf, str, start => do
    let c ← buf[start]?
    if c ≠ 0 then moveText fuel (buf.set str c) (str + 1) (start + 1) else some (buf.set str 0)

/-- `trim_leading_whitespace`: the buffer after it. -/
def trimLeadingWhitespace (buf : List UInt8) : Option (List UInt8) := do
  let start ← skipBlanks buf (buf.length + 1) 0
  if start ≠ 0 then moveText (buf.length + 1) buf 0 start else some buf

/-- The blanks are skipped. -/
theorem skipBlanks_eq {b : List UInt8} (hb : ∀ c ∈ b, isBlank c = true) {c : UInt8} (hc : isBlank c = false)
    (p r : List UInt8) (fuel : ℕ) (hfuel : b.length < fuel) :
    skipBlanks (p ++ b ++ c :: r) fuel p.length = some (p.length + b.length) := by
  induction b generalizing p fuel with
  | nil =>
    obtain ⟨fuel, rfl⟩ := Nat.exists_eq_succ_of_ne_zero (Nat.ne_zero_of_lt hfuel)
    rw [skipBlanks, List.append_nil, List.getElem?_append_right (Nat.le_refl _), Nat.sub_self]
    simp [hc]
  | cons a b ih =>
    obtain ⟨fuel, rfl⟩ := Nat.exists_eq_succ_of_ne_zero (Nat.ne_zero_of_lt hfuel)
    have ha : isBlank a = true := hb a (List.mem_cons_self ..)
    have hnext := ih (fun x hx => hb x (List.mem_cons_of_mem a hx)) (p ++ [a]) fuel (Nat.lt_of_succ_lt_succ hfuel)
    rw [List.append_assoc p [a] b, List.singleton_append, List.length_append, List.length_singleton] at hnext
    rw [skipBlanks, List.append_assoc, List.getElem?_append_right (Nat.le_refl _), Nat.sub_self, List.cons_append,
      List.getElem?_cons_zero, Option.bind_eq_bind, Option.bind_some, if_pos ha, ← List.cons_append,
      ← List.append_assoc, hnext, List.length_cons, Nat.add_assoc, Nat.add_comm 1]

/-- Blanks only: the end of the buffer does not stop the search. -/
theorem skipBlanks_overruns {b : List UInt8} (hb : ∀ c ∈ b, isBlank c = true) (fuel start : ℕ) :
    skipBlanks b fuel start = none := by
  induction fuel generalizing start with
  | zero => rfl
  | succ fuel ih =>
    rw [skipBlanks]
    cases hc : b[start]? with
    | none => rfl
    | some c =>
      rw [Option.bind_eq_bind, Option.bind_some, if_pos (hb c (List.mem_of_getElem? hc))]
      exact ih (start + 1)

/-- A text that is moved to the front, past `x :: g`, ends there with a NUL. -/
theorem moveText_eq {t : List UInt8} (ht : 0 ∉ t) (p : List UInt8) (x : UInt8) (g r : List UInt8) (fuel : ℕ)
    (hfuel : t.length < fuel) :
    ∃ rest, moveText fuel (p ++ x :: g ++ (t ++ 0 :: r)) p.length (p ++ x :: g).length =
      some (p ++ t ++ 0 :: rest) := by
  induction t generalizing p x g fuel with
  | nil =>
    obtain ⟨fuel, rfl⟩ := Nat.exists_eq_succ_of_ne_zero (Nat.ne_zero_of_lt hfuel)
    refine ⟨g ++ 0 :: r, ?_⟩
    rw [moveText, List.getElem?_append_right (Nat.le_refl _), Nat.sub_self]
    simp
  | cons c t ih =>
    obtain ⟨fuel, rfl⟩ := Nat.exists_eq_succ_of_ne_zero (Nat.ne_zero_of_lt hfuel)
    rw [List.mem_cons, not_or] at ht
    have hc : c ≠ 0 := fun hc => ht.1 hc.symm
    -- what was moved grows by `c`, and what is skipped now ends with it
    have hset : (p ++ x :: g ++ (c :: t ++ 0 :: r)).set p.length c = p ++ [c] ++ (g ++ [c]) ++ (t ++ 0 :: r) := by
      rw [List.append_assoc, List.set_append_right _ _ (Nat.le_refl _), Nat.sub_self, List.cons_append,
        List.set_cons_zero]
      simp
    obtain ⟨y, g', hg⟩ : ∃ y g', g ++ [c] = y :: g' := List.exists_cons_of_ne_nil (by simp)
    have hlength : (p ++ x :: g).length + 1 = (p ++ [c] ++ (g ++ [c])).length := by
      simp only [List.length_append, List.length_cons, List.length_nil]
      omega
    obtain ⟨rest, hnext⟩ := ih ht.2 (p ++ [c]) y g' fuel (Nat.lt_of_succ_lt_succ hfuel)
    refine ⟨rest, ?_⟩
    rw [moveText, List.getElem?_append_right (Nat.le_refl _), Nat.sub_self, List.cons_append,
      List.getElem?_cons_zero, Option.bind_eq_bind, Option.bind_some, if_pos hc, ← List.cons_append, hset, hlength, hg]
    rw [List.length_append, List.length_singleton] at hnext
    rw [hnext, List.append_assoc p [c] t, List.singleton_append]

/-- Without a NUL the text has no end in the buffer. -/
theorem moveText_overruns {buf : List UInt8} {start : ℕ} (h : 0 ∉ buf.drop start) {str : ℕ} (hstr : str < start)
    (fuel : ℕ) : moveText fuel buf str start = none := by
  induction fuel generalizing buf str start with
  | zero => rfl
  | succ fuel ih =>
    rw [moveText]
    cases hc : buf[start]? with
    | none => rfl
    | some c =>
      obtain ⟨hlt, rfl⟩ := List.getElem?_eq_some_iff.mp hc
      rw [List.drop_eq_getElem_cons hlt, List.mem_cons, not_or] at h
      rw [Option.bind_eq_bind, Option.bind_some, if_pos fun hzero => h.1 hzero.symm]
      refine ih ?_ (Nat.succ_lt_succ hstr)
      rw [List.drop_set_of_lt (Nat.lt_succ_of_lt hstr)]
      exact h.2

/-- A buffer that does not begin with a blank stays as it is. -/
theorem trim_of_not_blank {c : UInt8} (hc : isBlank c = false) (r : List UInt8) :
    trimLeadingWhitespace (c :: r) = some (c :: r) := by
  have hskip : skipBlanks (c :: r) ((c :: r).length + 1) 0 = some 0 :=
    skipBlanks_eq (b := []) (fun x hx => by cases hx) hc [] r _ (Nat.succ_pos _)
  rw [trimLeadingWhitespace, hskip]
  rfl

/-- Where a buffer that begins with blanks is searched for its text. -/
theorem trim_of_blanks {x : UInt8} {g : List UInt8} (hb : ∀ y ∈ x :: g, isBlank y = true) {c : UInt8}
    (hc : isBlank c = false) (l : List UInt8) :
    trimLeadingWhitespace (x :: g ++ c :: l) =
      moveText ((x :: g ++ c :: l).length + 1) (x :: g ++ c :: l) 0 (x :: g).length := by
  have hskip : skipBlanks (x :: g ++ c :: l) ((x :: g ++ c :: l).length + 1) 0 = some (0 + (x :: g).length) :=
    skipBlanks_eq hb hc [] l _ (by simp only [List.length_append]; omega)
  rw [trimLeadingWhitespace, hskip, Option.bind_eq_bind, Option.bind_some, Nat.zero_add,
    if_pos (show (x :: g).length ≠ 0 from Nat.succ_ne_zero _)]

/-- Blanks before a text: the buffer then begins with the text. -/
theorem trim_moves {b : List UInt8} (hne : b ≠ []) (hb : ∀ c ∈ b, isBlank c = true) {t : List UInt8} (ht : 0 ∉ t)
    (hhead : ∀ c, t.head? = some c → isBlank c = false) (r : List UInt8) :
    ∃ rest, trimLeadingWhitespace (b ++ (t ++ 0 :: r)) = some (t ++ 0 :: rest) := by
  obtain ⟨x, g, rfl⟩ := List.exists_cons_of_ne_nil hne
  obtain ⟨c, l, hcl, hc⟩ : ∃ c l, t ++ 0 :: r = c :: l ∧ isBlank c = false := by
    cases t with
    | nil => exact ⟨0, r, rfl, rfl⟩
    | cons c t => exact ⟨c, t ++ 0 :: r, rfl, hhead c rfl⟩
  rw [hcl, trim_of_blanks hb hc l, ← hcl]
  exact moveText_eq ht [] x g r _ (by simp only [List.length_append]; omega)

/-- Blanks and no NUL: the trim reads beyond the buffer. -/
theorem trim_overruns {c : UInt8} (hc : isBlank c = true) {r : List UInt8} (h : 0 ∉ c :: r) :
    trimLeadingWhitespace (c :: r) = none := by
  by_cases hall : ∀ x ∈ c :: r, isBlank x = true
  · rw [trimLeadingWhitespace, skipBlanks_overruns hall]
    rfl
  -- the text is found, but has no end
  · obtain ⟨b, x, l, hbl, hb, hx⟩ := exists_first hall
    cases b with
    | nil =>
      cases hbl
      exact absurd hx (by rw [hc]; decide)
    | cons y g =>
      rw [hbl] at h ⊢
      rw [trim_of_blanks hb hx l]
      have hend : 0 ∉ (y :: g ++ x :: l).drop (y :: g).length := by
        rw [List.drop_left]
        exact fun h0 => h (List.mem_append_right _ h0)
      exact moveText_overruns hend (Nat.succ_pos _) _

end ModbusProxy.System
