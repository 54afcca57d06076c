import ModbusProxy.Library.Decimal

/-!
# Messages with a length

A message of HTTP/1.1 is a start line, headers and an empty line, each ended by a carriage
return and a line feed, and a body, whose length the header `Content-Length` says. Names are
compared as they are, a value follows its colon after one blank, and a message without the
header has no body.

A message without stray line ends that says its right length reads as itself, whatever
follows it in the stream (`readMessage_text`).
-/

namespace ModbusProxy.HttpMessage

open CString Decimal
open JsonText (isDigit)

/-- A name and a value. -/
abbrev Header : Type := List UInt8 × List UInt8

/-- A message. -/
structure Message where
  /-- The request line or the status line. -/
  start : List UInt8
  /-- The headers. -/
  headers : List Header
  /-- The body. -/
  body : List UInt8
  deriving DecidableEq

/-! ### Texts -/

/-- `name: value`. -/
def headerText (h : Header) : List UInt8 := h.1 ++ 58 :: 32 :: h.2

/-- Lines with their ends. -/
def linesText (ls : List (List UInt8)) : List UInt8 := ls.flatMap fun l => l ++ [13, 10]

/-- The bytes of a message. -/
def Message.text (m : Message) : List UInt8 := linesText (m.start :: (m.headers.map headerText ++ [[]])) ++ m.body

/-! ### Reading -/

/-- The first line, and what follows it. -/
def readLine : List UInt8 → Option (List UInt8 × List UInt8)
  | [] => none
  | c :: l =>
    if c = 13 then
      if l.head? = some 10 then some ([], l.tail) else none
    else (readLine l).map fun r => (c :: r.1, r.2)

/-- A header. -/
def readHeader (l : List UInt8) : Option Header :=
  match l.dropWhile (· ≠ 58) with
  | 58 :: 32 :: value => some (l.takeWhile (· ≠ 58), value)
  | _ => none

/-- The headers up to the empty line, and what follows it. -/
def readHeaders : ℕ → List UInt8 → Option (List Header × List UInt8)
  | 0, _ => none
  | n + 1, l => do
    let line ← readLine l
    if line.1 = [] then return ([], line.2)
    let header ← readHeader line.1
    let rest ← readHeaders n line.2
    return (header :: rest.1, rest.2)

/-- How long the body is. -/
def bodyLength (headers : List Header) : Option ℕ :=
  match headers.lookup (ascii "Content-Length") with
  | none => some 0
  | some value => if value ≠ [] ∧ value.all isDigit = true then some (digitsValue value) else none

/-- The first message of a stream, and what follows it. -/
def readMessage (l : List UInt8) : Option (Message × List UInt8) := do
  let start ← readLine l
  let headers ← readHeaders l.length start.2
  let n ← bodyLength headers.1
  if headers.2.length < n then none
  else return (⟨start.1, headers.1, headers.2.take n⟩, headers.2.drop n)

/-! ### Reading what was written -/

/-- No line has an end within it, and the body has the length that the headers say. -/
structure Message.WellFormed (m : Message) : Prop where
  /-- The start line. -/
  start : 13 ∉ m.start
  /-- The headers. -/
  headers : ∀ h ∈ m.headers, (13 ∉ h.1 ∧ 58 ∉ h.1) ∧ 13 ∉ h.2
  /-- The length. -/
  length : bodyLength m.headers = some m.body.length

theorem readLine_append {l : List UInt8} (hl : 13 ∉ l) (r : List UInt8) : readLine (l ++ 13 :: 10 :: r) = some (l, r) := by
  induction l with
  | nil => rfl
  | cons c l ih =>
    rw [List.mem_cons, not_or] at hl
    obtain ⟨hc, hl⟩ := hl
    rw [List.cons_append, readLine, if_neg (Ne.symm hc), ih hl, Option.map_some]

theorem readHeader_headerText {h : Header} (hname : 58 ∉ h.1) : readHeader (headerText h) = some h := by
  have hall : ∀ c ∈ h.1, decide (c ≠ 58) = true := fun c hc => decide_eq_true fun heq => hname (heq ▸ hc)
  rw [readHeader, headerText, List.dropWhile_append_of_pos hall, List.takeWhile_append_of_pos hall]
  change some (h.1 ++ [], h.2) = _
  rw [List.append_nil]

theorem readHeaders_linesText {hs : List Header} (hhs : ∀ h ∈ hs, (13 ∉ h.1 ∧ 58 ∉ h.1) ∧ 13 ∉ h.2) (r : List UInt8)
    {n : ℕ} (hn : hs.length < n) : readHeaders n (linesText (hs.map headerText ++ [[]]) ++ r) = some (hs, r) := by
  induction hs generalizing n with
  | nil =>
    cases n with
    | zero => exact absurd hn (Nat.not_lt_zero _)
    | succ n => rfl
  | cons h hs ih =>
    obtain ⟨⟨⟨hname, hcolon⟩, hvalue⟩, hhs⟩ := List.forall_mem_cons.mp hhs
    cases n with
    | zero => exact absurd hn (Nat.not_lt_zero _)
    | succ n =>
      have hline : 13 ∉ headerText h := by
        rw [headerText, List.mem_append, List.mem_cons, List.mem_cons]
        rintro (h13 | h13 | h13 | h13)
        · exact hname h13
        · cases h13
        · cases h13
        · exact hvalue h13
      have hne : headerText h ≠ [] := List.append_ne_nil_of_right_ne_nil _ (List.cons_ne_nil _ _)
      rw [List.map_cons, List.cons_append, linesText, List.flatMap_cons, List.append_assoc, List.append_assoc, readHeaders]
      change (do
        let line ← readLine (headerText h ++ 13 :: 10 :: (linesText (hs.map headerText ++ [[]]) ++ r))
        _) = _
      rw [readLine_append hline, Option.bind_eq_bind, Option.bind_some]
      simp only [if_neg hne, readHeader_headerText hcolon, ih hhs (Nat.lt_of_succ_lt_succ hn), Option.bind_eq_bind,
        Option.bind_some, Option.pure_def]

theorem length_le_linesText (ls : List (List UInt8)) : ls.length ≤ (linesText ls).length := by
  induction ls with
  | nil => exact Nat.le_refl 0
  | cons l ls ih =>
    have hcons : linesText (l :: ls) = l ++ [13, 10] ++ linesText ls := List.flatMap_cons
    rw [hcons, List.length_append, List.length_append, List.length_cons]
    change ls.length + 1 ≤ l.length + 2 + _
    omega

/-- **A message reads as itself**, whatever follows it. -/
theorem readMessage_text {m : Message} (hm : m.WellFormed) (r : List UInt8) : readMessage (m.text ++ r) = some (m, r) := by
  have htext : m.text ++ r =
      m.start ++ 13 :: 10 :: (linesText (m.headers.map headerText ++ [[]]) ++ (m.body ++ r)) := by
    rw [Message.text, linesText, List.flatMap_cons, List.append_assoc, List.append_assoc, List.append_assoc]
    rfl
  have hfuel : m.headers.length < (m.text ++ r).length := by
    have hlines := length_le_linesText (m.start :: (m.headers.map headerText ++ [[]]))
    rw [List.length_cons, List.length_append, List.length_map] at hlines
    rw [List.length_append, Message.text, List.length_append]
    omega
  rw [readMessage, htext, readLine_append hm.start, Option.bind_eq_bind, Option.bind_some, ← htext]
  simp only [readHeaders_linesText hm.headers _ hfuel, Option.bind_eq_bind, Option.bind_some, hm.length]
  rw [if_neg (by rw [List.length_append]; omega), List.take_left, List.drop_left]
  rfl

theorem bodyLength_eq {hs : List Header} {n : ℕ} (h : hs.lookup (ascii "Content-Length") = some (natural n)) :
    bodyLength hs = some n := by
  rw [bodyLength, h]
  simp only
  rw [if_pos ⟨natural_ne_nil n, List.all_eq_true.mpr (isDigit_natural n)⟩, digitsValue_natural]

end ModbusProxy.HttpMessage
