import Mathlib.Data.List.Basic
import Mathlib.Tactic

/-!
# The line protocol

A time series database takes points as lines of text: a measurement with its tags, the
fields, and a timestamp, with a space between these three, commas between tags and fields
and `=` between a name and its value. This module has the part of the protocol that needs
no escapes and no quoted strings, and refuses the rest. Empty lines are skipped.

Points without special characters read as themselves (`readPoint_text`), any number of
them in their order (`readPoints_text`).
-/

namespace ModbusProxy.LineProtocol

/-- A name and a value. -/
abbrev Pair : Type := List UInt8 × List UInt8

/-- A point. -/
structure Point where
  /-- The measurement. -/
  measurement : List UInt8
  /-- The tags. -/
  tags : List Pair
  /-- The fields. -/
  fields : List Pair
  /-- The timestamp. -/
  timestamp : List UInt8
  deriving DecidableEq

/-! ### Texts -/

/-- `name=value`. -/
def pairText (p : Pair) : List UInt8 := p.1 ++ 61 :: p.2

/-- The line of a point, without its end. -/
def Point.text (p : Point) : List UInt8 :=
  [44].intercalate (p.measurement :: p.tags.map pairText) ++
    32 :: ([44].intercalate (p.fields.map pairText) ++ 32 :: p.timestamp)

/-- The lines of points. -/
def pointsText (ps : List Point) : List UInt8 := ps.flatMap fun p => p.text ++ [10]

/-! ### Reading -/

/-- A name and a value. -/
def readPair (l : List UInt8) : Option Pair :=
  match l.splitOn 61 with
  | [name, value] => some (name, value)
  | _ => none

/-- Names and values with commas between them. -/
def readPairs (l : List (List UInt8)) : Option (List Pair) := l.mapM readPair

/-- A point. -/
def readPoint (l : List UInt8) : Option Point :=
  if 34 ∈ l ∨ 92 ∈ l then none
  else match l.splitOn 32 with
    | [key, fields, timestamp] =>
      match key.splitOn 44 with
      | [] => none
      | measurement :: tags => do
        let tags ← readPairs tags
        let fields ← readPairs (fields.splitOn 44)
        return { measurement, tags, fields, timestamp }
    | _ => none

/-- The points of the lines that are not empty. -/
def readPoints (l : List UInt8) : Option (List Point) := ((l.splitOn 10).filter fun line => line ≠ []).mapM readPoint

/-! ### Plain points -/

/-- A character that means nothing else: no line end, space, quote, comma, `=` or backslash. -/
def IsPlain (c : UInt8) : Prop := c ≠ 10 ∧ c ≠ 32 ∧ c ≠ 34 ∧ c ≠ 44 ∧ c ≠ 61 ∧ c ≠ 92

instance : DecidablePred IsPlain := fun _ => inferInstanceAs (Decidable (_ ∧ _))

/-- A text of such characters. -/
def Plain (l : List UInt8) : Prop := ∀ c ∈ l, IsPlain c

instance : DecidablePred Plain := List.decidableBAll IsPlain

/-- Names and values of such characters. -/
def PlainPairs (ps : List Pair) : Prop := ∀ p ∈ ps, Plain p.1 ∧ Plain p.2

/-- A point of such texts, with a field at least. -/
structure Point.IsPlain (p : Point) : Prop where
  /-- The measurement. -/
  measurement : Plain p.measurement
  /-- The tags. -/
  tags : PlainPairs p.tags
  /-- The fields. -/
  fields : PlainPairs p.fields
  /-- There are fields. -/
  fields_ne_nil : p.fields ≠ []
  /-- The timestamp. -/
  timestamp : Plain p.timestamp

/-- Whatever is in a joined text is in one of the parts or between them. -/
theorem mem_intercalate {a c : UInt8} {ls : List (List UInt8)} (h : c ∈ [a].intercalate ls) :
    c = a ∨ ∃ l ∈ ls, c ∈ l := by
  induction ls with
  | nil => cases h
  | cons l ls ih =>
    cases ls with
    | nil =>
      rw [List.intercalate_singleton] at h
      exact .inr ⟨l, List.mem_cons_self .., h⟩
    | cons l' ls =>
      rw [List.intercalate_cons_cons, List.mem_append, List.mem_append, List.mem_singleton] at h
      rcases h with (h | rfl) | h
      · exact .inr ⟨l, List.mem_cons_self .., h⟩
      · exact .inl rfl
      · exact (ih h).imp_right fun ⟨m, hm, hc⟩ => ⟨m, List.mem_cons_of_mem _ hm, hc⟩

theorem mem_pairText {c : UInt8} {p : Pair} (hp : Plain p.1 ∧ Plain p.2) (h : c ∈ pairText p) : c = 61 ∨ IsPlain c := by
  rcases List.mem_append.mp h with h | h
  · exact .inr (hp.1 c h)
  · exact (List.mem_cons.mp h).imp_right (hp.2 c)

theorem mem_pairs {c : UInt8} {ps : List Pair} (hps : PlainPairs ps) {l : List UInt8} (hl : l ∈ ps.map pairText)
    (hc : c ∈ l) : c = 61 ∨ IsPlain c := by
  obtain ⟨p, hp, rfl⟩ := List.mem_map.mp hl
  exact mem_pairText (hps p hp) hc

theorem not_mem_of_isPlain {c a : UInt8} (h : c = 61 ∨ IsPlain c) (ha : a = 10 ∨ a = 32 ∨ a = 34 ∨ a = 44 ∨ a = 92) :
    c ≠ a := by
  rintro rfl
  rcases h with rfl | h
  · revert ha
    decide
  · obtain ⟨h10, h32, h34, h44, -, h92⟩ := h
    rcases ha with h' | h' | h' | h' | h'
    · exact h10 h'
    · exact h32 h'
    · exact h34 h'
    · exact h44 h'
    · exact h92 h'

theorem readPair_pairText {p : Pair} (hp : Plain p.1 ∧ Plain p.2) : readPair (pairText p) = some p := by
  have hname : (61 : UInt8) ∉ p.1 := fun h => (hp.1 61 h).2.2.2.2.1 rfl
  have hvalue : (61 : UInt8) ∉ p.2 := fun h => (hp.2 61 h).2.2.2.2.1 rfl
  rw [readPair, pairText, List.splitOn_append_cons_self_of_not_mem hname, List.splitOn_eq_singleton hvalue]

/-- Texts of which each reads as itself. -/
theorem mapM_map {α β : Type} {read : β → Option α} {text : α → β} {xs : List α} (h : ∀ x ∈ xs, read (text x) = some x) :
    (xs.map text).mapM read = some xs := by
  induction xs with
  | nil => rfl
  | cons x xs ih =>
    obtain ⟨hx, hxs⟩ := List.forall_mem_cons.mp h
    rw [List.map_cons, List.mapM_cons, hx, Option.bind_eq_bind, Option.bind_some, ih hxs]
    rfl

theorem readPairs_map {ps : List Pair} (hps : PlainPairs ps) : readPairs (ps.map pairText) = some ps :=
  mapM_map fun p hp => readPair_pairText (hps p hp)

variable {p : Point}

/-- The characters of a plain point's line. -/
theorem mem_text (hp : p.IsPlain) {c : UInt8} (h : c ∈ p.text) : c = 32 ∨ c = 44 ∨ c = 61 ∨ IsPlain c := by
  rcases List.mem_append.mp h with h | h
  · rcases mem_intercalate h with rfl | ⟨l, hl, hc⟩
    · exact .inr (.inl rfl)
    · rcases List.mem_cons.mp hl with rfl | hl
      · exact .inr (.inr (.inr (hp.measurement c hc)))
      · exact .inr (.inr (mem_pairs hp.tags hl hc))
  · rcases List.mem_cons.mp h with rfl | h
    · exact .inl rfl
    · rcases List.mem_append.mp h with h | h
      · rcases mem_intercalate h with rfl | ⟨l, hl, hc⟩
        · exact .inr (.inl rfl)
        · exact .inr (.inr (mem_pairs hp.fields hl hc))
      · rcases List.mem_cons.mp h with rfl | h
        · exact .inl rfl
        · exact .inr (.inr (.inr (hp.timestamp c h)))

/-- **A plain point reads as itself.** -/
theorem readPoint_text (hp : p.IsPlain) : readPoint p.text = some p := by
  have hno (a : UInt8) (ha : a = 34 ∨ a = 92) : a ∉ p.text := by
    intro h
    rcases mem_text hp h with h' | h' | h'
    · subst h'
      revert ha
      decide
    · subst h'
      revert ha
      decide
    · refine not_mem_of_isPlain h' ?_ rfl
      rcases ha with rfl | rfl
      · exact .inr (.inr (.inl rfl))
      · exact .inr (.inr (.inr (.inr rfl)))
  -- no part has a space or a comma of its own
  have hkey : ∀ l ∈ p.measurement :: p.tags.map pairText, (32 : UInt8) ∉ l ∧ (44 : UInt8) ∉ l := by
    intro l hl
    have hplain : ∀ c ∈ l, c = 61 ∨ IsPlain c := by
      intro c hc
      rcases List.mem_cons.mp hl with rfl | hl
      · exact .inr (hp.measurement c hc)
      · exact mem_pairs hp.tags hl hc
    exact ⟨fun h => not_mem_of_isPlain (hplain _ h) (.inr (.inl rfl)) rfl,
      fun h => not_mem_of_isPlain (hplain _ h) (.inr (.inr (.inr (.inl rfl)))) rfl⟩
  have hfields : ∀ l ∈ p.fields.map pairText, (32 : UInt8) ∉ l ∧ (44 : UInt8) ∉ l := by
    intro l hl
    exact ⟨fun h => not_mem_of_isPlain (mem_pairs hp.fields hl h) (.inr (.inl rfl)) rfl,
      fun h => not_mem_of_isPlain (mem_pairs hp.fields hl h) (.inr (.inr (.inr (.inl rfl)))) rfl⟩
  have hspace {ls : List (List UInt8)} (h : ∀ l ∈ ls, (32 : UInt8) ∉ l ∧ (44 : UInt8) ∉ l) :
      (32 : UInt8) ∉ [44].intercalate ls := by
    intro hmem
    rcases mem_intercalate hmem with heq | ⟨l, hl, hc⟩
    · exact absurd heq (by decide)
    · exact (h l hl).1 hc
  have htime : (32 : UInt8) ∉ p.timestamp := fun h => (hp.timestamp 32 h).2.1 rfl
  have hsplit : p.text.splitOn 32 = [[44].intercalate (p.measurement :: p.tags.map pairText),
      [44].intercalate (p.fields.map pairText), p.timestamp] := by
    rw [Point.text, List.splitOn_append_cons_self_of_not_mem (hspace hkey),
      List.splitOn_append_cons_self_of_not_mem (hspace hfields), List.splitOn_eq_singleton htime]
  rw [readPoint, if_neg (not_or.mpr ⟨hno 34 (.inl rfl), hno 92 (.inr rfl)⟩), hsplit]
  simp only
  rw [List.splitOn_intercalate 44 (fun l hl => (hkey l hl).2) (List.cons_ne_nil _ _),
    List.splitOn_intercalate 44 (fun l hl => (hfields l hl).2) (by simpa using hp.fields_ne_nil)]
  simp only [readPairs_map hp.tags, readPairs_map hp.fields, Option.bind_eq_bind, Option.bind_some, Option.pure_def]

/-- Lines are taken one after the other. -/
theorem splitOn_lines {ls : List (List UInt8)} (h : ∀ l ∈ ls, (10 : UInt8) ∉ l) :
    (ls.flatMap fun l => l ++ [10]).splitOn 10 = ls ++ [[]] := by
  induction ls with
  | nil => rfl
  | cons l ls ih =>
    obtain ⟨hl, hls⟩ := List.forall_mem_cons.mp h
    rw [List.flatMap_cons, List.append_assoc, List.singleton_append, List.splitOn_append_cons_self_of_not_mem hl, ih hls]
    rfl

/-- **Plain points read as themselves, in their order.** -/
theorem readPoints_text {ps : List Point} (hps : ∀ p ∈ ps, p.IsPlain) : readPoints (pointsText ps) = some ps := by
  have hlines : (pointsText ps).splitOn 10 = ps.map Point.text ++ [[]] := by
    have hno : ∀ l ∈ ps.map Point.text, (10 : UInt8) ∉ l := by
      intro l hl hmem
      obtain ⟨p, hp, rfl⟩ := List.mem_map.mp hl
      rcases mem_text (hps p hp) hmem with h' | h' | h'
      · exact absurd h' (by decide)
      · exact absurd h' (by decide)
      · exact not_mem_of_isPlain h' (.inl rfl) rfl
    have h := splitOn_lines hno
    rw [List.flatMap_map] at h
    exact h
  have hne : ∀ l ∈ ps.map Point.text, decide (l ≠ []) = true := by
    intro l hl
    obtain ⟨p, -, rfl⟩ := List.mem_map.mp hl
    exact decide_eq_true (List.append_ne_nil_of_right_ne_nil _ (List.cons_ne_nil _ _))
  rw [readPoints, hlines, List.filter_append, List.filter_eq_self.mpr hne]
  change (ps.map Point.text ++ []).mapM readPoint = _
  rw [List.append_nil]
  exact mapM_map fun p hp => readPoint_text (hps p hp)

end ModbusProxy.LineProtocol
