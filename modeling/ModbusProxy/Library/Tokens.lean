import Mathlib.Data.List.TakeWhile
import Mathlib.Tactic

/-!
# Tokens

The tokens of a list are what is between its separators, as far as that is not empty. A
scan that skips separators and then takes items up to the next one returns the first token
and leaves a list with the other tokens (`tokens_eq`).
-/

namespace ModbusProxy.Tokens

variable {α : Type*} (p : α → Bool)

/-- The tokens of a list whose separators are the items with `p`. -/
def tokens (l : List α) : List (List α) := (l.splitOnP p).filter (!·.isEmpty)

/-- Skips separators and takes a token; what is left comes with it. -/
def scanToken (l : List α) : Option (List α × List α) :=
  match l.dropWhile p with
  | [] => none
  | a :: r => some ((a :: r).takeWhile (!p ·), (a :: r).dropWhile (!p ·))

variable {p}

@[simp] theorem tokens_nil : tokens p ([] : List α) = [] := by simp [tokens]

theorem tokens_cons_of_pos {a : α} (ha : p a = true) (l : List α) : tokens p (a :: l) = tokens p l := by
  have hsplit := List.splitOnP_append_cons ([] : List α) l ha
  rw [List.nil_append] at hsplit
  rw [tokens, hsplit, List.splitOnP_nil, List.singleton_append, List.filter_cons_of_neg (by simp), tokens]

theorem tokens_dropWhile (l : List α) : tokens p (l.dropWhile p) = tokens p l := by
  induction l with
  | nil => rfl
  | cons a l ih =>
    by_cases ha : p a = true
    · rw [List.dropWhile_cons_of_pos ha, ih, tokens_cons_of_pos ha]
    · rw [List.dropWhile_cons_of_neg ha]

/-- A token, then the end or a separator. -/
theorem tokens_append {t : List α} (hne : t ≠ []) (ht : ∀ x ∈ t, p x = false) {r : List α}
    (hr : ∀ x, r.head? = some x → p x = true) : tokens p (t ++ r) = t :: tokens p r := by
  cases r with
  | nil =>
    rw [List.append_nil, tokens, List.splitOnP_eq_singleton ht, List.filter_cons_of_pos (by simpa using hne),
      List.filter_nil, tokens_nil]
  | cons a r =>
    have ha : p a = true := hr a rfl
    rw [tokens, List.splitOnP_append_cons_of_forall_mem ht a ha, List.filter_cons_of_pos (by simpa using hne),
      tokens_cons_of_pos ha, tokens]

/-- The scan finds the tokens one by one. -/
theorem tokens_eq (l : List α) :
    tokens p l = match scanToken p l with
      | none => []
      | some (t, rest) => t :: tokens p rest := by
  rw [← tokens_dropWhile]
  cases hrest : l.dropWhile p with
  | nil => simp [scanToken, hrest]
  | cons a r =>
    have ha : p a = false := by
      have hnot := List.head?_dropWhile_not p l
      rw [hrest] at hnot
      exact Bool.eq_false_of_not_eq_true fun h => by simp [h] at hnot
    have hscan : scanToken p l = some ((a :: r).takeWhile (!p ·), (a :: r).dropWhile (!p ·)) := by
      rw [scanToken, hrest]
    rw [hscan]
    have htoken : (a :: r).takeWhile (!p ·) ≠ [] := by
      rw [List.takeWhile_cons_of_pos (by simp [ha])]
      exact List.cons_ne_nil _ _
    have hnone : ∀ x ∈ (a :: r).takeWhile (!p ·), p x = false := fun x hx => by
      simpa using List.mem_takeWhile_imp hx
    have hnext : ∀ x, ((a :: r).dropWhile (!p ·)).head? = some x → p x = true := fun x hx => by
      have hnot := List.head?_dropWhile_not (!p ·) (a :: r)
      rw [hx] at hnot
      simpa using hnot
    have hsplit := tokens_append htoken hnone hnext
    rw [List.takeWhile_append_dropWhile] at hsplit
    exact hsplit

end ModbusProxy.Tokens
