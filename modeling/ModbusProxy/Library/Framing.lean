import Mathlib.Data.List.Forall2

/-!
# Receivers that do not buffer

A stream of messages of `n` bytes each arrives in chunks, cut anywhere. A receiver that
keeps nothing from one chunk to the next and gets at most one message out of a chunk,
for which it needs `n` bytes, gets them all only if the chunks are the messages.

The chunks are those of a list of `γ`s, which may hold more than the chunk.
-/

namespace ModbusProxy.Framing

variable {α β γ : Type*} {chunk : γ → List α} {f : γ → Option β} {n : ℕ}

/-- There are at most as many answers as there is room for messages. -/
theorem mul_length_filterMap_le (hneeds : ∀ x b, f x = some b → n ≤ (chunk x).length) (xs : List γ) :
    n * (xs.filterMap f).length ≤ (xs.map chunk).flatten.length := by
  induction xs with
  | nil => simp
  | cons x xs ih =>
    simp only [List.map_cons, List.flatten_cons, List.length_append]
    cases hx : f x with
    | none =>
      rw [List.filterMap_cons_none hx]
      omega
    | some b =>
      rw [List.filterMap_cons_some hx, List.length_cons, Nat.mul_succ]
      have := hneeds x b hx
      omega

/-- If there are as many, then every chunk has the length of a message. -/
theorem length_eq_of_mul_length_filterMap (hneeds : ∀ x b, f x = some b → n ≤ (chunk x).length) {xs : List γ}
    (hne : ∀ x ∈ xs, chunk x ≠ [])
    (h : n * (xs.filterMap f).length = (xs.map chunk).flatten.length) : ∀ x ∈ xs, (chunk x).length = n := by
  induction xs with
  | nil => simp
  | cons x xs ih =>
    have hrest := mul_length_filterMap_le hneeds xs
    have hpos := List.length_pos_of_ne_nil (hne x (List.mem_cons_self ..))
    simp only [List.map_cons, List.flatten_cons, List.length_append] at h
    cases hx : f x with
    | none =>
      rw [List.filterMap_cons_none hx] at h
      omega
    | some b =>
      rw [List.filterMap_cons_some hx, List.length_cons, Nat.mul_succ] at h
      have hlen := hneeds x b hx
      rw [List.forall_mem_cons]
      exact ⟨by omega, ih (fun y hy => hne y (List.mem_cons_of_mem _ hy)) (by omega)⟩

theorem length_flatten_of_length_eq {as : List (List α)} (has : ∀ a ∈ as, a.length = n) :
    as.flatten.length = n * as.length := by
  rw [List.length_flatten, List.eq_replicate_iff.mpr ⟨List.length_map .., by simpa using has⟩, List.sum_replicate_nat,
    Nat.mul_comm]

/-- Chunks of the length of a message are the messages. -/
theorem eq_of_flatten_eq {as bs : List (List α)} (hn : 0 < n) (has : ∀ a ∈ as, a.length = n)
    (hbs : ∀ b ∈ bs, b.length = n) (h : as.flatten = bs.flatten) : as = bs := by
  have hlen : as.length = bs.length := by
    have hsum := congrArg List.length h
    rw [length_flatten_of_length_eq has, length_flatten_of_length_eq hbs] at hsum
    exact Nat.eq_of_mul_eq_mul_left hn hsum
  rw [List.eq_iff_flatten_eq]
  refine ⟨h, ?_⟩
  apply List.ext_getElem
  · simpa using hlen
  · intro k hk hk'
    simp only [List.length_map] at hk hk'
    rw [List.getElem_map, List.getElem_map, has _ (List.getElem_mem hk), hbs _ (List.getElem_mem hk')]

end ModbusProxy.Framing
