import Mathlib.Data.List.Basic
import Mathlib.Logic.Function.Basic
import Mathlib.Tactic

/-!
# Bounded queues with acknowledgements

Items are numbered in the order in which they are posted. A queue of some capacity keeps
the items from its head on; a post to a full queue drops the item at the head, and an
acknowledgement takes items from the head and notes their numbers as sent. So an item is
sent at most once, the items are sent in order, and an item is dropped only by a post that
finds as many items as there is room for.

A ring of cells keeps the last items of such a queue, item `i` in the cell `i % capacity`,
with a mark that says whether the item is before some bound (`Holds`). Writing a cell and
setting a mark move the two ends of the ring.
-/

namespace ModbusProxy.AckQueue

/-- A queue: how many items were posted, the number of the oldest that is kept, and the
numbers of the items that were acknowledged. -/
structure Queue where
  /-- How many items were posted. -/
  posted : ℕ
  /-- The oldest item that is kept. -/
  head : ℕ
  /-- The items acknowledged, oldest first. -/
  sent : List ℕ

/-- The queue at the start. -/
def Queue.empty : Queue := ⟨0, 0, []⟩

/-- There is no room. -/
def Queue.Full (capacity : ℕ) (q : Queue) : Prop := q.posted = q.head + capacity

instance (capacity : ℕ) (q : Queue) : Decidable (q.Full capacity) := inferInstanceAs (Decidable (_ = _))

/-- An item is posted. -/
def Queue.post (capacity : ℕ) (q : Queue) : Queue :=
  { q with posted := q.posted + 1, head := if q.Full capacity then q.head + 1 else q.head }

/-- The `n` items at the head are acknowledged. -/
def Queue.ack (n : ℕ) (q : Queue) : Queue :=
  { q with head := q.head + n, sent := q.sent ++ List.range' q.head n }

/-- The invariant of a queue. -/
structure Queue.Ordered (capacity : ℕ) (q : Queue) : Prop where
  /-- The head is an item, or the next one. -/
  head_le : q.head ≤ q.posted
  /-- The items fit. -/
  fits : q.posted ≤ q.head + capacity
  /-- The items were sent in order, none twice. -/
  sorted : q.sent.Pairwise (· < ·)
  /-- What was sent is no longer kept. -/
  old : ∀ i ∈ q.sent, i < q.head

variable {capacity : ℕ} {q : Queue}

theorem Queue.post_of_full (h : q.Full capacity) : q.post capacity = ⟨q.posted + 1, q.head + 1, q.sent⟩ := by
  rw [Queue.post, if_pos h]

theorem Queue.post_of_room (h : ¬q.Full capacity) : q.post capacity = ⟨q.posted + 1, q.head, q.sent⟩ := by
  rw [Queue.post, if_neg h]

theorem Queue.Ordered.empty : Queue.empty.Ordered capacity :=
  ⟨Nat.le_refl 0, Nat.zero_le _, .nil, fun _ h => by cases h⟩

theorem Queue.Ordered.post (h : q.Ordered capacity) (hpos : 0 < capacity) : (q.post capacity).Ordered capacity := by
  obtain ⟨hle, hfits, hsorted, hold⟩ := h
  by_cases hfull : q.Full capacity
  · rw [Queue.post_of_full hfull]
    rw [Queue.Full] at hfull
    exact ⟨by simp only; omega, by simp only; omega, hsorted, fun i hi => Nat.lt_succ_of_lt (hold i hi)⟩
  · rw [Queue.post_of_room hfull]
    rw [Queue.Full] at hfull
    exact ⟨by simp only; omega, by simp only; omega, hsorted, hold⟩

theorem Queue.Ordered.ack (h : q.Ordered capacity) {n : ℕ} (hn : q.head + n ≤ q.posted) :
    (q.ack n).Ordered capacity := by
  refine ⟨hn, Nat.le_trans h.fits (by simp only [Queue.ack]; omega), ?_, fun i hi => ?_⟩
  · rw [Queue.ack, List.pairwise_append]
    refine ⟨h.sorted, List.pairwise_lt_range', fun i hi j hj => ?_⟩
    rw [List.mem_range'_1] at hj
    exact Nat.lt_of_lt_of_le (h.old i hi) hj.1
  · rcases List.mem_append.mp hi with hi | hi
    · exact Nat.lt_of_lt_of_le (h.old i hi) (Nat.le_add_right _ _)
    · exact (List.mem_range'_1.mp hi).2

theorem Queue.ack_zero (q : Queue) : q.ack 0 = q := by
  rw [Queue.ack, List.range'_zero, List.append_nil]
  rfl

theorem Queue.ack_ack (q : Queue) (a b : ℕ) : (q.ack a).ack b = q.ack (a + b) := by
  simp only [Queue.ack, List.append_assoc, List.range'_append_1, Nat.add_assoc]

theorem Queue.head_post_lt (h : q.head ≤ q.posted) (hpos : 0 < capacity) :
    (q.post capacity).head < (q.post capacity).posted := by
  by_cases hfull : q.Full capacity
  · rw [Queue.post_of_full hfull]
    rw [Queue.Full] at hfull
    simp only
    omega
  · rw [Queue.post_of_room hfull]
    exact Nat.lt_succ_of_le h

/-- What a post drops: nothing, or the item at the head of a full queue. -/
theorem Queue.lt_head_post {i : ℕ} (h : i < (q.post capacity).head) :
    i < q.head ∨ q.Full capacity ∧ i = q.head := by
  by_cases hfull : q.Full capacity
  · rw [Queue.post_of_full hfull] at h
    rcases Nat.lt_succ_iff_lt_or_eq.mp h with hlt | heq
    · exact .inl hlt
    · exact .inr ⟨hfull, heq⟩
  · rw [Queue.post_of_room hfull] at h
    exact .inl h

/-- What an acknowledgement takes is sent. -/
theorem Queue.lt_head_ack {n i : ℕ} (h : i < (q.ack n).head) : i < q.head ∨ i ∈ (q.ack n).sent := by
  by_cases hlt : i < q.head
  · exact .inl hlt
  · exact .inr (List.mem_append_right _ (List.mem_range'_1.mpr ⟨Nat.le_of_not_lt hlt, h⟩))

/-! ### Rings -/

/-- Of `posted` items the cells hold the last `capacity`, those before `marked` with the
mark. -/
def Holds {α β : Type*} (mark : Bool → α → β) (capacity posted marked : ℕ) (item : ℕ → α) (cell : ℕ → β) : Prop :=
  ∀ i, i < posted → posted ≤ i + capacity → cell (i % capacity) = mark (decide (i < marked)) (item i)

/-- Numbers less than the capacity apart have different cells. -/
theorem eq_of_mod_eq {i j : ℕ} (h : i % capacity = j % capacity) (hij : i < j + capacity)
    (hji : j < i + capacity) : i = j := by
  rcases Nat.le_total i j with hle | hle
  · have hdvd : capacity ∣ j - i := (Nat.modEq_iff_dvd' hle).mp h
    have hzero : j - i = 0 := Nat.eq_zero_of_dvd_of_lt hdvd (by omega)
    omega
  · have hdvd : capacity ∣ i - j := (Nat.modEq_iff_dvd' hle).mp h.symm
    have hzero : i - j = 0 := Nat.eq_zero_of_dvd_of_lt hdvd (by omega)
    omega

section Holds

variable {α β : Type*} {mark : Bool → α → β} {posted marked : ℕ} {item : ℕ → α} {cell : ℕ → β}

theorem Holds.empty : Holds mark capacity 0 marked item cell := fun _ hi => absurd hi (Nat.not_lt_zero _)

theorem Holds.congr (h : Holds mark capacity posted marked item cell) {item' : ℕ → α}
    (heq : ∀ i, i < posted → item i = item' i) : Holds mark capacity posted marked item' cell :=
  fun i hi hroom => heq i hi ▸ h i hi hroom

/-- The next item is written. -/
theorem Holds.write (h : Holds mark capacity posted marked item cell) (hle : marked ≤ posted) :
    Holds mark capacity (posted + 1) marked item
      (Function.update cell (posted % capacity) (mark false (item posted))) := by
  intro i hi hroom
  rcases Nat.lt_succ_iff_lt_or_eq.mp hi with hlt | rfl
  · have hne : i % capacity ≠ posted % capacity := fun heq =>
      Nat.ne_of_lt hlt (eq_of_mod_eq heq (by omega) (by omega))
    rw [Function.update_of_ne hne]
    exact h i hlt (by omega)
  · rw [Function.update_self, decide_eq_false (Nat.not_lt.mpr hle)]

/-- The bound moves over an item that is not in the ring. -/
theorem Holds.pass (h : Holds mark capacity posted marked item cell) (hout : marked + capacity < posted) :
    Holds mark capacity posted (marked + 1) item cell := by
  intro i hi hroom
  have hold : decide (i < marked) = decide (i < marked + 1) := decide_eq_decide.mpr (by omega)
  rw [h i hi hroom, hold]

/-- What a post does to the ring: the item that a full queue drops is the one whose cell is written. -/
theorem Holds.post (h : Holds mark capacity q.posted q.head item cell) (hle : q.head ≤ q.posted) :
    Holds mark capacity (q.post capacity).posted (q.post capacity).head item
      (Function.update cell (q.posted % capacity) (mark false (item q.posted))) := by
  have hwrite := h.write hle
  by_cases hfull : q.Full capacity
  · rw [Queue.post_of_full hfull]
    rw [Queue.Full] at hfull
    exact hwrite.pass (by omega)
  · rw [Queue.post_of_room hfull]
    exact hwrite

/-- The mark is set in the cell of the next item. -/
theorem Holds.setMark (h : Holds mark capacity posted marked item cell) (hlt : marked < posted)
    (hroom : posted ≤ marked + capacity) :
    Holds mark capacity posted (marked + 1) item
      (Function.update cell (marked % capacity) (mark true (item marked))) := by
  intro i hi hin
  by_cases heq : i = marked
  · rw [heq, Function.update_self, decide_eq_true (Nat.lt_succ_self marked)]
  · have hne : i % capacity ≠ marked % capacity := fun hmod => heq (eq_of_mod_eq hmod (by omega) (by omega))
    have hsame : decide (i < marked) = decide (i < marked + 1) := decide_eq_decide.mpr (by omega)
    rw [Function.update_of_ne hne, h i hi hin, hsame]

end Holds

end ModbusProxy.AckQueue
