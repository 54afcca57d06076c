import Mathlib.Data.List.Induction

/-!
# Sequences of outcomes

A request that is made again and again either succeeds with a value or fails. For a
sequence of such outcomes, oldest first, this module has the value of the last
success and the number of failures since, and how the two change as the sequence
grows at its end.
-/

namespace ModbusProxy.Outcomes

variable {α : Type*}

/-- The value of the last success, if there was one. -/
def lastSuccess (os : List (Option α)) : Option α := os.reverse.findSome? id

/-- How many failures followed the last success; all of them if there was none. -/
def failuresSince (os : List (Option α)) : ℕ := (os.reverse.takeWhile Option.isNone).length

@[simp] theorem lastSuccess_nil : lastSuccess ([] : List (Option α)) = none := rfl

@[simp] theorem failuresSince_nil : failuresSince ([] : List (Option α)) = 0 := rfl

@[simp] theorem lastSuccess_concat_none (os : List (Option α)) : lastSuccess (os ++ [none]) = lastSuccess os := by
  simp [lastSuccess]

@[simp] theorem lastSuccess_concat_some (os : List (Option α)) (a : α) :
    lastSuccess (os ++ [some a]) = some a := by
  simp [lastSuccess]

@[simp] theorem failuresSince_concat_none (os : List (Option α)) :
    failuresSince (os ++ [none]) = failuresSince os + 1 := by
  simp [failuresSince]

@[simp] theorem failuresSince_concat_some (os : List (Option α)) (a : α) :
    failuresSince (os ++ [some a]) = 0 := by
  simp [failuresSince]

theorem lastSuccess_map {β : Type*} (f : α → β) (os : List (Option α)) :
    lastSuccess (os.map (Option.map f)) = (lastSuccess os).map f := by
  induction os using List.reverseRecOn with
  | nil => rfl
  | append_singleton os o ih => cases o <;> simp [ih]

theorem failuresSince_map {β : Type*} (f : α → β) (os : List (Option α)) :
    failuresSince (os.map (Option.map f)) = failuresSince os := by
  induction os using List.reverseRecOn with
  | nil => rfl
  | append_singleton os o ih => cases o <;> simp [ih]

end ModbusProxy.Outcomes
