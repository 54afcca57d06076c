import Mathlib.Tactic

/-!
# JSON values

A JSON value, over any type of numbers; strings and names are bytes. The first member of an
object with a name is the one that a lookup finds.
-/

namespace ModbusProxy

/-- A JSON value. -/
inductive Json (ν : Type) where
  /-- `null`. -/
  | null
  /-- `true` or `false`. -/
  | bool (b : Bool)
  /-- A number. -/
  | number (n : ν)
  /-- A string. -/
  | string (s : List UInt8)
  /-- An array. -/
  | array (items : List (Json ν))
  /-- An object. -/
  | object (members : List (List UInt8 × Json ν))

namespace Json

variable {ν : Type}

/-- The member with a name. -/
def member (name : List UInt8) : Json ν → Option (Json ν)
  | .object members => (members.find? fun m => m.1 = name).map Prod.snd
  | _ => none

/-- The value at the end of a path of names. -/
def follow : List (List UInt8) → Json ν → Option (Json ν)
  | [], v => some v
  | name :: path, v => (v.member name).bind (follow path)

/-- The string that a value is. -/
def string? : Json ν → Option (List UInt8)
  | .string s => some s
  | _ => none

theorem member_head {name : List UInt8} {members : List (List UInt8 × Json ν)} {v : Json ν}
    (h : members.head? = some (name, v)) : (object members).member name = some v := by
  obtain ⟨rest, rfl⟩ := List.head?_eq_some_iff.mp h
  rw [member, List.find?_cons_of_pos (by simp), Option.map_some]

theorem member_tail {name name' : List UInt8} (h : name' ≠ name) (v : Json ν) (members : List (List UInt8 × Json ν)) :
    (object ((name', v) :: members)).member name = (object members).member name := by
  rw [member, List.find?_cons_of_neg (by simpa using h), member]

theorem follow_cons (name : List UInt8) (path : List (List UInt8)) (v : Json ν) :
    follow (name :: path) v = (v.member name).bind (follow path) := rfl

theorem follow_one (name : List UInt8) (v : Json ν) : v.follow [name] = v.member name := by
  rw [follow_cons]
  cases v.member name <;> rfl

theorem follow_two (name name' : List UInt8) (v : Json ν) :
    v.follow [name, name'] = (v.member name).bind (member name') := by
  rw [follow_cons]
  exact congrArg _ (funext fun _ => follow_one name' _)

end Json

end ModbusProxy
