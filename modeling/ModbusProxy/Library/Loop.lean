import Mathlib.Tactic

/-!
# Loops with fuel

A loop runs its body until the body leaves it. The body may be undefined in a state, and
the loop may run out of fuel; both have no result (`none`). The rule for such loops has an
invariant that carries a variant: if every iteration that goes on keeps the invariant at a
smaller variant, then the loop is left, with what the leaving iteration establishes.
-/

namespace ModbusProxy.Loop

variable {σ : Type*}

/-- How an iteration ends. -/
inductive Iteration (σ : Type*) where
  /-- The loop goes on. -/
  | again (s : σ)
  /-- `break`. -/
  | leave (s : σ)

/-- The state after the iteration. -/
def Iteration.state : Iteration σ → σ
  | .again s => s
  | .leave s => s

/-- At most `fuel` iterations. -/
def loop (body : σ → Option (Iteration σ)) : ℕ → σ → Option σ
  | 0, _ => none
  | fuel + 1, s =>
    match body s with
    | none => none
    | some (.again s) => loop body fuel s
    | some (.leave s) => some s

variable {body : σ → Option (Iteration σ)}

theorem loop_again {s s' : σ} (h : body s = some (.again s')) (fuel : ℕ) :
    loop body (fuel + 1) s = loop body fuel s' := by rw [loop, h]

theorem loop_leave {s s' : σ} (h : body s = some (.leave s')) (fuel : ℕ) : loop body (fuel + 1) s = some s' := by
  rw [loop, h]

/-- The rule for loops, where `I m` is the invariant with the variant `m`. -/
theorem loop_of_variant {I : ℕ → σ → Prop} {Q : σ → Prop}
    (hbody : ∀ m s, I m s →
      (∃ m' s', body s = some (.again s') ∧ m' < m ∧ I m' s') ∨ ∃ s', body s = some (.leave s') ∧ Q s')
    {m fuel : ℕ} {s : σ} (h : I m s) (hfuel : m < fuel) : ∃ s', loop body fuel s = some s' ∧ Q s' := by
  induction fuel generalizing m s with
  | zero => exact absurd hfuel (Nat.not_lt_zero m)
  | succ fuel ih =>
    rcases hbody m s h with ⟨m', s', hagain, hlt, hinv⟩ | ⟨s', hleave, hpost⟩
    · rw [loop_again hagain]
      exact ih hinv (by omega)
    · exact ⟨s', loop_leave hleave fuel, hpost⟩

/-- What every iteration keeps holds when the loop is left. -/
theorem loop_keeps {P : σ → Prop} (hbody : ∀ s it, P s → body s = some it → P it.state) {fuel : ℕ} {s s' : σ} (h : P s)
    (hloop : loop body fuel s = some s') : P s' := by
  induction fuel generalizing s with
  | zero => cases hloop
  | succ fuel ih =>
    rw [loop] at hloop
    split at hloop
    · cases hloop
    · next s₁ hagain => exact ih (hbody s (.again s₁) h hagain) hloop
    · next s₁ hleave =>
      cases hloop
      exact hbody s (.leave s') h hleave

/-- The states in which an iteration begins. -/
inductive Reaches (body : σ → Option (Iteration σ)) (s : σ) : σ → Prop where
  /-- The first one. -/
  | refl : Reaches body s s
  /-- The one after an iteration that goes on. -/
  | step {s₁ s₂ : σ} (h : Reaches body s s₁) (hbody : body s₁ = some (.again s₂)) : Reaches body s s₂

/-- What every iteration that goes on keeps holds whenever an iteration begins. -/
theorem Reaches.keeps {P : σ → Prop} (hbody : ∀ s s', P s → body s = some (.again s') → P s') {s s' : σ} (h : P s)
    (hreaches : Reaches body s s') : P s' := by
  induction hreaches with
  | refl => exact h
  | step _ hagain ih => exact hbody _ _ ih hagain

end ModbusProxy.Loop
