import Mathlib.Tactic

/-!
# Filling a structure

A function that fills a structure from what it looks up, and gives up at the first thing
that is missing, leaves in the structure what it has assigned by then. Whether it succeeds
may depend on the lookups only (`succeeds_require`, `succeeds_modify`), also in a loop
(`succeeds_forM`).
-/

namespace ModbusProxy

/-- A function that fills a structure of type `σ` and may give up. -/
abbrev Fill (σ α : Type) : Type := EStateM Unit σ α

namespace Fill

variable {σ α β : Type}

/-- Gives up if there is nothing. -/
def require : Option α → Fill σ α
  | some a => pure a
  | none => throw ()

/-- It does not give up. -/
def Succeeds (p : Fill σ α) (s : σ) : Prop := ∃ a s', p s = .ok a s'

/-- The structure after it. -/
def after (p : Fill σ α) (s : σ) : σ :=
  match p s with
  | .ok _ s' => s'
  | .error _ s' => s'

theorem bind_of_ok {p : Fill σ α} {a : α} {s s' : σ} (h : p s = .ok a s') (f : α → Fill σ β) : (p >>= f) s = f a s' := by
  change EStateM.bind p f s = _
  rw [EStateM.bind, h]

@[simp] theorem require_bind (a : α) (f : α → Fill σ β) : (require (some a) >>= f) = f a := rfl

@[simp] theorem modify_bind (g : σ → σ) (f : PUnit → Fill σ β) (s : σ) : (modify g >>= f) s = f ⟨⟩ (g s) := rfl

@[simp] theorem modify_run (g : σ → σ) (s : σ) : (modify g : Fill σ PUnit) s = .ok ⟨⟩ (g s) := rfl

theorem succeeds_bind {p : Fill σ α} {f : α → Fill σ β} {s : σ} :
    Succeeds (p >>= f) s ↔ ∃ a s', p s = .ok a s' ∧ Succeeds (f a) s' := by
  constructor
  · rintro ⟨b, s'', h⟩
    cases hp : p s with
    | ok a s' => exact ⟨a, s', rfl, b, s'', (bind_of_ok hp f) ▸ h⟩
    | error e s' =>
      change EStateM.bind p f s = _ at h
      rw [EStateM.bind, hp] at h
      cases h
  · rintro ⟨a, s', hp, b, s'', h⟩
    exact ⟨b, s'', (bind_of_ok hp f).trans h⟩

@[simp] theorem succeeds_pure (a : α) (s : σ) : Succeeds (pure a) s := ⟨a, s, rfl⟩

/-- A lookup. -/
@[simp] theorem succeeds_require (o : Option α) (f : α → Fill σ β) (s : σ) :
    Succeeds (require o >>= f) s ↔ ∃ a, o = some a ∧ Succeeds (f a) s := by
  cases o with
  | none => exact iff_of_false (by rintro ⟨a, s', h⟩; cases h) (by rintro ⟨a, h, -⟩; cases h)
  | some a =>
    rw [require_bind]
    exact ⟨fun h => ⟨a, rfl, h⟩, fun ⟨_, h, hf⟩ => Option.some.inj h ▸ hf⟩

/-- An assignment. -/
@[simp] theorem succeeds_modify (g : σ → σ) (f : PUnit → Fill σ β) (s : σ) :
    Succeeds (modify g >>= f) s ↔ Succeeds (f ⟨⟩) (g s) := by
  rw [Succeeds, modify_bind, Succeeds]

@[simp] theorem succeeds_modify_last (g : σ → σ) (s : σ) : Succeeds (modify g : Fill σ PUnit) s := ⟨⟨⟩, g s, rfl⟩

/-- One after the other, where the success of the second does not depend on the structure. -/
theorem succeeds_seq {p : Fill σ α} {q : Fill σ β} {Q : Prop} (hq : ∀ s, Succeeds q s ↔ Q) (s : σ) :
    Succeeds (p >>= fun _ => q) s ↔ Succeeds p s ∧ Q := by
  rw [succeeds_bind]
  constructor
  · rintro ⟨a, s', hp, h⟩
    exact ⟨⟨a, s', hp⟩, (hq s').mp h⟩
  · rintro ⟨⟨a, s', hp⟩, h⟩
    exact ⟨a, s', hp, (hq s').mpr h⟩

/-- **A loop** succeeds if every pass does, where that does not depend on the structure. -/
theorem succeeds_forM {ι : Type} {f : ι → Fill σ PUnit} {P : ι → Prop} (h : ∀ x s, Succeeds (f x) s ↔ P x)
    (xs : List ι) (s : σ) : Succeeds (xs.forM f) s ↔ ∀ x ∈ xs, P x := by
  induction xs generalizing s with
  | nil => simp [List.forM_eq_forM]
  | cons x xs ih =>
    simp only [List.forM_eq_forM, List.forM_cons, List.forall_mem_cons] at ih ⊢
    rw [succeeds_seq ih, h]

/-- What a loop does whose passes succeed. -/
theorem forM_run {ι : Type} {f : ι → Fill σ PUnit} {g : ι → σ → σ} (h : ∀ x s, f x s = .ok ⟨⟩ (g x s)) (xs : List ι)
    (s : σ) : xs.forM f s = .ok ⟨⟩ (xs.foldl (fun s x => g x s) s) := by
  induction xs generalizing s with
  | nil => rfl
  | cons x xs ih =>
    simp only [List.forM_eq_forM, List.forM_cons, List.foldl_cons] at ih ⊢
    rw [bind_of_ok (h x s), ih]

end Fill

end ModbusProxy
