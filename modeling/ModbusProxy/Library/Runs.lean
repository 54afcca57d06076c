import Mathlib.Data.List.Infix

/-!
# Runs of a step function

A system is a step function `step : σ → ε → σ`: the environment picks the event,
the code computes the next state. A run is a list of events, taken one after the
other. This module has the rules by which facts about one step become facts about
every state of a run: an invariant that every step keeps (`run_invariant`), and an
invariant that is kept by those steps that meet a guard (`throughout_of_guarded`),
which for a guard that is also necessary becomes an equivalence
(`throughout_iff_guarded`).
-/

namespace ModbusProxy.Runs

variable {σ ε : Type*}

/-- The state after the events `evs`, from `s`. -/
def run (step : σ → ε → σ) (s : σ) (evs : List ε) : σ := evs.foldl step s

/-- Every event of the run meets the guard `G` in the state that it finds. -/
def Guarded (step : σ → ε → σ) (G : σ → ε → Prop) : σ → List ε → Prop
  | _, [] => True
  | s, e :: es => G s e ∧ Guarded step G (step s e) es

/-- A guard that is decidable at a step is decidable of a run. -/
def decidableGuarded (step : σ → ε → σ) (G : σ → ε → Prop) [∀ s e, Decidable (G s e)] :
    (s : σ) → (evs : List ε) → Decidable (Guarded step G s evs)
  | _, [] => isTrue trivial
  | s, e :: es =>
    have := decidableGuarded step G (step s e) es
    inferInstanceAs (Decidable (_ ∧ _))

instance (step : σ → ε → σ) (G : σ → ε → Prop) [∀ s e, Decidable (G s e)] (s : σ) (evs : List ε) :
    Decidable (Guarded step G s evs) := decidableGuarded step G s evs

/-- `P` holds in every state of the run, the first and the last included. -/
def Throughout (step : σ → ε → σ) (P : σ → Prop) (s : σ) (evs : List ε) : Prop :=
  ∀ pre, pre <+: evs → P (run step s pre)

variable {step : σ → ε → σ}

@[simp] theorem run_nil (s : σ) : run step s [] = s := rfl

@[simp] theorem run_cons (s : σ) (e : ε) (es : List ε) : run step s (e :: es) = run step (step s e) es := rfl

theorem run_append (s : σ) (as bs : List ε) : run step s (as ++ bs) = run step (run step s as) bs :=
  List.foldl_append

theorem run_concat (s : σ) (es : List ε) (e : ε) : run step s (es ++ [e]) = step (run step s es) e := by
  rw [run_append]; rfl

/-- The invariant rule: what every step keeps holds after every run. -/
theorem run_invariant {I : σ → Prop} (hstep : ∀ s e, I s → I (step s e)) {s : σ} (hs : I s)
    (evs : List ε) : I (run step s evs) := by
  induction evs generalizing s with
  | nil => exact hs
  | cons e es ih => exact ih (hstep s e hs)

theorem throughout_nil {P : σ → Prop} {s : σ} : Throughout step P s [] ↔ P s := by
  constructor
  · exact fun h => h [] (List.nil_prefix)
  · rintro h pre hpre
    rw [List.prefix_nil.mp hpre]
    exact h

theorem throughout_cons {P : σ → Prop} {s : σ} {e : ε} {es : List ε} :
    Throughout step P s (e :: es) ↔ P s ∧ Throughout step P (step s e) es := by
  constructor
  · intro h
    exact ⟨h [] List.nil_prefix, fun pre hpre => h (e :: pre) (List.cons_prefix_cons.mpr ⟨rfl, hpre⟩)⟩
  · rintro ⟨hs, hes⟩ pre hpre
    cases pre with
    | nil => exact hs
    | cons a pre =>
      obtain ⟨rfl, htail⟩ := List.cons_prefix_cons.mp hpre
      exact hes pre htail

theorem Throughout.start {P : σ → Prop} {s : σ} {evs : List ε} (h : Throughout step P s evs) : P s :=
  h [] List.nil_prefix

theorem Throughout.last {P : σ → Prop} {s : σ} {evs : List ε} (h : Throughout step P s evs) :
    P (run step s evs) := h evs (List.prefix_refl evs)

/-- An invariant that the guarded steps keep, and that implies `P`: in a run whose
steps all meet the guard, `P` holds throughout. -/
theorem throughout_of_guarded {I P : σ → Prop} {G : σ → ε → Prop} (hP : ∀ s, I s → P s)
    (hstep : ∀ s e, I s → G s e → I (step s e)) {s : σ} (hs : I s) {evs : List ε}
    (hg : Guarded step G s evs) : Throughout step P s evs := by
  induction evs generalizing s with
  | nil => exact throughout_nil.mpr (hP s hs)
  | cons e es ih =>
    obtain ⟨he, hes⟩ := hg
    exact throughout_cons.mpr ⟨hP s hs, ih (hstep s e hs he) hes⟩

/-- Where moreover a step that breaks the guard breaks `P` at once, `P` holds
throughout exactly in the runs whose steps all meet the guard. -/
theorem throughout_iff_guarded {I P : σ → Prop} {G : σ → ε → Prop} (hP : ∀ s, I s → P s)
    (hstep : ∀ s e, I s → G s e → I (step s e)) (hbreak : ∀ s e, I s → ¬ G s e → ¬ P (step s e))
    {s : σ} (hs : I s) (evs : List ε) : Throughout step P s evs ↔ Guarded step G s evs := by
  refine ⟨fun h => ?_, throughout_of_guarded hP hstep hs⟩
  induction evs generalizing s with
  | nil => trivial
  | cons e es ih =>
    obtain ⟨-, hes⟩ := throughout_cons.mp h
    have he : G s e := by
      by_contra hne
      exact hbreak s e hs hne hes.start
    exact ⟨he, ih (hstep s e hs he) hes⟩

end ModbusProxy.Runs
