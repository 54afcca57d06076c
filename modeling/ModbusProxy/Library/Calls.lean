import Mathlib

/-!
# Programs that call the system

A program is a tree: it is done, or it makes a call and goes on with whatever the call
returns. A run of a program is the list of its calls with what they returned
(`Program.Runs`).

Calls work on handles: a call names some, may close some of them, may pass some to a thread
that it starts, and may return new ones. A program owns its handles (`Program.Owns`) if it
names only handles that it was given or was returned, and that it has neither closed nor
passed on, whatever the calls return.
-/

namespace ModbusProxy.Calls

/-- A program. -/
inductive Program (Op : Type) (Ret : Op → Type) (α : Type) : Type where
  /-- It is done. -/
  | done (a : α)
  /-- It makes a call. -/
  | call (op : Op) (next : Ret op → Program Op Ret α)

variable {Op : Type} {Ret : Op → Type} {α β : Type}

namespace Program

/-- A program, and then another. -/
def bind : Program Op Ret α → (α → Program Op Ret β) → Program Op Ret β
  | .done a, f => f a
  | .call op next, f => .call op fun r => (next r).bind f

instance : Monad (Program Op Ret) where
  pure := .done
  bind := bind

@[simp] theorem done_bind (a : α) (f : α → Program Op Ret β) : (done a).bind f = f a := rfl

@[simp] theorem bind_eq (p : Program Op Ret α) (f : α → Program Op Ret β) : p >>= f = p.bind f := rfl

@[simp] theorem pure_eq (a : α) : (pure a : Program Op Ret α) = done a := rfl

end Program

/-- A call and what it returned. -/
abbrev Event (Op : Type) (Ret : Op → Type) : Type := (op : Op) × Ret op

/-! ### Runs -/

/-- A run of a program: its calls with what they returned, and its result. -/
inductive Program.Runs : Program Op Ret α → List (Event Op Ret) → α → Prop where
  /-- It is done. -/
  | done (a : α) : Runs (.done a) [] a
  /-- It makes a call. -/
  | call {op : Op} {next : Ret op → Program Op Ret α} (r : Ret op) {events : List (Event Op Ret)} {a : α}
      (h : Runs (next r) events a) : Runs (.call op next) (⟨op, r⟩ :: events) a

/-- Every run has the property. -/
def Program.Ensures : Program Op Ret α → (List (Event Op Ret) → α → Prop) → Prop
  | .done a, post => post [] a
  | .call op next, post => ∀ r, (next r).Ensures fun events a => post (⟨op, r⟩ :: events) a

@[simp] theorem Program.ensures_done {a : α} {post : List (Event Op Ret) → α → Prop} :
    (done a).Ensures post ↔ post [] a := Iff.rfl

theorem Program.ensures_iff {p : Program Op Ret α} {post : List (Event Op Ret) → α → Prop} :
    p.Ensures post ↔ ∀ events a, p.Runs events a → post events a := by
  induction p generalizing post with
  | done a =>
    constructor
    · rintro h events b ⟨⟩
      exact h
    · exact fun h => h [] a (.done a)
  | call op next ih =>
    constructor
    · rintro h events a hrun
      cases hrun with
      | call r hrun => exact (ih r).mp (h r) _ _ hrun
    · exact fun h r => (ih r).mpr fun events a hrun => h _ _ (.call r hrun)

theorem Program.Ensures.imp {p : Program Op Ret α} {post post' : List (Event Op Ret) → α → Prop} (h : p.Ensures post)
    (himp : ∀ events a, post events a → post' events a) : p.Ensures post' := by
  induction p generalizing post post' with
  | done a => exact himp [] a h
  | call op next ih => exact fun r => ih r (h r) fun events a => himp _ a

/-- The runs of a program and then another. -/
theorem Program.ensures_bind {p : Program Op Ret α} {f : α → Program Op Ret β}
    {post : List (Event Op Ret) → β → Prop} :
    (p.bind f).Ensures post ↔ p.Ensures fun events a => (f a).Ensures fun events' b => post (events ++ events') b := by
  induction p generalizing post with
  | done a => exact Iff.rfl
  | call op next ih => exact forall_congr' fun r => ih r

/-! ### Handles -/

/-- What calls do with handles. -/
structure Rules (Op : Type) (Ret : Op → Type) (H : Type) where
  /-- What a call may return. -/
  returns : (op : Op) → Ret op → Prop
  /-- The handles that a call names. -/
  uses : Op → Set H
  /-- Those that it closes. -/
  closes : (op : Op) → Ret op → Set H
  /-- Those that it passes to a thread. -/
  passes : (op : Op) → Ret op → Set H
  /-- New ones. -/
  opens : (op : Op) → Ret op → Set H
  /-- Only what is named is closed. -/
  closes_subset : ∀ op r, closes op r ⊆ uses op
  /-- Only what is named is passed on. -/
  passes_subset : ∀ op r, passes op r ⊆ uses op
  /-- What is closed is not passed on. -/
  disjoint : ∀ op r, Disjoint (closes op r) (passes op r)

variable {H : Type} {R : Rules Op Ret H}

/-- What the caller holds after a call. -/
def Rules.after (R : Rules Op Ret H) (op : Op) (r : Ret op) (held : Set H) : Set H :=
  (held \ (R.closes op r ∪ R.passes op r)) ∪ R.opens op r

/-- The program, which holds the handles `held`, names only what it holds, whatever the calls
return, and what it holds at the end is as `post` says. New handles are not among those held. -/
def Program.Owns (R : Rules Op Ret H) : Program Op Ret α → Set H → (α → Set H → Prop) → Prop
  | .done a, held, post => post a held
  | .call op next, held, post => R.uses op ⊆ held ∧
      ∀ r, R.returns op r → (∀ h ∈ R.opens op r, h ∉ held) → (next r).Owns R (R.after op r held) post

namespace Program

theorem Owns.imp {p : Program Op Ret α} {held : Set H} {post post' : α → Set H → Prop} (h : p.Owns R held post)
    (himp : ∀ a held, post a held → post' a held) : p.Owns R held post' := by
  induction p generalizing held with
  | done a => exact himp a held h
  | call op next ih => exact ⟨h.1, fun r hr hnew => ih r (h.2 r hr hnew)⟩

/-- A program after another. -/
theorem Owns.bind {p : Program Op Ret α} {f : α → Program Op Ret β} {held : Set H} {mid : α → Set H → Prop}
    {post : β → Set H → Prop} (h : p.Owns R held mid) (hf : ∀ a held, mid a held → (f a).Owns R held post) :
    (p.bind f).Owns R held post := by
  induction p generalizing held with
  | done a => exact hf a held h
  | call op next ih => exact ⟨h.1, fun r hr hnew => ih r (h.2 r hr hnew)⟩

end Program

end ModbusProxy.Calls
