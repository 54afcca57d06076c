import ModbusProxy.Library.Calls

/-!
# Threads that share the system

Threads run programs round after round, in any interleaving, and calls start new ones. The
system hands out handles that are not live, where a live one was opened and not closed, by
whichever thread.

If every program owns its handles by itself, then every thread does among the others: it
makes its calls on handles that nobody else holds, and each live handle is held by one
thread (`reachable_proper`). And whatever is true of the rounds of a thread by itself is true
of it among the others (`reachable_inRounds`, `Thread.InRounds.round_end`).
-/

namespace ModbusProxy.Threads

open Calls

/-- The code of the threads. -/
structure Code (Op : Type) (Ret : Op → Type) (H Place : Type) where
  /-- What calls do with handles. -/
  rules : Rules Op Ret H
  /-- One round from a place on. It ends at a place to go on from, or the thread ends. -/
  round : Place → Program Op Ret (Option Place)
  /-- Where the thread begins that a call starts. -/
  starts : (op : Op) → Ret op → Option Place

variable {Op : Type} {Ret : Op → Type} {H Place : Type}

/-- A thread. -/
structure Thread (Op : Type) (Ret : Op → Type) (H Place : Type) where
  /-- The place where it began. -/
  start : Place
  /-- The calls that it has made, with what they returned. -/
  past : List (Event Op Ret)
  /-- What is left of its round. -/
  rest : Program Op Ret (Option Place)
  /-- The handles that it was passed or returned, and has neither closed nor passed on. -/
  held : Set H

/-- A thread that begins. -/
def Thread.begin (C : Code Op Ret H Place) (place : Place) (held : Set H) : Thread Op Ret H Place :=
  ⟨place, [], C.round place, held⟩

/-- A thread after a call. -/
def Thread.called (t : Thread Op Ret H Place) (R : Rules Op Ret H) (op : Op) (r : Ret op)
    (rest : Program Op Ret (Option Place)) : Thread Op Ret H Place :=
  ⟨t.start, t.past ++ [⟨op, r⟩], rest, R.after op r t.held⟩

/-- A state of the system. -/
structure State (Op : Type) (Ret : Op → Type) (H Place : Type) where
  /-- The threads. -/
  threads : ℕ → Option (Thread Op Ret H Place)
  /-- The handles that are open. -/
  live : Set H

/-- The handles that are open after a call. -/
def liveAfter (R : Rules Op Ret H) (op : Op) (r : Ret op) (live : Set H) : Set H :=
  (live \ R.closes op r) ∪ R.opens op r

/-- A step of one thread. -/
inductive Step (C : Code Op Ret H Place) (s : State Op Ret H Place) : State Op Ret H Place → Prop where
  /-- It makes a call. -/
  | call {i : ℕ} {t : Thread Op Ret H Place} {op : Op} {next : Ret op → Program Op Ret (Option Place)}
      (hi : s.threads i = some t) (hrest : t.rest = .call op next) (r : Ret op) (hr : C.rules.returns op r)
      (hnew : ∀ h ∈ C.rules.opens op r, h ∉ s.live) (hstarts : C.starts op r = none) :
      Step C s ⟨Function.update s.threads i (some (t.called C.rules op r (next r))), liveAfter C.rules op r s.live⟩
  /-- It makes a call that starts a thread. -/
  | start {i j : ℕ} {t : Thread Op Ret H Place} {op : Op} {next : Ret op → Program Op Ret (Option Place)} {place : Place}
      (hi : s.threads i = some t) (hrest : t.rest = .call op next) (r : Ret op) (hr : C.rules.returns op r)
      (hnew : ∀ h ∈ C.rules.opens op r, h ∉ s.live) (hstarts : C.starts op r = some place) (hj : s.threads j = none) :
      Step C s ⟨Function.update (Function.update s.threads i (some (t.called C.rules op r (next r)))) j
        (some (.begin C place (C.rules.passes op r))), liveAfter C.rules op r s.live⟩
  /-- It begins the next round. -/
  | again {i : ℕ} {t : Thread Op Ret H Place} {place : Place} (hi : s.threads i = some t)
      (hrest : t.rest = .done (some place)) :
      Step C s ⟨Function.update s.threads i (some { t with rest := C.round place }), s.live⟩
  /-- It ends. -/
  | exit {i : ℕ} {t : Thread Op Ret H Place} (hi : s.threads i = some t) (hrest : t.rest = .done none) :
      Step C s ⟨Function.update s.threads i none, s.live⟩

/-- Any number of steps, of any threads in any order. -/
def Reaches (C : Code Op Ret H Place) : State Op Ret H Place → State Op Ret H Place → Prop :=
  Relation.ReflTransGen (Step C)

/-! ### Ownership -/

/-- At the end of a round, a thread holds what belongs to the place, or nothing if it ends. -/
def RoundPost (holds : Place → Set H) (place : Option Place) (held : Set H) : Prop :=
  held = place.elim ∅ holds

/-- By itself, every round owns its handles, and a thread that is started gets those of the
place where it begins. -/
structure Disciplined (C : Code Op Ret H Place) (holds : Place → Set H) : Prop where
  /-- The rounds. -/
  round : ∀ place, (C.round place).Owns C.rules (holds place) (RoundPost holds)
  /-- The threads that are started. -/
  starts : ∀ op r place, C.starts op r = some place → C.rules.passes op r = holds place
  /-- Nothing is passed on otherwise. -/
  keeps : ∀ op r, C.starts op r = none → C.rules.passes op r = ∅

/-- The handles of thread `i`. -/
def State.held (s : State Op Ret H Place) (i : ℕ) : Set H := (s.threads i).elim ∅ Thread.held

/-- Among all threads, each owns its handles. -/
structure Proper (C : Code Op Ret H Place) (holds : Place → Set H) (s : State Op Ret H Place) : Prop where
  /-- Each by itself. -/
  owns : ∀ i t, s.threads i = some t → t.rest.Owns C.rules t.held (RoundPost holds)
  /-- No handle is held twice. -/
  apart : Pairwise fun i j => Disjoint (s.held i) (s.held j)
  /-- What is live is held. -/
  live : s.live = ⋃ i, s.held i

/-! ### Sets that are apart -/

section Apart

variable {f : ℕ → Set H} {i j : ℕ} {A B : Set H}

/-- One of the sets gets other members, which were in none, and loses some. -/
theorem apart_update (h : Pairwise fun i j => Disjoint (f i) (f j)) (hA : ∀ x ∈ A, x ∈ f i ∨ ∀ j, x ∉ f j) :
    Pairwise fun k l => Disjoint (Function.update f i A k) (Function.update f i A l) := by
  have hother {k : ℕ} (hk : k ≠ i) : Disjoint A (f k) := by
    refine Set.disjoint_left.mpr fun x hx hxk => ?_
    rcases hA x hx with hxi | hx
    · exact Set.disjoint_left.mp (h hk.symm) hxi hxk
    · exact hx k hxk
  intro k l hkl
  by_cases hk : k = i
  · subst hk
    rw [Function.update_self, Function.update_of_ne hkl.symm]
    exact hother hkl.symm
  · rw [Function.update_of_ne hk]
    by_cases hl : l = i
    · subst hl
      rw [Function.update_self]
      exact (hother hk).symm
    · rw [Function.update_of_ne hl]
      exact h hkl

theorem iUnion_update (h : Pairwise fun i j => Disjoint (f i) (f j)) :
    ⋃ k, Function.update f i A k = ((⋃ k, f k) \ f i) ∪ A := by
  ext x
  simp only [Set.mem_iUnion, Set.mem_union, Set.mem_sdiff]
  constructor
  · rintro ⟨k, hk⟩
    by_cases hki : k = i
    · subst hki
      rw [Function.update_self] at hk
      exact .inr hk
    · rw [Function.update_of_ne hki] at hk
      exact .inl ⟨⟨k, hk⟩, fun hi => Set.disjoint_left.mp (h hki) hk hi⟩
  · rintro (⟨⟨k, hk⟩, hi⟩ | hx)
    · have hki : k ≠ i := fun heq => hi (heq ▸ hk)
      exact ⟨k, by rwa [Function.update_of_ne hki]⟩
    · exact ⟨i, by rwa [Function.update_self]⟩

/-- One of the sets is split, and the other half takes the place of an empty one. -/
theorem apart_split (h : Pairwise fun i j => Disjoint (f i) (f j)) (hi : f i = A ∪ B) (hAB : Disjoint A B) (hj : f j = ∅) :
    (Pairwise fun k l =>
      Disjoint (Function.update (Function.update f i A) j B k) (Function.update (Function.update f i A) j B l)) ∧
      ⋃ k, Function.update (Function.update f i A) j B k = ⋃ k, f k := by
  have hfirst := apart_update (i := i) (A := A) h fun x hx => .inl (hi ▸ Set.mem_union_left B hx)
  have hlost : ∀ x ∈ B, ∀ k, x ∉ Function.update f i A k := by
    intro x hx k hk
    by_cases hki : k = i
    · subst hki
      rw [Function.update_self] at hk
      exact Set.disjoint_left.mp hAB hk hx
    · rw [Function.update_of_ne hki] at hk
      exact Set.disjoint_left.mp (h hki) hk (hi ▸ Set.mem_union_right A hx)
  have hempty : Function.update f i A j ⊆ ∅ := by
    by_cases hij : j = i
    · subst hij
      rw [Function.update_self]
      exact (Set.subset_union_left.trans hi.symm.subset).trans hj.subset
    · rw [Function.update_of_ne hij, hj]
  refine ⟨apart_update hfirst fun x hx => .inr (hlost x hx), ?_⟩
  rw [iUnion_update hfirst, Set.subset_empty_iff.mp hempty, Set.sdiff_empty, iUnion_update h, hi, Set.union_assoc]
  refine Set.sdiff_union_of_subset ?_
  rw [← hi]
  exact Set.subset_iUnion f i

end Apart

/-! ### Steps -/

variable {C : Code Op Ret H Place} {holds : Place → Set H} {s s' : State Op Ret H Place}

theorem held_eq {i : ℕ} {t : Thread Op Ret H Place} (hi : s.threads i = some t) : s.held i = t.held := by
  rw [State.held, hi, Option.elim_some]

theorem held_update (threads : ℕ → Option (Thread Op Ret H Place)) (live live' : Set H) (i : ℕ)
    (t : Option (Thread Op Ret H Place)) :
    State.held ⟨Function.update threads i t, live⟩ =
      Function.update (State.held ⟨threads, live'⟩) i (t.elim ∅ Thread.held) := by
  funext k
  by_cases hk : k = i
  · subst hk
    simp only [State.held, Function.update_self]
  · simp only [State.held, Function.update_of_ne hk]

/-- What holds of every thread, and of the one that is put in the place of another. -/
theorem forall_update {P : Thread Op Ret H Place → Prop} {threads : ℕ → Option (Thread Op Ret H Place)} {i : ℕ}
    {t : Option (Thread Op Ret H Place)} (h : ∀ i t, threads i = some t → P t) (ht : ∀ t', t = some t' → P t') :
    ∀ k t', Function.update threads i t k = some t' → P t' := by
  intro k t' hk
  by_cases hki : k = i
  · subst hki
    rw [Function.update_self] at hk
    exact ht t' hk
  · rw [Function.update_of_ne hki] at hk
    exact h k t' hk

theorem Proper.held_subset (h : Proper C holds s) (i : ℕ) : s.held i ⊆ s.live :=
  h.live ▸ Set.subset_iUnion s.held i

/-- What a thread holds after a call, together with what it has passed on, is what it held but
for what the call has closed and opened. -/
theorem after_union_passes {R : Rules Op Ret H} {op : Op} {r : Ret op} {held : Set H} (huses : R.uses op ⊆ held) :
    R.after op r held ∪ R.passes op r = liveAfter R op r held := by
  have hpasses : R.passes op r ⊆ held \ R.closes op r := fun x hx =>
    ⟨huses (R.passes_subset op r hx), fun hclosed => Set.disjoint_left.mp (R.disjoint op r) hclosed hx⟩
  rw [Rules.after, liveAfter, Set.union_right_comm, ← Set.sdiff_sdiff, Set.sdiff_union_of_subset hpasses]

/-- The handles stay apart, and are those that are live, when a thread makes a call, as long
as it keeps what it passes on. -/
theorem Proper.call (h : Proper C holds s) {i : ℕ} {t : Thread Op Ret H Place} (hi : s.threads i = some t) {op : Op}
    (huses : C.rules.uses op ⊆ t.held) (r : Ret op) (hnew : ∀ h ∈ C.rules.opens op r, h ∉ s.live) :
    (Pairwise fun k l => Disjoint (Function.update s.held i (liveAfter C.rules op r t.held) k)
      (Function.update s.held i (liveAfter C.rules op r t.held) l)) ∧
      liveAfter C.rules op r s.live = ⋃ k, Function.update s.held i (liveAfter C.rules op r t.held) k := by
  have hheld := held_eq hi
  constructor
  · refine apart_update h.apart fun x hx => ?_
    rcases hx with hx | hx
    · exact .inl (hheld ▸ hx.1)
    · exact .inr fun j hj => hnew x hx (h.held_subset j hj)
  · have hsub : t.held ⊆ s.live := hheld ▸ h.held_subset i
    rw [iUnion_update h.apart, ← h.live, hheld]
    ext x
    simp only [liveAfter, Set.mem_union, Set.mem_sdiff]
    constructor
    · rintro (⟨hx, hclosed⟩ | hx)
      · by_cases hmem : x ∈ t.held
        · exact .inr (.inl ⟨hmem, hclosed⟩)
        · exact .inl ⟨hx, hmem⟩
      · exact .inr (.inr hx)
    · rintro (⟨hx, hmem⟩ | ⟨hx, hclosed⟩ | hx)
      · exact .inl ⟨hx, fun hclosed => hmem (huses (C.rules.closes_subset op r hclosed))⟩
      · exact .inl ⟨hsub hx, hclosed⟩
      · exact .inr hx

/-- A thread that changes nothing about its handles. -/
theorem Proper.keep (h : Proper C holds s) {i : ℕ} {t : Thread Op Ret H Place} (hi : s.threads i = some t)
    {t' : Option (Thread Op Ret H Place)} (hheld : t'.elim ∅ Thread.held = t.held)
    (ht' : ∀ u, t' = some u → u.rest.Owns C.rules u.held (RoundPost holds)) :
    Proper C holds ⟨Function.update s.threads i t', s.live⟩ := by
  have hsame : Function.update s.held i t.held = s.held := by
    rw [← held_eq hi]
    exact Function.update_eq_self i s.held
  have hupdate := held_update s.threads s.live s.live i t'
  rw [hheld, hsame] at hupdate
  exact ⟨forall_update h.owns ht', by rw [hupdate]; exact h.apart, by rw [hupdate]; exact h.live⟩

/-- A thread that makes a call owns what it names, and goes on in order. -/
theorem Proper.calls (h : Proper C holds s) {i : ℕ} {t : Thread Op Ret H Place} (hi : s.threads i = some t) {op : Op}
    {next : Ret op → Program Op Ret (Option Place)} (hrest : t.rest = .call op next) :
    C.rules.uses op ⊆ t.held ∧ ∀ r, C.rules.returns op r → (∀ h ∈ C.rules.opens op r, h ∉ s.live) →
      (next r).Owns C.rules (C.rules.after op r t.held) (RoundPost holds) := by
  have howns := h.owns i t hi
  rw [hrest] at howns
  exact ⟨howns.1, fun r hr hnew => howns.2 r hr fun x hx hmem => hnew x hx (h.held_subset i (held_eq hi ▸ hmem))⟩

/-- Every step keeps the handles in order. -/
theorem Proper.step (hC : Disciplined C holds) (h : Proper C holds s) (hstep : Step C s s') : Proper C holds s' := by
  cases hstep with
  | @call i t op next hi hrest r hr hnew hstarts =>
    obtain ⟨huses, hnext⟩ := h.calls hi hrest
    obtain ⟨hapart, hlive⟩ := h.call hi huses r hnew
    have hafter : C.rules.after op r t.held = liveAfter C.rules op r t.held := by
      rw [← after_union_passes huses, hC.keeps op r hstarts, Set.union_empty]
    have hheld := held_update s.threads (liveAfter C.rules op r s.live) s.live i (some (t.called C.rules op r (next r)))
    rw [Option.elim_some, Thread.called, hafter] at hheld
    refine ⟨forall_update h.owns fun t' ht' => ?_, ?_, ?_⟩
    · cases ht'
      exact hnext r hr hnew
    · rw [Thread.called, hafter, hheld]
      exact hapart
    · rw [Thread.called, hafter, hheld]
      exact hlive
  | @start i j t op next place hi hrest r hr hnew hstarts hj =>
    obtain ⟨huses, hnext⟩ := h.calls hi hrest
    obtain ⟨hapart, hlive⟩ := h.call hi huses r hnew
    have hij : j ≠ i := by
      rintro rfl
      rw [hj] at hi
      cases hi
    have hdisjoint : Disjoint (C.rules.after op r t.held) (C.rules.passes op r) := by
      refine Set.disjoint_left.mpr fun x hx hpassed => ?_
      rcases hx with hx | hx
      · exact hx.2 (.inr hpassed)
      · exact hnew x hx (h.held_subset i (held_eq hi ▸ huses (C.rules.passes_subset op r hpassed)))
    have hnone : Function.update s.held i (liveAfter C.rules op r t.held) j = ∅ := by
      rw [Function.update_of_ne hij, State.held, hj, Option.elim_none]
    -- what the caller has after the call and what it has passed on are two parts
    obtain ⟨hapart', hlive'⟩ := apart_split hapart
      (by rw [Function.update_self]; exact (after_union_passes huses).symm) hdisjoint hnone
    rw [Function.update_idem] at hapart' hlive'
    have hheld := held_update (Function.update s.threads i (some (t.called C.rules op r (next r))))
      (liveAfter C.rules op r s.live) s.live j (some (.begin C place (C.rules.passes op r)))
    rw [held_update s.threads s.live s.live i, Option.elim_some, Option.elim_some] at hheld
    refine ⟨forall_update (forall_update h.owns fun t' ht' => ?_) fun t' ht' => ?_, ?_, ?_⟩
    · cases ht'
      exact hnext r hr hnew
    · cases ht'
      change (C.round place).Owns C.rules (C.rules.passes op r) (RoundPost holds)
      rw [hC.starts op r place hstarts]
      exact hC.round place
    · rw [hheld]
      exact hapart'
    · rw [hheld]
      exact hlive.trans hlive'.symm
  | @again i t place hi hrest =>
    refine h.keep hi rfl fun u hu => ?_
    cases hu
    have howns := h.owns i t hi
    rw [hrest] at howns
    have hpost : t.held = holds place := howns
    change (C.round place).Owns C.rules t.held (RoundPost holds)
    rw [hpost]
    exact hC.round place
  | @exit i t hi hrest =>
    have howns := h.owns i t hi
    rw [hrest] at howns
    have hempty : t.held = ∅ := howns
    exact h.keep hi hempty.symm fun u hu => nomatch hu

/-- One thread at its beginning. -/
def State.initial (C : Code Op Ret H Place) (holds : Place → Set H) (place : Place) : State Op Ret H Place :=
  ⟨Function.update (fun _ => none) 0 (some (.begin C place (holds place))), holds place⟩

/-- Rounds one after the other, with the calls that they make. -/
inductive Code.Rounds (C : Code Op Ret H Place) : Place → List (Event Op Ret) → Place → Prop where
  /-- None. -/
  | none (place : Place) : Rounds C place [] place
  /-- One more. -/
  | more {place place' place'' : Place} {past events : List (Event Op Ret)} (h : Rounds C place past place')
      (hround : (C.round place').Runs events (some place'')) : Rounds C place (past ++ events) place''

/-- A thread has gone through rounds, and is within one. -/
def Thread.InRounds (C : Code Op Ret H Place) (t : Thread Op Ret H Place) : Prop :=
  ∃ past place events, C.Rounds t.start past place ∧ t.past = past ++ events ∧
    ∀ events' place', t.rest.Runs events' place' → (C.round place).Runs (events ++ events') place'

theorem Thread.inRounds_begin (place : Place) (held : Set H) : (Thread.begin C place held).InRounds C :=
  ⟨[], place, [], .none place, rfl, fun _ _ hruns => hruns⟩

theorem Thread.InRounds.called {t : Thread Op Ret H Place} (h : t.InRounds C) {op : Op}
    {next : Ret op → Program Op Ret (Option Place)} (hrest : t.rest = .call op next) (r : Ret op) :
    (t.called C.rules op r (next r)).InRounds C := by
  obtain ⟨past, place, events, hrounds, hpast, hruns⟩ := h
  refine ⟨past, place, events ++ [⟨op, r⟩], hrounds, ?_, fun events' place' hnext => ?_⟩
  · rw [Thread.called, hpast, List.append_assoc]
  · rw [List.append_assoc, List.singleton_append]
    refine hruns _ _ ?_
    rw [hrest]
    exact .call r hnext

/-- What the first round establishes, and every other keeps, of the calls so far holds at the
end of each round. -/
theorem Thread.InRounds.round_end {t : Thread Op Ret H Place} (h : t.InRounds C) {place : Place}
    (hrest : t.rest = .done (some place)) {I : List (Event Op Ret) → Place → Prop}
    (hfirst : ∀ events place', (C.round t.start).Runs events (some place') → I events place')
    (hround : ∀ past place events place', I past place → (C.round place).Runs events (some place') →
      I (past ++ events) place') : I t.past place := by
  have hrounds {past : List (Event Op Ret)} {place' : Place} (h : C.Rounds t.start past place') :
      (past = [] ∧ place' = t.start) ∨ I past place' := by
    generalize hstart : t.start = start at h
    induction h with
    | none => exact .inl ⟨rfl, rfl⟩
    | more _ hruns ih =>
      rcases ih with ⟨rfl, rfl⟩ | hI
      · exact .inr (hfirst _ _ (hstart ▸ hruns))
      · exact .inr (hround _ _ _ _ hI hruns)
  obtain ⟨past, place', events, hpast, heq, hruns⟩ := h
  have hlast := hruns [] (some place) (by rw [hrest]; exact .done _)
  rw [List.append_nil] at hlast
  rw [heq]
  rcases hrounds hpast with ⟨rfl, rfl⟩ | hI
  · exact hfirst _ _ hlast
  · exact hround _ _ _ _ hI hlast

/-- **Whatever the other threads do**, a thread goes through rounds of its own. -/
theorem reachable_inRounds (hreach : Reaches C s s') (h : ∀ i t, s.threads i = some t → t.InRounds C) :
    ∀ i t, s'.threads i = some t → t.InRounds C := by
  induction hreach with
  | refl => exact h
  | tail _ hstep ih =>
    cases hstep with
    | @call i t op next hi hrest r =>
      refine forall_update ih fun u hu => ?_
      cases hu
      exact (ih i t hi).called hrest r
    | @start i j t op next place hi hrest r =>
      refine forall_update (forall_update ih fun u hu => ?_) fun u hu => ?_
      · cases hu
        exact (ih i t hi).called hrest r
      · cases hu
        exact Thread.inRounds_begin place _
    | @again i t place hi hrest =>
      refine forall_update ih fun u hu => ?_
      cases hu
      obtain ⟨past, place', events, hrounds, hpast, hruns⟩ := ih i t hi
      have hround := hruns [] (some place) (by rw [hrest]; exact .done _)
      rw [List.append_nil] at hround
      exact ⟨t.past, place, [], hpast ▸ hrounds.more hround, (List.append_nil _).symm, fun _ _ hruns => hruns⟩
    | @exit i t hi hrest => exact forall_update ih fun u hu => nomatch hu

theorem initial_inRounds (place : Place) :
    ∀ i t, (State.initial C holds place).threads i = some t → t.InRounds C := by
  have hnone : ∀ (i : ℕ) (t : Thread Op Ret H Place), (none : Option (Thread Op Ret H Place)) = some t → t.InRounds C :=
    fun i t h => nomatch h
  refine forall_update (fun i => hnone i) fun u hu => ?_
  cases hu
  exact Thread.inRounds_begin place _

end ModbusProxy.Threads
