import ModbusProxy.Poll.Registry

/-!
# What one client's cache owes to other clients

A client has its own cache, but the counters of failed requests are in the static
register table of its type, and a start does not reset them. So a client may find the
counters where an earlier client of the type left them, and a second client of the type
counts along.

## The model

A newly started client is compared with the first client of its type ever started, whose
table still has the zero counters of its initialiser. The two run side by side (`Pair`):
the one in a world where other clients come and go, the other on the replies to the
first one's requests and nothing else.

## What is proved

`isolation_iff`: the two caches agree throughout a run exactly if at every failed request
of the client the shared counter is on the same side of the retry limit as its own would
be, or the block reads as zeros either way (`KeepsPace`).
-/

namespace ModbusProxy.Poll

open Runs

/-! ### One request in two states -/

/-- From the same entry, two counters lead to the same entry exactly if a failed request
finds them on the same side of the limit, or zeros would not change the entry. -/
theorem blockStep_entry_eq_iff {b : Block} (s s' : BlockState) (hentry : s.entry = s'.entry) (r : Reply b) :
    (blockStep b s r).entry = (blockStep b s' r).entry ↔
      (r.payload = none →
        (s.counter.toNat < maxNumFailedReq - 1 ↔ s'.counter.toNat < maxNumFailedReq - 1) ∨
          s.entry.store (zeroBytes b) (byteLength b) r.mallocOk = s.entry) := by
  cases hp : r.payload with
  | some p =>
    rw [blockStep_some hp, blockStep_some hp, hentry]
    simp
  | none =>
    by_cases hlt : s.counter.toNat < maxNumFailedReq - 1 <;>
      by_cases hlt' : s'.counter.toNat < maxNumFailedReq - 1
    · simp [blockStep_keep hp hlt, blockStep_keep hp hlt', hentry, hlt, hlt']
    · rw [blockStep_keep hp hlt, blockStep_zero hp hlt', ← hentry]
      simp only [hlt, hlt', true_imp_iff, iff_false, not_true, false_or]
      exact eq_comm
    · rw [blockStep_zero hp hlt, blockStep_keep hp hlt', ← hentry]
      simp only [hlt, hlt', true_imp_iff, iff_true, false_or]
    · simp [blockStep_zero hp hlt, blockStep_zero hp hlt', hentry, hlt, hlt']

theorem PollingClient.poll_table (c : PollingClient) (p : BlockPoll) : (c.poll p).table = c.table := by
  unfold PollingClient.poll
  split
  · exact pollStep_table rfl _
  · rfl

theorem PollingClient.poll_of_lt {c : PollingClient} {T : RegisterTable} (ht : c.table = T) {p : BlockPoll}
    (h : p.block < T.size) :
    (c.poll p).pollData = Function.update c.pollData p.block
      (blockStep (T.block p.block) (c.state p.block) (p.reply _)).entry := by
  subst ht
  rw [PollingClient.poll, dif_pos h, pollStep_eq rfl]

theorem PollingClient.poll_of_ge {c : PollingClient} {p : BlockPoll} (h : ¬ p.block < c.table.size) : c.poll p = c := by
  rw [PollingClient.poll, dif_neg h]

/-- Two clients with the same table and the same cache keep the same cache over a poll
exactly if their counters take the poll to the same branch or the branches agree. -/
theorem poll_agree_iff (c c' : PollingClient) (htable : c.table = c'.table) (hdata : c.pollData = c'.pollData)
    (p : BlockPoll) :
    (c.poll p).pollData = (c'.poll p).pollData ↔
      (p.block < c.table.size → (p.reply (c.table.block p.block)).payload = none →
        ((c.numFailedRequests p.block).toNat < maxNumFailedReq - 1 ↔
          (c'.numFailedRequests p.block).toNat < maxNumFailedReq - 1) ∨
        (c.pollData p.block).store (zeroBytes (c.table.block p.block)) (byteLength (c.table.block p.block))
          (p.reply (c.table.block p.block)).mallocOk = c.pollData p.block) := by
  by_cases h : p.block < c.table.size
  · rw [PollingClient.poll_of_lt rfl h, PollingClient.poll_of_lt htable.symm h, ← hdata]
    have hiff := blockStep_entry_eq_iff (c.state p.block) (c'.state p.block)
      (congrFun hdata p.block) (p.reply (c.table.block p.block))
    constructor
    · intro heq _
      have hat := congrFun heq p.block
      rw [Function.update_self, Function.update_self] at hat
      exact hiff.mp hat
    · intro hpace
      rw [hiff.mpr (hpace h)]
  · rw [PollingClient.poll_of_ge h, PollingClient.poll_of_ge (htable ▸ h), hdata]
    simp [h]

/-! ### What an event does to a client -/

/-- No event but a poll of the client itself changes it, unless it frees it. -/
def Untouched (i : ℕ) (w w' : World) : Prop := w.next ≤ w'.next ∧ (w'.heap i = none ∨ w'.heap i = w.heap i)

theorem untouched_startClient {w : World} {i : ℕ} (hi : i < w.next) (type : PollType) (host : String) (port : UInt16) :
    Untouched i w (modbusTcpPollStartClient w type host port).1 := by
  by_cases htype : type.Valid
  · obtain ⟨c, -, -, -, heq⟩ := start_eq (w := w) htype host port
    rw [heq]
    split
    · exact ⟨Nat.le_refl _, .inr rfl⟩
    · exact ⟨Nat.le_succ _, .inr (Function.update_of_ne (Nat.ne_of_lt hi) _ _)⟩
  · rw [start_invalid htype]
    exact ⟨Nat.le_refl _, .inr rfl⟩

theorem untouched_stopSlot (i : ℕ) (w : World) (k : ℕ) : Untouched i w (stopSlot w k) := by
  unfold stopSlot
  cases w.pollingClients k with
  | none => exact ⟨Nat.le_refl _, .inr rfl⟩
  | some j =>
    refine ⟨Nat.le_refl _, ?_⟩
    simp only [modbusTcpPollStop]
    by_cases hij : i = j
    · subst hij
      exact .inl (Function.update_self ..)
    · exact .inr (Function.update_of_ne hij _ _)

theorem untouched_stopClient (i : ℕ) (w : World) (type : PollType) : Untouched i w (modbusTcpPollStopClient w type) := by
  unfold modbusTcpPollStopClient
  cases w.findSlot type with
  | none => exact ⟨Nat.le_refl _, .inr rfl⟩
  | some k => exact untouched_stopSlot i w k

theorem untouched_stopAll (i : ℕ) (w : World) : Untouched i w (modbusTcpPollStopAll w) := by
  have hloop : ∀ ks : List ℕ, Untouched i w (run stopSlot w ks) := by
    intro ks
    refine run_invariant (I := Untouched i w) (fun u k hu => ?_) ⟨Nat.le_refl _, .inr rfl⟩ ks
    obtain ⟨hnext, hheap⟩ := untouched_stopSlot i u k
    refine ⟨Nat.le_trans hu.1 hnext, ?_⟩
    rcases hheap with h | h
    · exact .inl h
    · rw [h]
      exact hu.2
  exact hloop (List.range w.numClients)

theorem untouched_poll {w : World} {i j : ℕ} (hij : j ≠ i) (p : BlockPoll) : Untouched i w (w.poll j p) := by
  unfold World.poll
  cases w.heap j with
  | none => exact ⟨Nat.le_refl _, .inr rfl⟩
  | some c => exact ⟨Nat.le_refl _, .inr (Function.update_of_ne (Ne.symm hij) _ _)⟩

/-! ### The two clients side by side -/

/-- A world, and the first client of some type ever started, on a table of its own. -/
structure Pair where
  /-- The world. -/
  world : World
  /-- The first client. -/
  first : PollingClient

/-- The event is a poll by the client at address `i`. -/
def Event.poll? (i : ℕ) : Event → Option BlockPoll
  | .poll j p => if j = i then some p else none
  | _ => none

/-- The first client makes the polls of the client at address `i`, with the same outcomes. -/
def Pair.step (i : ℕ) (s : Pair) (e : Event) : Pair where
  world := s.world.step e
  first :=
    match e.poll? i with
    | some p => s.first.poll p
    | none => s.first

/-- The cache of the client at address `i`, while it runs, is that of the first client. -/
def SameCache (i : ℕ) (s : Pair) : Prop := ∀ c, s.world.heap i = some c → c.pollData = s.first.pollData

/-- If the event is a failed request of the client at address `i`, then the counter in the
shared table and the one that the first client would have are on the same side of the
limit, or to store zeros would not change the entry. -/
def KeepsPace (i : ℕ) (s : Pair) (e : Event) : Prop :=
  ∀ p, e.poll? i = some p → ∀ c, s.world.heap i = some c → p.block < c.table.size →
    (p.reply (c.table.block p.block)).payload = none →
    ((s.world.numFailedRequests c.type p.block).toNat < maxNumFailedReq - 1 ↔
      (s.first.numFailedRequests p.block).toNat < maxNumFailedReq - 1) ∨
    (c.pollData p.block).store (zeroBytes (c.table.block p.block)) (byteLength (c.table.block p.block))
      (p.reply (c.table.block p.block)).mallocOk = c.pollData p.block

/-- The invariant: while the client runs, it polls the same table as the first client and
has the same cache; and its address will not be handed out again. -/
structure InStep (i : ℕ) (s : Pair) : Prop where
  /-- The address was handed out. -/
  old : i < s.world.next
  /-- The two poll the same table. -/
  table : ∀ c, s.world.heap i = some c → c.table = s.first.table
  /-- The two caches agree. -/
  cache : SameCache i s

theorem InStep.untouched {i : ℕ} {s : Pair} (h : InStep i s) {w : World} (hw : Untouched i s.world w) :
    InStep i ⟨w, s.first⟩ := by
  obtain ⟨hnext, hheap⟩ := hw
  refine ⟨Nat.lt_of_lt_of_le h.old hnext, fun c hc => ?_, fun c hc => ?_⟩
  · rcases hheap with hnone | hsame
    · exact absurd (hnone.symm.trans hc) (by simp)
    · exact h.table c (hsame.symm.trans hc)
  · rcases hheap with hnone | hsame
    · exact absurd (hnone.symm.trans hc) (by simp)
    · exact h.cache c (hsame.symm.trans hc)

/-- A poll of the client itself: the caches agree afterwards exactly if it keeps pace. -/
theorem InStep.poll_iff {i : ℕ} {s : Pair} (h : InStep i s) (p : BlockPoll) :
    SameCache i (s.step i (.poll i p)) ↔ KeepsPace i s (.poll i p) := by
  simp only [SameCache, KeepsPace, Pair.step, Event.poll?, if_true, World.step, World.poll]
  cases hc : s.world.heap i with
  | none => simp [hc]
  | some c =>
    simp only [Function.update_self, Option.some.injEq, forall_eq']
    exact poll_agree_iff (s.world.view c) s.first (h.table c hc) (h.cache c hc) p

theorem InStep.step {i : ℕ} {s : Pair} (h : InStep i s) (e : Event) (he : KeepsPace i s e) :
    InStep i (s.step i e) := by
  cases e with
  | startClient type host port => exact h.untouched (untouched_startClient h.old type host port)
  | stopClient type => exact h.untouched (untouched_stopClient i s.world type)
  | stopAll => exact h.untouched (untouched_stopAll i s.world)
  | poll j p =>
    by_cases hji : j = i
    · subst hji
      have hcache := (h.poll_iff p).mpr he
      refine ⟨?_, ?_, hcache⟩
      · simp only [Pair.step, World.step, World.poll]
        cases s.world.heap j <;> exact h.old
      · intro c' hc'
        simp only [Pair.step, World.step, World.poll, Event.poll?, if_true] at hc' ⊢
        cases hc : s.world.heap j with
        | none =>
          simp only [hc] at hc'
          cases hc'
        | some c =>
          simp only [hc, Function.update_self, Option.some.injEq] at hc'
          rw [← hc', PollingClient.poll_table]
          exact h.table c hc
    · have hstep : s.step i (.poll j p) = ⟨s.world.poll j p, s.first⟩ := by
        simp only [Pair.step, World.step, Event.poll?, if_neg hji]
      rw [hstep]
      exact h.untouched (untouched_poll hji p)

/-- A client just started and the first client of its type. -/
theorem InStep.start {w : World} {type : PollType} {T : RegisterTable} (hT : type.registers? = some T)
    {host : String} {port : UInt16} (hstart : (modbusTcpPollStartClient w type host port).2 = true) :
    InStep w.next ⟨(modbusTcpPollStartClient w type host port).1, .fresh T fun _ => 0⟩ := by
  have htype : type.Valid := by
    rintro v rfl
    cases hT
  obtain ⟨c, -, hdata, htable, heq⟩ := start_eq (w := w) htype host port
  rw [hT, Option.some.injEq] at htable
  rw [heq] at hstart ⊢
  by_cases hfull : maxClients ≤ w.numClients
  · rw [if_pos hfull] at hstart
    cases hstart
  rw [if_neg hfull]
  refine ⟨Nat.lt_succ_self _, ?_, ?_⟩
  · intro c' hc'
    simp only [Function.update_self, Option.some.injEq] at hc'
    rw [← hc']
    exact htable.symm
  · intro c' hc'
    simp only [Function.update_self, Option.some.injEq] at hc'
    rw [← hc', hdata, htable]
    rfl

/-- **Isolation, exactly.** After any history, a client that is started behaves in every
state of any run like the first client of its type ever started, on the same outcomes, if
and only if each of its failed requests keeps pace with that client's counters. -/
theorem isolation_iff (hist : List Event) (type : PollType) (T : RegisterTable) (host : String) (port : UInt16)
    (evs : List Event) (hT : type.registers? = some T)
    (hstart : (modbusTcpPollStartClient (run World.step .init hist) type host port).2 = true) :
    let w := run World.step .init hist
    let s : Pair := ⟨(modbusTcpPollStartClient w type host port).1, .fresh T fun _ => 0⟩
    Throughout (Pair.step w.next) (SameCache w.next) s evs ↔ Guarded (Pair.step w.next) (KeepsPace w.next) s evs := by
  intro w s
  refine throughout_iff_guarded (I := InStep w.next) (fun s h => h.cache) (fun s e h => h.step e) ?_
    (InStep.start hT hstart) evs
  intro s e h he
  have hpoll : ∃ p, e = .poll w.next p := by
    cases e with
    | poll j p =>
      by_cases hj : j = w.next
      · exact ⟨p, by rw [hj]⟩
      · exact absurd (fun q hq => by simp [Event.poll?, hj] at hq) he
    | startClient => exact absurd (fun q hq => by cases hq) he
    | stopClient => exact absurd (fun q hq => by cases hq) he
    | stopAll => exact absurd (fun q hq => by cases hq) he
  obtain ⟨p, rfl⟩ := hpoll
  rwa [h.poll_iff]

/-- A request of block `i` that fails. -/
def failedPoll (i : ℕ) : BlockPoll where
  block := i
  reply := fun _ => ⟨none, (by rintro p hp; cases hp), true⟩

/-- The history of a client that is stopped after four failed requests. -/
def fourFailures : List Event :=
  .startClient .canEz3 "ez3" 502 :: List.replicate 4 (.poll 0 (failedPoll 0)) ++ [.stopClient .canEz3]

/-- A request of block `i` that is answered. -/
def answeredPoll (i : ℕ) : BlockPoll where
  block := i
  reply := fun b => ⟨some (List.replicate (2 * b.length.toNat) 7), (by rintro p hp; cases hp; simp), true⟩

/-- A reply resets the counter that four failures of an earlier client have left, and a
second client that fails along is not yet at the limit: the client keeps pace. -/
theorem isolation_reset :
    let s : Pair := ⟨(modbusTcpPollStartClient (run World.step .init fourFailures) .canEz3 "ez3" 502).1,
      .fresh canEz3Registers fun _ => 0⟩
    Throughout (Pair.step 1) (SameCache 1) s [.poll 1 (answeredPoll 0), .startClient .canEz3 "second" 502,
      .poll 2 (failedPoll 0), .poll 1 (failedPoll 0), .poll 1 (failedPoll 0)] := by
  intro s
  refine (isolation_iff fourFailures .canEz3 canEz3Registers "ez3" 502 _ rfl rfl).mpr ⟨?_, ?_, ?_, ?_, ?_, trivial⟩
  · intro p hp c _ _ hnone
    cases hp
    cases hnone
  · intro p hp
    cases hp
  · intro p hp
    cases hp
  all_goals
    -- the shared counter is one ahead
    intro p hp c hc _ _
    cases hp
    cases hc
    exact .inl (by decide)

/-- **A counter outlives its client.** After a client that failed four times and was
stopped, one failure of the next client of the type stores zeros; the first client would
still have had no data. -/
theorem isolation_broken :
    ¬ ∀ (hist : List Event) (type : PollType) (T : RegisterTable) (host : String) (port : UInt16)
      (evs : List Event), type.registers? = some T →
      (modbusTcpPollStartClient (run World.step .init hist) type host port).2 = true →
      let w := run World.step .init hist
      let s : Pair := ⟨(modbusTcpPollStartClient w type host port).1, .fresh T fun _ => 0⟩
      Throughout (Pair.step w.next) (SameCache w.next) s evs := by
  intro h
  have hsame := (h fourFailures .canEz3 canEz3Registers "ez3" 502 [.poll 1 (failedPoll 0)] rfl rfl).last
  have hentry := congrFun (hsame _ rfl) 0
  exact absurd (congrArg PollData.data hentry) (by decide)

end ModbusProxy.Poll
