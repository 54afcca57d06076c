import ModbusProxy.Library.Outcomes
import ModbusProxy.Library.Runs
import ModbusProxy.Poll.Cache

/-!
# The polling thread: what becomes of a block's cache

`polling_thread` requests the blocks of its table one after the other. A reply is
stored; a failed request is counted and, from the fifth on, the block's cache is
overwritten with zeros. The counter is a `uint8_t` that is incremented without bound,
so after 256 failures in a row it is back at zero and the next four failures take the
branch that keeps the cached value. By then that value is zeros.

## The model

`pollBlock` is the body of the `for` loop, with the result of
`modbus_tcp_client_read_raw` as an input: the bytes that it copied, or nothing when it
returned `MODBUS_ERR`. A run is a list of polls, of any blocks in any order, which
covers the passes of the loop (`Iteration.events`) and whatever they leave out.

## What is proved

A poll acts on the counter and the entry of its own block as `blockStep` says
(`state_pollStep`) and leaves the others alone (`state_pollStep_of_ne`), so a run acts
on a block as the run of its own replies (`state_run`). `cache_retention`: the entry of
a block is the function `retained` of the outcomes of that block. The invariant behind
it (`blockRun_retained`) is that the counter is the number of failures since the last
success modulo 256.
-/

namespace ModbusProxy.Poll

open Memory Outcomes Runs

/-- `MAX_NUM_FAILED_REQ`. -/
def maxNumFailedReq : ℕ := 5

/-- What a request of a block came to. -/
structure Reply (b : Block) where
  /-- The bytes that `modbus_tcp_client_read_raw` copied, if it returned `MODBUS_OK`. -/
  payload : Option (List UInt8)
  /-- It copies two bytes for each register. -/
  sized : ∀ p ∈ payload, p.length = 2 * b.length.toNat
  /-- Whether the allocation of `modbus_tcp_save_poll_data` succeeds, where it is called. -/
  mallocOk : Bool

/-- The body of the `for` loop of `polling_thread` for block `i`. -/
def pollBlock (c : PollingClient) (i : ℕ) (payload : Option (List UInt8)) (mallocOk : Bool) : PollingClient :=
  let reg := c.table.block i
  let buf : List UInt8 := List.replicate (reg.length.toNat * 2 + 9) 0
  match payload with
  | some p =>
    modbusTcpSavePollData { c with numFailedRequests := Function.update c.numFailedRequests i 0 }
      reg.address (overwrite buf p) (byteLength reg) mallocOk
  | none =>
    let counted := { c with numFailedRequests := Function.update c.numFailedRequests i (c.numFailedRequests i + 1) }
    if (c.numFailedRequests i).toNat < maxNumFailedReq - 1 then counted
    else
      modbusTcpSavePollData counted reg.address (overwrite buf (List.replicate (reg.length.toNat * 2) 0))
        (byteLength reg) mallocOk

/-- One poll by a client of a table. -/
structure PollEvent (T : RegisterTable) where
  /-- The block. -/
  block : Fin T.size
  /-- What the request came to. -/
  reply : Reply (T.block block)

/-- The step of a polling client. -/
def pollStep {T : RegisterTable} (c : PollingClient) (e : PollEvent T) : PollingClient :=
  pollBlock c e.block e.reply.payload e.reply.mallocOk

/-- The zero bytes that stand for a block given up. -/
def zeroBytes (b : Block) : List UInt8 := List.replicate (2 * b.length.toNat) 0

@[simp] theorem length_zeroBytes (b : Block) : (zeroBytes b).length = 2 * b.length.toNat := by
  simp [zeroBytes]

/-! ### What one poll does -/

section Step

variable {T : RegisterTable} {c : PollingClient} {i : ℕ}

/-- The entry after `2 * length` bytes of a buffer that starts with `p` are stored. -/
theorem store_overwrite (hi : i < T.size) (e : PollData) {buf p : List UInt8}
    (hp : p.length = 2 * (T.block i).length.toNat) (ok : Bool) :
    e.store (overwrite buf p) (byteLength (T.block i)) ok = e.store p (byteLength (T.block i)) ok := by
  unfold PollData.store
  rw [toNat_byteLength hi, ← hp, take_overwrite, List.take_length]

/-- The counter of a block and its entry in the cache. -/
@[ext]
structure BlockState where
  /-- `num_failed_requests`. -/
  counter : UInt8
  /-- The entry of `poll_data`. -/
  entry : PollData
  deriving DecidableEq

/-- The part of a client that belongs to one block. -/
def PollingClient.state (c : PollingClient) (i : ℕ) : BlockState := ⟨c.numFailedRequests i, c.pollData i⟩

/-- A poll as its own block sees it. -/
def blockStep (b : Block) (s : BlockState) (r : Reply b) : BlockState :=
  match r.payload with
  | some p => ⟨0, s.entry.store p (byteLength b) r.mallocOk⟩
  | none =>
    if s.counter.toNat < maxNumFailedReq - 1 then ⟨s.counter + 1, s.entry⟩
    else ⟨s.counter + 1, s.entry.store (zeroBytes b) (byteLength b) r.mallocOk⟩

theorem blockStep_some {b : Block} {r : Reply b} {p : List UInt8} (h : r.payload = some p) (s : BlockState) :
    blockStep b s r = ⟨0, s.entry.store p (byteLength b) r.mallocOk⟩ := by
  simp only [blockStep, h]

theorem blockStep_keep {b : Block} {r : Reply b} (h : r.payload = none) {s : BlockState}
    (hlt : s.counter.toNat < maxNumFailedReq - 1) : blockStep b s r = ⟨s.counter + 1, s.entry⟩ := by
  simp only [blockStep, h, if_pos hlt]

theorem blockStep_zero {b : Block} {r : Reply b} (h : r.payload = none) {s : BlockState}
    (hge : ¬ s.counter.toNat < maxNumFailedReq - 1) :
    blockStep b s r = ⟨s.counter + 1, s.entry.store (zeroBytes b) (byteLength b) r.mallocOk⟩ := by
  simp only [blockStep, h, if_neg hge]

/-- The body of the loop sets the counter and the entry of its block. -/
theorem pollStep_eq (ht : c.table = T) (e : PollEvent T) :
    pollStep c e =
      { table := T
        numFailedRequests := Function.update c.numFailedRequests e.block
          (blockStep _ (c.state e.block) e.reply).counter
        pollData := Function.update c.pollData e.block (blockStep _ (c.state e.block) e.reply).entry } := by
  subst ht
  obtain ⟨⟨i, hi⟩, r⟩ := e
  unfold pollStep pollBlock
  cases hp : r.payload with
  | some p =>
    rw [blockStep_some hp]
    simp only
    rw [save_eq { c with numFailedRequests := Function.update c.numFailedRequests i 0 } hi,
      store_overwrite hi _ (r.sized p hp)]
    rfl
  | none =>
    by_cases hlt : (c.numFailedRequests i).toNat < maxNumFailedReq - 1
    · rw [blockStep_keep hp (s := c.state i) hlt]
      simp only
      rw [if_pos hlt]
      ext1
      · rfl
      · rfl
      · exact (Function.update_eq_self i c.pollData).symm
    · rw [blockStep_zero hp (s := c.state i) hlt]
      simp only
      rw [if_neg hlt,
        save_eq { c with numFailedRequests := Function.update c.numFailedRequests i (c.numFailedRequests i + 1) } hi,
        show List.replicate ((c.table.block i).length.toNat * 2) 0 = zeroBytes (c.table.block i) by
          rw [zeroBytes, Nat.mul_comm],
        store_overwrite hi _ (length_zeroBytes _)]
      rfl

theorem pollStep_table (ht : c.table = T) (e : PollEvent T) : (pollStep c e).table = T := by
  rw [pollStep_eq ht]

/-- A poll as its own block sees it. -/
theorem state_pollStep (ht : c.table = T) (e : PollEvent T) :
    (pollStep c e).state e.block = blockStep _ (c.state e.block) e.reply := by
  rw [pollStep_eq ht]
  simp [PollingClient.state]

/-- A poll of one block never changes the entry, nor the counter, of another. -/
theorem state_pollStep_of_ne (ht : c.table = T) (e : PollEvent T) {j : ℕ} (hj : j ≠ e.block) :
    (pollStep c e).state j = c.state j := by
  rw [pollStep_eq ht]
  simp [PollingClient.state, Function.update_of_ne hj]

/-- A poll keeps a client reachable. -/
theorem Reachable.poll (h : Reachable T c) (e : PollEvent T) : Reachable T (pollStep c e) := by
  obtain ⟨⟨i, hi⟩, ⟨payload, sized, ok⟩⟩ := e
  obtain rfl := h.wellFormed.table
  unfold pollStep pollBlock
  cases payload with
  | some p =>
    simp only
    refine (h.count _).save ok hi ?_
    have := sized p rfl
    rw [length_overwrite] <;> simp only [List.length_replicate] <;> simp only at this <;> omega
  | none =>
    simp only
    split
    · exact h.count _
    · refine (h.count _).save ok hi ?_
      rw [length_overwrite] <;> simp only [List.length_replicate] <;> omega

theorem Reachable.polls (h : Reachable T c) (evs : List (PollEvent T)) : Reachable T (run pollStep c evs) :=
  run_invariant (fun _ e h => h.poll e) h evs

end Step

/-! ### What a run does to one block -/

section Run

variable {T : RegisterTable}

/-- The replies of a run to the requests of block `i`. -/
def repliesOf (i : Fin T.size) (evs : List (PollEvent T)) : List (Reply (T.block i)) :=
  evs.filterMap fun e => if h : e.block = i then some (h ▸ e.reply) else none

theorem repliesOf_cons_self (e : PollEvent T) (evs : List (PollEvent T)) :
    repliesOf e.block (e :: evs) = e.reply :: repliesOf e.block evs := by
  simp [repliesOf]

theorem repliesOf_cons_of_ne {i : Fin T.size} {e : PollEvent T} (h : e.block ≠ i) (evs : List (PollEvent T)) :
    repliesOf i (e :: evs) = repliesOf i evs := by
  simp [repliesOf, h]

/-- A run acts on a block as the run of the replies to that block's own requests. -/
theorem state_run {c : PollingClient} (ht : c.table = T) (evs : List (PollEvent T)) (i : Fin T.size) :
    (run pollStep c evs).state i = run (blockStep (T.block i)) (c.state i) (repliesOf i evs) := by
  induction evs generalizing c with
  | nil => rfl
  | cons e es ih =>
    rw [run_cons, ih (pollStep_table ht e)]
    by_cases h : e.block = i
    · subst h
      rw [repliesOf_cons_self, run_cons, state_pollStep ht]
    · rw [repliesOf_cons_of_ne h, state_pollStep_of_ne ht e (fun h' => h (Fin.ext h'.symm))]

end Run

/-! ### The retention law -/

/-- The payloads of a sequence of replies, a failure where there is none. -/
def outcomes {b : Block} (rs : List (Reply b)) : List (Option (List UInt8)) := rs.map Reply.payload

@[simp] theorem outcomes_concat {b : Block} (rs : List (Reply b)) (r : Reply b) :
    outcomes (rs ++ [r]) = outcomes rs ++ [r.payload] := by
  simp [outcomes]

/-- The counter of a block is the number of failures since the last success, or since
the start and then on top of what it was, modulo 256. -/
theorem blockRun_counter {b : Block} (s : BlockState) (rs : List (Reply b)) :
    (run (blockStep b) s rs).counter.toNat =
      ((if lastSuccess (outcomes rs) = none then s.counter.toNat else 0) + failuresSince (outcomes rs)) % 256 := by
  induction rs using List.reverseRecOn with
  | nil =>
    have := s.counter.toNat_lt
    simp [outcomes]
  | append_singleton rs r ih =>
    rw [run_concat, outcomes_concat]
    cases hp : r.payload with
    | some p => simp [blockStep_some hp]
    | none =>
      have hstep : (blockStep b (run (blockStep b) s rs) r).counter = (run (blockStep b) s rs).counter + 1 := by
        by_cases hlt : (run (blockStep b) s rs).counter.toNat < maxNumFailedReq - 1
        · rw [blockStep_keep hp hlt]
        · rw [blockStep_zero hp hlt]
      rw [hstep, UInt8.toNat_add, ih, lastSuccess_concat_none, failuresSince_concat_none]
      simp [Nat.add_assoc]

/-- **The cache of a block after the outcomes `os` of its requests**: nothing before
the first success, the payload of the last success, and zeros as soon as
`MAX_NUM_FAILED_REQ` failures followed it or came before any. -/
def retained (b : Block) (os : List (Option (List UInt8))) : Option (List UInt8) :=
  if failuresSince os < maxNumFailedReq then lastSuccess os else some (zeroBytes b)

/-- A block's run from a zero counter leaves what the retention law says. -/
theorem blockRun_retained {T : RegisterTable} (i : Fin T.size) (rs : List (Reply (T.block i)))
    (halloc : ∀ r ∈ rs, r.mallocOk = true) :
    (run (blockStep (T.block i)) ⟨0, emptyPollData T i⟩ rs).entry.data = retained (T.block i) (outcomes rs) := by
  induction rs using List.reverseRecOn with
  | nil => rfl
  | append_singleton rs r ih =>
    have hdata := ih fun r hr => halloc r (List.mem_append_left _ hr)
    have hok : r.mallocOk = true := halloc r (by simp)
    have hcount := blockRun_counter ⟨0, emptyPollData T i⟩ rs
    rw [UInt8.toNat_zero, ite_self, Nat.zero_add] at hcount
    rw [run_concat, outcomes_concat]
    generalize run (blockStep (T.block i)) ⟨0, emptyPollData T i⟩ rs = s at hcount hdata ⊢
    cases hp : r.payload with
    | some p =>
      rw [blockStep_some hp, hok]
      simp [PollData.store, retained, maxNumFailedReq, toNat_byteLength i.2, ← r.sized p hp]
    | none =>
      have hmax : maxNumFailedReq = 5 := rfl
      simp only [retained, failuresSince_concat_none, lastSuccess_concat_none]
      by_cases hlt : s.counter.toNat < maxNumFailedReq - 1
      · -- the value is kept: either the limit is not reached, or the counter has wrapped
        -- round and the value is zeros already
        have hcase : failuresSince (outcomes rs) < 4 ∨ 5 ≤ failuresSince (outcomes rs) := by omega
        rw [blockStep_keep hp hlt, hdata, retained]
        rcases hcase with h | h
        · rw [if_pos (by omega), if_pos (by omega)]
        · rw [if_neg (by omega), if_neg (by omega)]
      · have := Nat.mod_le (failuresSince (outcomes rs)) 256
        rw [blockStep_zero hp hlt, hok, if_neg (by omega)]
        simp [PollData.store, toNat_byteLength i.2]

/-- **Retention.** For a client started with all counters zero, the entry of each block
after any sequence of polls is the one that `retained` gives for the outcomes of the
block's own requests; and no poll changes the entry of another block. -/
theorem cache_retention (T : RegisterTable) (evs : List (PollEvent T))
    (halloc : ∀ e ∈ evs, e.reply.mallocOk = true) :
    (∀ i : Fin T.size,
      ((run pollStep (.fresh T fun _ => 0) evs).pollData i).data =
        retained (T.block i) (outcomes (repliesOf i evs))) ∧
    ∀ pre e, pre ++ [e] <+: evs → ∀ j : Fin T.size, j ≠ e.block →
      (run pollStep (.fresh T fun _ => 0) (pre ++ [e])).pollData j =
        (run pollStep (.fresh T fun _ => 0) pre).pollData j := by
  constructor
  · intro i
    have hrs : ∀ r ∈ repliesOf i evs, r.mallocOk = true := by
      intro r hr
      simp only [repliesOf, List.mem_filterMap, Option.dite_none_right_eq_some, Option.some.injEq] at hr
      obtain ⟨e, he, rfl, rfl⟩ := hr
      exact halloc e he
    have h := blockRun_retained i (repliesOf i evs) hrs
    rw [← h]
    exact congrArg (fun s => s.entry.data) (state_run (c := .fresh T fun _ => 0) rfl evs i)
  · intro pre e _ j hj
    have htable : (run pollStep (.fresh T fun _ => 0) pre).table = T :=
      ((Reachable.start fun _ => 0).polls pre).wellFormed.table
    rw [run_concat]
    exact congrArg BlockState.entry (state_pollStep_of_ne htable e fun h => hj (Fin.ext h))

/-- Four failures after a reply keep it. -/
theorem cache_retention_ez3 :
    let polled : PollEvent canEz3Registers :=
      ⟨(0 : Fin 1), some [0, 1, 0, 2, 0, 3, 0, 4], (by rintro p hp; cases hp; decide), true⟩
    let failed : PollEvent canEz3Registers := ⟨(0 : Fin 1), none, (by rintro p hp; cases hp), true⟩
    ((run pollStep (.fresh canEz3Registers fun _ => 0) (polled :: List.replicate 4 failed)).pollData 0).data =
      some [0, 1, 0, 2, 0, 3, 0, 4] := by
  intro polled failed
  have h := (cache_retention canEz3Registers (polled :: List.replicate 4 failed) (by
    intro e he
    rcases List.mem_cons.mp he with rfl | he
    · rfl
    · rw [List.eq_of_mem_replicate he])).1 (0 : Fin 1)
  exact h

end ModbusProxy.Poll
