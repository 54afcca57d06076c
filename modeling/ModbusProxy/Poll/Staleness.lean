import ModbusProxy.Poll.Thread

/-!
# How long a cached value may outlive its device

`polling_thread` gives up a block after `MAX_NUM_FAILED_REQ` failed requests, but an
iteration of its outer loop that cannot connect does `continue` before any request is
made, and counts nothing. So a device that refuses connections keeps its last values
in the cache for ever, while one that accepts them and does not answer loses its values
after five iterations.

## The model

An `Iteration` of the outer loop either fails to connect or requests each block once.
`ReadsZero c i` says that no read of registers of block `i`, raw or typed, finds
anything but zeros.

## What is proved

`bounded_staleness_iff`: what is read of a block that had no fresh reply in the last
five iterations is zeros or nothing exactly if five iterations have *connected* since
its last stored reply (or that reply was zeros), and it is not the block at 37100 while
the block at 37000 has data (`Masked`). For `readsZero_iff` reduces the reads to the
entry of the block and to the entries that answer in its place (`Shadowed`), and of
these `shadowed_iff` shows that there is only that one.
-/

namespace ModbusProxy.Poll

open Memory Outcomes Runs ModbusProxy.System

variable {T : RegisterTable}

/-! ### Iterations of the outer loop -/

/-- One iteration of the outer loop of `polling_thread`. -/
inductive Iteration (T : RegisterTable) where
  /-- `modbus_tcp_client_connect` fails. -/
  | noConnection
  /-- The connection is made and every block is requested. -/
  | connected (replies : (i : Fin T.size) → Reply (T.block i))

/-- The loop body of `polling_thread`: `continue` if there is no connection, else the
`for` loop over the blocks. -/
def pollIteration (c : PollingClient) : Iteration T → PollingClient
  | .noConnection => c
  | .connected replies =>
    (List.finRange T.size).foldl
      (fun c (i : Fin T.size) => pollBlock c i (replies i).payload (replies i).mallocOk) c

/-- The polls that an iteration makes. -/
def Iteration.events : Iteration T → List (PollEvent T)
  | .noConnection => []
  | .connected replies => (List.finRange T.size).map fun i => ⟨i, replies i⟩

/-- The reply to the request of a block, if an iteration makes it. -/
def Iteration.reply? (i : Fin T.size) : Iteration T → Option (Reply (T.block i))
  | .noConnection => none
  | .connected replies => some (replies i)

/-- The replies of a run to the requests of a block. -/
def repliesIn (i : Fin T.size) (its : List (Iteration T)) : List (Reply (T.block i)) :=
  its.filterMap (Iteration.reply? i)

theorem pollIteration_eq (c : PollingClient) (it : Iteration T) : pollIteration c it = run pollStep c it.events := by
  cases it with
  | noConnection => rfl
  | connected replies => simp only [pollIteration, Iteration.events, run, List.foldl_map]; rfl

theorem run_pollIteration (c : PollingClient) (its : List (Iteration T)) :
    run pollIteration c its = run pollStep c (its.flatMap Iteration.events) := by
  induction its generalizing c with
  | nil => rfl
  | cons it its ih => rw [run_cons, ih, List.flatMap_cons, run_append, pollIteration_eq]

theorem repliesOf_append (i : Fin T.size) (as bs : List (PollEvent T)) :
    repliesOf i (as ++ bs) = repliesOf i as ++ repliesOf i bs := List.filterMap_append

theorem repliesOf_map (i : Fin T.size) (replies : (j : Fin T.size) → Reply (T.block j)) {is : List (Fin T.size)}
    (hnodup : is.Nodup) :
    repliesOf i (is.map fun j => ⟨j, replies j⟩) = if i ∈ is then [replies i] else [] := by
  induction is with
  | nil => rfl
  | cons j js ih =>
    obtain ⟨hj, hjs⟩ := List.nodup_cons.mp hnodup
    rw [List.map_cons]
    by_cases h : j = i
    · subst h
      rw [repliesOf_cons_self (e := ⟨j, replies j⟩), ih hjs, if_neg hj, if_pos (List.mem_cons_self ..)]
    · rw [repliesOf_cons_of_ne (e := ⟨j, replies j⟩) h, ih hjs]
      simp [Ne.symm h]

/-- Each iteration that connects requests each block once. -/
theorem repliesOf_flatMap (i : Fin T.size) (its : List (Iteration T)) :
    repliesOf i (its.flatMap Iteration.events) = repliesIn i its := by
  induction its with
  | nil => rfl
  | cons it its ih =>
    rw [List.flatMap_cons, repliesOf_append, ih]
    cases it with
    | noConnection => rfl
    | connected replies =>
      rw [Iteration.events, repliesOf_map i replies (List.nodup_finRange _), if_pos (List.mem_finRange i)]
      rfl

/-! ### What a run leaves in the entry of a block -/

/-- What the successful replies hand to `modbus_tcp_save_poll_data`, with whether the
allocation succeeds there. -/
def stores {b : Block} (rs : List (Reply b)) : List (Option (List UInt8 × Bool)) :=
  rs.map fun r => r.payload.map fun p => (p, r.mallocOk)

theorem stores_concat {b : Block} (rs : List (Reply b)) (r : Reply b) :
    stores (rs ++ [r]) = stores rs ++ [r.payload.map fun p => (p, r.mallocOk)] := by
  simp [stores]

theorem outcomes_eq_stores {b : Block} (rs : List (Reply b)) : outcomes rs = (stores rs).map (Option.map Prod.fst) := by
  simp only [outcomes, stores, List.map_map]
  apply List.map_congr_left
  intro r _
  cases hp : r.payload <;> simp [hp]

/-- The entry holds no value but zeros. -/
def PollData.Blank (b : Block) (e : PollData) : Prop := ∀ d, e.data = some d → d = zeroBytes b

theorem PollData.Blank.eq_zero {b : Block} {e : PollData} (h : e.Blank b) {d : List UInt8} (hd : e.data = some d)
    {x : UInt8} (hx : x ∈ d) : x = 0 := by
  rw [h d hd] at hx
  exact List.eq_of_mem_replicate hx

/-- What is in the entry of a block, given what was stored: the last value while fewer
than five failures followed it, and nothing but zeros after that or before any. -/
def Left (b : Block) (ss : List (Option (List UInt8 × Bool))) (e : PollData) : Prop :=
  match lastSuccess ss with
  | none => e.Blank b
  | some (p, ok) =>
    if failuresSince ss < maxNumFailedReq then e.data = if ok then some p else none else e.Blank b

theorem PollData.Blank.store {i : ℕ} (hi : i < T.size) (e : PollData) (ok : Bool) :
    (e.store (zeroBytes (T.block i)) (byteLength (T.block i)) ok).Blank (T.block i) := by
  intro d hd
  cases ok with
  | false => simp [PollData.store] at hd
  | true =>
    simp only [PollData.store, if_true, Option.some.injEq, toNat_byteLength hi] at hd
    rw [← hd, ← length_zeroBytes (T.block i), List.take_length]

/-- Whatever the counter was at the start. -/
theorem blockRun_left (i : Fin T.size) (counter : UInt8) (rs : List (Reply (T.block i))) :
    Left (T.block i) (stores rs) (run (blockStep (T.block i)) ⟨counter, emptyPollData T i⟩ rs).entry := by
  induction rs using List.reverseRecOn with
  | nil => exact fun d hd => by simp [emptyPollData] at hd
  | append_singleton rs r ih =>
    have hcount := blockRun_counter ⟨counter, emptyPollData T i⟩ rs
    rw [outcomes_eq_stores, lastSuccess_map, failuresSince_map] at hcount
    rw [run_concat, stores_concat]
    generalize run (blockStep (T.block i)) ⟨counter, emptyPollData T i⟩ rs = s at hcount ih ⊢
    cases hp : r.payload with
    | some p =>
      rw [blockStep_some hp]
      simp only [Left, Option.map_some, lastSuccess_concat_some, failuresSince_concat_some]
      rw [if_pos (by decide)]
      cases hok : r.mallocOk <;> simp [PollData.store, toNat_byteLength i.2, ← r.sized p hp]
    | none =>
      simp only [Left, Option.map_none, lastSuccess_concat_none, failuresSince_concat_none] at ih ⊢
      by_cases hlt : s.counter.toNat < maxNumFailedReq - 1
      · rw [blockStep_keep hp hlt]
        cases hlast : lastSuccess (stores rs) with
        | none =>
          simp only [hlast] at ih ⊢
          exact ih
        | some v =>
          obtain ⟨p, ok⟩ := v
          have hmax : maxNumFailedReq = 5 := rfl
          simp only [hlast, Option.map_some, reduceCtorEq, if_false, Nat.zero_add] at ih hcount ⊢
          have hcase : failuresSince (stores rs) < 4 ∨ 5 ≤ failuresSince (stores rs) := by omega
          rcases hcase with h | h
          · rw [if_pos (by omega)] at ih ⊢
            exact ih
          · rw [if_neg (by omega)] at ih ⊢
            exact ih
      · rw [blockStep_zero hp hlt]
        have hblank := PollData.Blank.store i.2 s.entry r.mallocOk
        cases hlast : lastSuccess (stores rs) with
        | none =>
          simp only [hlast] at ih ⊢
          exact hblank
        | some v =>
          obtain ⟨p, ok⟩ := v
          have := Nat.mod_le (failuresSince (stores rs)) 256
          simp only [hlast, Option.map_some, reduceCtorEq, if_false, Nat.zero_add] at hcount ⊢
          rw [if_neg (by omega)]
          exact hblank

/-- The allocations that the requests of a block make, in order: one for each reply, and
one for the zeros of each failure that the counter finds at its limit. -/
def allocations {b : Block} (counter : UInt8) : List (Reply b) → List Bool
  | [] => []
  | r :: rs =>
    match r.payload with
    | some _ => r.mallocOk :: allocations 0 rs
    | none =>
      if counter.toNat < maxNumFailedReq - 1 then allocations (counter + 1) rs
      else r.mallocOk :: allocations (counter + 1) rs

/-- The last allocation that the requests of a block made succeeded. -/
def HasData {b : Block} (counter : UInt8) (rs : List (Reply b)) : Prop := (allocations counter rs).getLast? = some true

theorem isSome_store (e : PollData) (data : List UInt8) (length : UInt16) (ok : Bool) :
    (e.store data length ok).data.isSome = ok := by
  cases ok <;> rfl

/-- An entry has data if the last allocation for it succeeded, or as at first. -/
theorem blockRun_isSome {b : Block} (s : BlockState) (rs : List (Reply b)) :
    (run (blockStep b) s rs).entry.data.isSome = (allocations s.counter rs).getLast?.getD s.entry.data.isSome := by
  induction rs generalizing s with
  | nil => rfl
  | cons r rs ih =>
    rw [run_cons, ih]
    cases hp : r.payload with
    | some p => simp only [blockStep_some hp, allocations, hp, isSome_store, List.getLast?_cons, Option.getD_some]
    | none =>
      by_cases hlt : s.counter.toNat < maxNumFailedReq - 1
      · simp only [blockStep_keep hp hlt, allocations, hp, if_pos hlt]
      · simp only [blockStep_zero hp hlt, allocations, hp, if_neg hlt, isSome_store, List.getLast?_cons,
          Option.getD_some]

/-- A run of the polling thread acts on a block as the run of its own replies. -/
theorem iterations_state (counters : ℕ → UInt8) (i : Fin T.size) (its : List (Iteration T)) :
    (run pollIteration (.fresh T counters) its).state i =
      run (blockStep (T.block i)) ⟨counters i, emptyPollData T i⟩ (repliesIn i its) := by
  rw [run_pollIteration, ← repliesOf_flatMap]
  exact state_run (T := T) (c := .fresh T counters) rfl (its.flatMap Iteration.events) i

/-- The entry of a block after a run of the polling thread. -/
theorem iterations_left (counters : ℕ → UInt8) (i : Fin T.size) (its : List (Iteration T)) :
    Left (T.block i) (stores (repliesIn i its))
      ((run pollIteration (.fresh T counters) its).pollData i) := by
  have hentry := congrArg BlockState.entry (iterations_state counters i its)
  simp only [PollingClient.state] at hentry
  rw [hentry]
  exact blockRun_left i (counters i) _

theorem iterations_hasData (counters : ℕ → UInt8) (i : Fin T.size) (its : List (Iteration T)) :
    ((run pollIteration (.fresh T counters) its).pollData i).data ≠ none ↔ HasData (counters i) (repliesIn i its) := by
  have hentry := congrArg BlockState.entry (iterations_state counters i its)
  simp only [PollingClient.state] at hentry
  rw [hentry, Option.ne_none_iff_isSome, blockRun_isSome, HasData]
  cases (allocations (counters i) (repliesIn i its)).getLast? <;> simp [emptyPollData]

theorem Reachable.iterations {c : PollingClient} (h : Reachable T c) (its : List (Iteration T)) :
    Reachable T (run pollIteration c its) := by
  rw [run_pollIteration]
  exact h.polls _

/-! ### What is read of a block -/

/-- No read of registers of block `i` finds anything but zeros, whatever the heap holds
behind the buffers: the typed reads deliver zeros, the raw reads zeros or no data. -/
def ReadsZero (c : PollingClient) (i : ℕ) : Prop :=
  ∀ (heap : ℕ → UInt8) (a q : UInt16), 0 < q.toNat → (c.table.block i).Holds a q →
    (∀ bigEndian out, (modbusTcpGetPollData heap c a q bigEndian out).take (2 * q.toNat) =
      List.replicate (2 * q.toNat) 0) ∧
    ∀ m, modbusTcpGetPollDataRaw c a q = some m → m.bytes heap = List.replicate (2 * q.toNat) 0

/-- Some raw read of registers of block `i` is answered from the entry of another block:
the search stops there because it takes the stored number of bytes for a number of
registers. -/
def Shadowed (c : PollingClient) (i : ℕ) : Prop :=
  ∃ a q : UInt16, 0 < q.toNat ∧ (c.table.block i).Holds a q ∧
    ∃ j ≠ i, rawSearch c a q = some j ∧ (c.pollData j).data ≠ none

/-- A block that holds a range, and another that begins no later than the range: the
range lies behind the other. -/
theorem behind_of_holds {i j : ℕ} (hi : i < T.size) (hj : j < T.size) (hij : i ≠ j) {a q : UInt16}
    (hq : 0 < q.toNat) (hholds : (T.block i).Holds a q) (hle : (T.block j).address.toNat ≤ a.toNat) :
    (T.block j).address.toNat + (T.block j).length.toNat ≤ a.toNat := by
  obtain ⟨h1, h2⟩ := hholds
  rw [UInt16.le_iff_toNat_le] at h1
  rcases RegisterTable.block_apart hi hj hij with h | h <;> omega

theorem take_overwrite_eq {out data : List UInt8} {n : ℕ} (h : data.length = n) : (overwrite out data).take n = data := by
  rw [← h, take_overwrite]

/-- The typed reads of a block with a value find zeros only if the value is zeros. -/
theorem blank_of_readsZero {c : PollingClient} (hc : WellFormed T c) (i : Fin T.size) (h : ReadsZero c i) :
    (c.pollData i).Blank (T.block i) := by
  intro d hd
  have hL := RegisterTable.length_le i.2
  have hpos := RegisterTable.length_pos i.2
  have hlen := ((hc.entry i i.2).data d hd).1
  have hholds : (T.block i).Holds (T.block i).address (T.block i).length := ⟨UInt16.le_refl _, Nat.le_refl _⟩
  have hread := (h (fun _ => 0) _ _ hpos (by rw [hc.table]; exact hholds)).1 true []
  rw [typed_of_holds hc.table hpos i.2 hholds] at hread
  simp only [hd] at hread
  rw [take_overwrite_eq (length_typedBytes _ _ _ (by omega) _)] at hread
  apply List.eq_replicate_iff.mpr
  refine ⟨hlen, fun x hx => ?_⟩
  obtain ⟨k, hk, rfl⟩ := List.getElem_of_mem hx
  have hmem := peek_mem_typedBytes (fun _ => 0) d (2 * ((T.block i).address.toNat - (T.block i).address.toNat))
    (q := (T.block i).length) (by omega) (k := k) (by omega)
  rw [hread, Nat.sub_self, Nat.mul_zero, Nat.zero_add, peek_of_lt _ hk] at hmem
  exact List.eq_of_mem_replicate hmem

/-- A read that another block's entry answers reads behind that entry, whatever is there. -/
theorem not_shadowed_of_readsZero {c : PollingClient} (hc : WellFormed T c) (i : Fin T.size) (h : ReadsZero c i) :
    ¬ Shadowed c i := by
  rintro ⟨a, q, hq, hholds, j, hji, hs, hne⟩
  obtain ⟨buf, hd⟩ := Option.ne_none_iff_exists'.mp hne
  obtain ⟨hj, hle, -⟩ := rawSearch_bounds hc hs hd
  have hraw := (raw_eq_some_iff hc).mpr ⟨j, buf, hs, hd, rfl⟩
  have hone := (h (fun _ => 1) a q hq hholds).2 _ hraw
  have hlen := ((hc.entry j hj).data buf hd).1
  rw [hc.table] at hholds
  have hbehind := behind_of_holds i.2 hj (Ne.symm hji) hq hholds hle
  rw [Copy.bytes_of_length_le _ (by simp only; omega)] at hone
  have hhead := congrArg (fun l => l[0]?) hone
  simp [hq] at hhead

/-- A range of the block is in its entry. -/
theorem range_le_length {c : PollingClient} (hc : WellFormed T c) (i : Fin T.size) {a q : UInt16}
    (hholds : (T.block i).Holds a q) {d : List UInt8} (hd : (c.pollData i).data = some d) :
    2 * (a.toNat - (T.block i).address.toNat) + 2 * q.toNat ≤ d.length := by
  have hlength := ((hc.entry i i.2).data d hd).1
  obtain ⟨h1, h2⟩ := hholds
  rw [UInt16.le_iff_toNat_le] at h1
  omega

theorem typed_zero_of_blank {c : PollingClient} (hc : WellFormed T c) (i : Fin T.size)
    (hblank : (c.pollData i).Blank (T.block i)) {a q : UInt16} (hq : 0 < q.toNat) (hholds : (T.block i).Holds a q)
    (heap : ℕ → UInt8) (bigEndian : Bool) (out : List UInt8) :
    (modbusTcpGetPollData heap c a q bigEndian out).take (2 * q.toNat) = List.replicate (2 * q.toNat) 0 := by
  have hL := RegisterTable.length_le i.2
  rw [typed_of_holds hc.table hq i.2 hholds]
  cases hd : (c.pollData i).data with
  | none => exact take_overwrite_eq (by simp [Nat.mul_comm]) |>.trans (by rw [Nat.mul_comm])
  | some d =>
    have hin := range_le_length hc i hholds hd
    have hq' : q.toNat ≤ 127 := by
      have := hholds.2
      have := UInt16.le_iff_toNat_le.mp hholds.1
      omega
    simp only
    rw [take_overwrite_eq (length_typedBytes _ _ _ hq' _)]
    apply List.eq_replicate_iff.mpr
    refine ⟨length_typedBytes _ _ _ hq' _, fun x hx => ?_⟩
    obtain ⟨k, hk, rfl⟩ := mem_typedBytes hq' hx
    rw [peek_of_lt _ (by omega)]
    exact hblank.eq_zero hd (List.getElem_mem _)

theorem raw_zero_of_blank {c : PollingClient} (hc : WellFormed T c) (i : Fin T.size)
    (hblank : (c.pollData i).Blank (T.block i)) (hshadow : ¬ Shadowed c i) {a q : UInt16} (hq : 0 < q.toNat)
    (hholds : (T.block i).Holds a q) (heap : ℕ → UInt8) {m : Copy} (hm : modbusTcpGetPollDataRaw c a q = some m) :
    m.bytes heap = List.replicate (2 * q.toNat) 0 := by
  obtain ⟨j, d, hs, hd, rfl⟩ := (raw_eq_some_iff hc).mp hm
  have hji : j = i := by
    by_contra hne
    exact hshadow ⟨a, q, hq, hc.table ▸ hholds, j, hne, hs, by rw [hd]; exact Option.some_ne_none d⟩
  subst hji
  have hin := range_le_length hc i hholds hd
  rw [Copy.bytes_of_inBounds _ (.inr hin)]
  apply List.eq_replicate_iff.mpr
  constructor
  · simp only [List.length_take, List.length_drop]
    omega
  · intro x hx
    exact hblank.eq_zero hd (List.mem_of_mem_drop (List.mem_of_mem_take hx))

/-- **When a block reads as zeros.** Its entry holds no value but zeros, and no raw read
of it goes to another block. -/
theorem readsZero_iff {c : PollingClient} (hc : WellFormed T c) (i : Fin T.size) :
    ReadsZero c i ↔ (c.pollData i).Blank (T.block i) ∧ ¬ Shadowed c i := by
  constructor
  · exact fun h => ⟨blank_of_readsZero hc i h, not_shadowed_of_readsZero hc i h⟩
  · rintro ⟨hblank, hshadow⟩ heap a q hq hholds
    rw [hc.table] at hholds
    exact ⟨typed_zero_of_blank hc i hblank hq hholds heap, fun m hm => raw_zero_of_blank hc i hblank hshadow hq hholds heap hm⟩

/-- In the tables of the program one doubled block reaches into another: that of the
Huawei block at 37000, which is 62 registers long and so is taken to reach to 37124, into
the meter block at 37100, which stands behind it. -/
theorem registers_overlap {type : PollType} (hT : type.registers? = some T) : ∀ i < T.size, ∀ j < T.size,
    ((T.block j).address.toNat < (T.block i).address.toNat ∧
        (T.block i).address.toNat < (T.block j).address.toNat + 2 * (T.block j).length.toNat ↔
      (T.block i).address = 37100 ∧ (T.block j).address = 37000) ∧
    ((T.block i).address = 37100 → (T.block j).address = 37000 → j < i) := by
  cases type with
  | huawei => cases hT; decide
  | nrgkick => cases hT; decide
  | canEz3 => cases hT; decide
  | other value => cases hT

section Tables

variable {type : PollType} (hT : type.registers? = some T) {c : PollingClient} (hc : WellFormed T c)
  (i : Fin T.size)

include hT hc

/-- A raw read of the first register of the block at 37100 stops at the block at 37000. -/
theorem rawSearch_meter {j : ℕ} (hj : j < T.size) (hi : (T.block i).address = 37100)
    (haddr : (T.block j).address = 37000) (hdata : (c.pollData j).data ≠ none) :
    rawSearch c (T.block i).address 1 = some j := by
  obtain ⟨buf, hd⟩ := Option.ne_none_iff_exists'.mp hdata
  have hji := (registers_overlap hT i i.2 j hj).2 hi haddr
  have hlen := ((hc.entry j hj).data buf hd).2
  have hL := RegisterTable.length_le hj
  have hover := ((registers_overlap hT i i.2 j hj).1.mpr ⟨hi, haddr⟩).2
  have hone : (1 : UInt16).toNat = 1 := rfl
  have h37000 : (37000 : UInt16).toNat = 37000 := rfl
  have h37100 : (37100 : UInt16).toNat = 37100 := rfl
  rw [rawSearch_eq_some_iff, PollingClient.numRegisters, hc.table, covers_iff, (hc.entry j hj).address,
    UInt16.le_iff_toNat_le, UInt16.toNat_add, hlen]
  rw [hi, haddr] at hover ⊢
  refine ⟨hj, ⟨by decide, by omega⟩, fun k hk => ?_⟩
  -- an earlier entry that reached there would be the block at 37000 itself
  by_contra hcov
  rw [Bool.not_eq_false, covers_iff, (hc.entry k (by omega)).address, UInt16.le_iff_toNat_le, UInt16.toNat_add] at hcov
  obtain ⟨h1, h2⟩ := hcov
  have hL' := RegisterTable.length_le (T := T) (i := k) (by omega)
  have hne : (T.block k).address.toNat ≠ (T.block i).address.toNat := fun heq =>
    absurd (RegisterTable.address_inj (by omega) i.2 (UInt16.toNat_inj.mp heq)) (by omega)
  have hreach : (T.block k).address.toNat < (T.block i).address.toNat ∧
      (T.block i).address.toNat < (T.block k).address.toNat + 2 * (T.block k).length.toNat := by
    rw [hi] at hne ⊢
    rcases (hc.entry k (by omega)).length with hzero | htwo
    · rw [hzero, UInt16.toNat_zero] at h2
      omega
    · omega
  obtain ⟨-, hk'⟩ := (registers_overlap hT i i.2 k (by omega)).1.mp hreach
  exact absurd (RegisterTable.address_inj (by omega) hj (hk'.trans haddr.symm)) (by omega)

/-- **Which blocks are shadowed**: the Huawei block at 37100, and that exactly while the
block at 37000 has data. -/
theorem shadowed_iff :
    Shadowed c i ↔ (T.block i).address = 37100 ∧
      ∃ j : Fin T.size, (T.block j).address = 37000 ∧ (c.pollData j).data ≠ none := by
  constructor
  · rintro ⟨a, q, hq, hholds, j, hji, hs, hne⟩
    obtain ⟨buf, hd⟩ := Option.ne_none_iff_exists'.mp hne
    obtain ⟨hj, hle, hend⟩ := rawSearch_bounds hc hs hd
    rw [hc.table] at hholds
    have hbehind := behind_of_holds i.2 hj (Ne.symm hji) hq hholds hle
    have hpos := RegisterTable.length_pos hj
    obtain ⟨h1, h2⟩ := hholds
    rw [UInt16.le_iff_toNat_le] at h1
    have hreach : (T.block j).address.toNat < (T.block i).address.toNat ∧
        (T.block i).address.toNat < (T.block j).address.toNat + 2 * (T.block j).length.toNat := by
      rcases RegisterTable.block_apart i.2 hj (Ne.symm hji) with h | h <;> omega
    obtain ⟨hi, haddr⟩ := (registers_overlap hT i i.2 j hj).1.mp hreach
    exact ⟨hi, ⟨j, hj⟩, haddr, hne⟩
  · rintro ⟨hi, j, haddr, hne⟩
    have hji := (registers_overlap hT i i.2 j j.2).2 hi haddr
    have hholds : (T.block i).Holds (T.block i).address 1 := by
      have hpos := RegisterTable.length_pos i.2
      have hone : (1 : UInt16).toNat = 1 := rfl
      exact ⟨UInt16.le_refl _, by omega⟩
    refine ⟨(T.block i).address, 1, by decide, hc.table ▸ hholds, j, Nat.ne_of_lt hji, ?_, hne⟩
    exact rawSearch_meter hT hc i j.2 hi haddr hne

end Tables

/-! ### Bounded staleness -/

/-- None of the last `MAX_NUM_FAILED_REQ` iterations obtained a reply for the block. -/
def NoFreshReply (i : Fin T.size) (its : List (Iteration T)) : Prop :=
  ∀ it ∈ its.drop (its.length - maxNumFailedReq), ∀ r, it.reply? i = some r → r.payload = none

/-- At least `MAX_NUM_FAILED_REQ` iterations have connected, and failed to obtain the
block, since its last reply was stored; or nothing was stored, or zeros. -/
def AgedOut (i : Fin T.size) (its : List (Iteration T)) : Prop :=
  ∀ p, lastSuccess (stores (repliesIn i its)) = some (p, true) →
    p = zeroBytes (T.block i) ∨ maxNumFailedReq ≤ failuresSince (stores (repliesIn i its))

theorem Left.blank_iff {b : Block} {ss : List (Option (List UInt8 × Bool))} {e : PollData} (h : Left b ss e) :
    e.Blank b ↔ ∀ p, lastSuccess ss = some (p, true) → p = zeroBytes b ∨ maxNumFailedReq ≤ failuresSince ss := by
  unfold Left at h
  cases hlast : lastSuccess ss with
  | none =>
    simp only [hlast] at h
    exact ⟨fun _ p hp => (by cases hp), fun _ => h⟩
  | some v =>
    obtain ⟨p, ok⟩ := v
    simp only [hlast] at h
    by_cases hlt : failuresSince ss < maxNumFailedReq
    · rw [if_pos hlt] at h
      cases ok with
      | false =>
        refine ⟨fun _ p' hp' => by simp at hp', fun _ d hd => ?_⟩
        rw [h] at hd
        cases hd
      | true =>
        constructor
        · intro hblank p' hp'
          obtain ⟨rfl, -⟩ := Prod.mk.inj (Option.some.inj hp')
          exact .inl (hblank p h)
        · intro haged d hd
          rw [h] at hd
          cases hd
          exact (haged p rfl).resolve_right (by omega)
    · rw [if_neg hlt] at h
      exact ⟨fun _ _ _ => .inr (by omega), fun _ => h⟩

/-- The block is the Huawei one at 37100, and the requests of the block at 37000 have left
that with data, be it zeros: the raw reads of the first are then answered from the second. -/
def Masked (counters : ℕ → UInt8) (i : Fin T.size) (its : List (Iteration T)) : Prop :=
  (T.block i).address = 37100 ∧
    ∃ j : Fin T.size, (T.block j).address = 37000 ∧ HasData (counters j) (repliesIn j its)

/-- **Bounded staleness, exactly.** For each of the three kinds of client, after any
iterations of the outer loop: a block without a fresh reply in the last five reads as
zeros if and only if five iterations have connected since its last stored reply and its
raw reads are not answered from the block at 37000. -/
theorem bounded_staleness_iff (type : PollType) (T : RegisterTable) (hT : type.registers? = some T)
    (counters : ℕ → UInt8) (its : List (Iteration T)) (i : Fin T.size) :
    (NoFreshReply i its → ReadsZero (run pollIteration (.fresh T counters) its) i) ↔
      (NoFreshReply i its → AgedOut i its ∧ ¬ Masked counters i its) := by
  have hc := ((Reachable.start counters).iterations its).wellFormed
  have haged := (iterations_left counters i its).blank_iff
  have hmasked : Shadowed (run pollIteration (.fresh T counters) its) i ↔ Masked counters i its := by
    rw [shadowed_iff hT hc i]
    simp only [iterations_hasData, Masked]
  rw [readsZero_iff hc i, haged, hmasked]
  rfl

/-- A reply with the four registers of the smart load. -/
def ez3Reply : Reply (canEz3Registers.block 0) where
  payload := some [0, 1, 0, 2, 0, 3, 0, 4]
  sized := by
    rintro p hp
    cases hp
    decide
  mallocOk := true

/-- An iteration that obtains those registers. -/
def ez3Polled : Iteration canEz3Registers := .connected fun i => match i with | ⟨0, _⟩ => ez3Reply

/-- An iteration that connects and obtains nothing. -/
def ez3Silent : Iteration canEz3Registers :=
  .connected fun _ => ⟨none, (by rintro p hp; cases hp), true⟩

/-- Refused connections between them do not count: after a reply and four requests without
one the reply is still read, and the fifth ends that. -/
theorem bounded_staleness_mixed :
    let its : List (Iteration canEz3Registers) :=
      [ez3Polled, ez3Silent, .noConnection, ez3Silent, ez3Silent, .noConnection, ez3Silent]
    ¬ ReadsZero (run pollIteration (.fresh canEz3Registers fun _ => 0) its) 0 ∧
      ReadsZero (run pollIteration (.fresh canEz3Registers fun _ => 0) (its ++ [ez3Silent])) 0 := by
  intro its
  let i : Fin canEz3Registers.size := ⟨0, by decide⟩
  have hexact := bounded_staleness_iff .canEz3 canEz3Registers rfl (fun _ => 0)
  have hsilent : ∀ it ∈ [ez3Silent, .noConnection], ∀ r, it.reply? i = some r → r.payload = none := by
    intro it hit r hr
    simp only [List.mem_cons, List.not_mem_nil, or_false] at hit
    rcases hit with rfl | rfl
    · cases hr
      rfl
    · cases hr
  have hnone : ∀ its' : List (Iteration canEz3Registers),
      (∀ it ∈ its'.drop (its'.length - 5), it ∈ [ez3Silent, .noConnection]) → NoFreshReply i its' :=
    fun its' h it hit => hsilent it (h it hit)
  constructor
  · intro hzero
    have haged := ((hexact its i).mp (fun _ => hzero) (hnone its (by simp [its]))).1
    have hfour := haged [0, 1, 0, 2, 0, 3, 0, 4] (by rfl)
    revert hfour
    decide
  · refine (hexact (its ++ [ez3Silent]) i).mpr (fun _ => ⟨fun p _ => .inr (by decide), ?_⟩) (hnone _ (by simp [its]))
    rintro ⟨haddr, -⟩
    revert haddr
    decide

/-- One reply, and then a device that refuses five connections: the reply is still read. -/
theorem stale_without_connection :
    ¬ ∀ (type : PollType) (T : RegisterTable), type.registers? = some T →
      ∀ (counters : ℕ → UInt8) (its : List (Iteration T)) (i : Fin T.size),
        NoFreshReply i its → ReadsZero (run pollIteration (.fresh T counters) its) i := by
  intro h
  let its : List (Iteration canEz3Registers) := ez3Polled :: List.replicate 5 .noConnection
  have hnone : NoFreshReply (T := canEz3Registers) ⟨0, by decide⟩ its := by
    intro it hit r hr
    have hit' : it = .noConnection := List.eq_of_mem_replicate (n := 5) hit
    rw [hit'] at hr
    cases hr
  have hread := h .canEz3 canEz3Registers rfl (fun _ => 0) its _ hnone
  have hc := ((Reachable.start (T := canEz3Registers) fun _ => 0).iterations its).wellFormed
  have hblank := blank_of_readsZero hc _ hread
  have hdata := hblank [0, 1, 0, 2, 0, 3, 0, 4] (by rfl)
  revert hdata
  decide

end ModbusProxy.Poll
