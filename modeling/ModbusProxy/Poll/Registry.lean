import Mathlib.Data.Finset.Card
import Mathlib.Data.Finset.Image
import ModbusProxy.Poll.Thread

/-!
# The registry of polling clients

`modbus_tcp_poll.c` keeps the running clients in an array of `MAX_CLIENTS` pointers and
a counter `num_clients` that is the bound of every loop over the array, the index at
which the next client is inserted and what the capacity is checked against.
`modbus_tcp_poll_stop_client` clears the slot of the client that it stops and decrements
the counter, whichever slot it was. If it was not the last one, the last client falls
out of the loops, and the next start overwrites its slot.

## The model

The `World` has the array, the counter, the heap of allocated clients and the register
tables, whose counters of failed requests all clients of a type share. A client is
running while it is allocated: `modbus_tcp_poll_start` allocates it and creates its
thread, `modbus_tcp_poll_stop` joins the thread and frees it. Allocation and thread
creation are taken to succeed. Between the calls any running client may poll any of its
blocks (`Event.poll`).

## What is proved

`registry_iff`: the registry is right (`RegistryOk`) throughout a run exactly if every
`modbus_tcp_poll_stop_client` of the run stops the client in the last slot or none
(`StopsLast`). The invariant is `Packed`: the slots below the counter hold the running
clients, each once, and the slots above are empty. `findClient_reachable`: in every run,
whatever its stops, the client that a lookup finds has a reachable cache.
-/

namespace ModbusProxy.Poll

open Runs

/-- `MAX_CLIENTS`. -/
def maxClients : ℕ := 3

/-- The fields of a `polling_client_t` that its thread and the lookups use. -/
structure Client where
  /-- `type`. -/
  type : PollType
  /-- `host`. -/
  host : String
  /-- `port`. -/
  port : UInt16
  /-- `connection_delay_s`. -/
  connectionDelayS : UInt8
  /-- The table that `registers` points to. -/
  table : RegisterTable
  /-- `poll_data`. -/
  pollData : ℕ → PollData

/-- The static state of `modbus_tcp_poll.c` and the clients on the heap. -/
structure World where
  /-- The `num_failed_requests` column of the table of each type. -/
  numFailedRequests : PollType → ℕ → UInt8
  /-- The allocated clients, by address. -/
  heap : ℕ → Option Client
  /-- The address of the next allocation. -/
  next : ℕ
  /-- `polling_clients`. -/
  pollingClients : ℕ → Option ℕ
  /-- `num_clients`. -/
  numClients : ℕ

/-- The world when the program starts. -/
def World.init : World where
  numFailedRequests := fun _ _ => 0
  heap := fun _ => none
  next := 0
  pollingClients := fun _ => none
  numClients := 0

/-- What a client works on: its cache, and the table that it shares with the other
clients of its type. -/
def World.view (w : World) (c : Client) : PollingClient :=
  { table := c.table, numFailedRequests := w.numFailedRequests c.type, pollData := c.pollData }

/-! ### Starting and stopping -/

/-- `modbus_tcp_poll_start`, with its result. -/
def modbusTcpPollStart (w : World) (type : PollType) (host : String) (port : UInt16) (connectionDelayS : UInt8)
    (registers : RegisterTable) : World × Bool :=
  if maxClients ≤ w.numClients then (w, false)
  else
    let client : Client :=
      { type := type, host := host, port := port, connectionDelayS := connectionDelayS, table := registers
        pollData := emptyPollData registers }
    ({ w with
        heap := Function.update w.heap w.next (some client)
        next := w.next + 1
        pollingClients := Function.update w.pollingClients w.numClients (some w.next)
        numClients := w.numClients + 1 }, true)

/-- `modbus_tcp_poll_start_client`, with its result. -/
def modbusTcpPollStartClient (w : World) (type : PollType) (host : String) (port : UInt16) : World × Bool :=
  match type with
  | .huawei => modbusTcpPollStart w .huawei host port 1 huaweiRegisters
  | .nrgkick => modbusTcpPollStart w .nrgkick host port 0 nrgkickRegisters
  | .canEz3 => modbusTcpPollStart w .canEz3 host port 0 canEz3Registers
  | .other _ => (w, false)

/-- `modbus_tcp_poll_stop`: the thread is joined and the client freed. -/
def modbusTcpPollStop (w : World) (id : ℕ) : World := { w with heap := Function.update w.heap id none }

/-- `polling_clients[i] && polling_clients[i]->type == type`. -/
def World.slotHas (w : World) (type : PollType) (i : ℕ) : Bool :=
  match w.pollingClients i with
  | none => false
  | some id =>
    match w.heap id with
    | none => false
    | some c => c.type == type

/-- The slot at which a loop over the registry for a client of a type stops. -/
def World.findSlot (w : World) (type : PollType) : Option ℕ := (List.range w.numClients).find? (w.slotHas type)

/-- The body of the loop of `modbus_tcp_poll_stop_all`. -/
def stopSlot (w : World) (i : ℕ) : World :=
  match w.pollingClients i with
  | none => w
  | some id =>
    let w := modbusTcpPollStop w id
    { w with pollingClients := Function.update w.pollingClients i none }

/-- `modbus_tcp_poll_stop_client`. -/
def modbusTcpPollStopClient (w : World) (type : PollType) : World :=
  match w.findSlot type with
  | none => w
  | some i =>
    let w := stopSlot w i
    { w with numClients := w.numClients - 1 }

/-- `modbus_tcp_poll_stop_all`. -/
def modbusTcpPollStopAll (w : World) : World :=
  let w := (List.range w.numClients).foldl stopSlot w
  { w with numClients := 0 }

/-- The client that the lookups find for a type, as it works on its cache. -/
def World.findClient (w : World) (type : PollType) : Option PollingClient :=
  (w.findSlot type).bind fun i => (w.pollingClients i).bind fun id => (w.heap id).map w.view

/-! ### Steps -/

/-- One poll of a running client: the number of the block, and what the device answers to
a request of whatever block that is. -/
structure BlockPoll where
  /-- The block. -/
  block : ℕ
  /-- What the request comes to. -/
  reply : (b : Block) → Reply b

/-- A client polls a block of its table. -/
def PollingClient.poll (c : PollingClient) (p : BlockPoll) : PollingClient :=
  if h : p.block < c.table.size then pollStep (T := c.table) c ⟨⟨p.block, h⟩, p.reply _⟩ else c

/-- The thread of a running client polls a block. The counter that it changes is in the
table, the entry is in the client. -/
def World.poll (w : World) (id : ℕ) (p : BlockPoll) : World :=
  match w.heap id with
  | none => w
  | some c =>
    let c' := (w.view c).poll p
    { w with
      numFailedRequests := Function.update w.numFailedRequests c.type c'.numFailedRequests
      heap := Function.update w.heap id (some { c with pollData := c'.pollData }) }

/-- What may happen to the registry and its clients. -/
inductive Event where
  /-- `modbus_tcp_poll_start_client`. -/
  | startClient (type : PollType) (host : String) (port : UInt16)
  /-- `modbus_tcp_poll_stop_client`. -/
  | stopClient (type : PollType)
  /-- `modbus_tcp_poll_stop_all`. -/
  | stopAll
  /-- The thread of the client at an address polls a block. -/
  | poll (id : ℕ) (p : BlockPoll)

/-- The world after an event. -/
def World.step (w : World) : Event → World
  | .startClient type host port => (modbusTcpPollStartClient w type host port).1
  | .stopClient type => modbusTcpPollStopClient w type
  | .stopAll => modbusTcpPollStopAll w
  | .poll id p => w.poll id p

/-! ### The registry law -/

/-- The client at an address was started and has not been stopped. -/
def World.Running (w : World) (id : ℕ) : Prop := (w.heap id).isSome = true

instance (w : World) : DecidablePred w.Running := fun _ => inferInstanceAs (Decidable (_ = true))

/-- The running clients: addresses are handed out in order. -/
def World.running (w : World) : Finset ℕ := (Finset.range w.next).filter w.Running

/-- The type names a device. -/
def PollType.Valid (type : PollType) : Prop := ∀ v, type ≠ .other v

/-- **A registry as it should be.** -/
structure RegistryOk (w : World) : Prop where
  /-- The counter is the number of running clients. -/
  count : w.numClients = w.running.card
  /-- Every running client is in a slot that the loops reach. -/
  reached : ∀ id, w.Running id → ∃ k < w.numClients, w.pollingClients k = some id
  /-- A start leaves the slots of the running clients as they are. -/
  kept : ∀ type host port id k, w.Running id → w.pollingClients k = some id →
    (modbusTcpPollStartClient w type host port).1.pollingClients k = some id
  /-- A start of a valid type succeeds exactly if fewer than `MAX_CLIENTS` are running. -/
  admits : ∀ type host port, type.Valid →
    ((modbusTcpPollStartClient w type host port).2 = true ↔ w.running.card < maxClients)

/-- The event is not a stop of a client in another slot than the last. -/
def StopsLast (w : World) : Event → Prop
  | .stopClient type => ∀ k, w.findSlot type = some k → k + 1 = w.numClients
  | _ => True

/-- The invariant: the slots below the counter hold the running clients, each once, and
those above are empty. -/
structure Packed (w : World) : Prop where
  /-- There is room for the counter. -/
  le_max : w.numClients ≤ maxClients
  /-- A slot below the counter holds a running client. -/
  used : ∀ k < w.numClients, ∃ id, w.pollingClients k = some id ∧ w.Running id
  /-- No client is in two slots. -/
  inj : ∀ k < w.numClients, ∀ l < w.numClients, w.pollingClients k = w.pollingClients l → k = l
  /-- A running client is in a slot below the counter. -/
  slot : ∀ id, w.Running id → ∃ k < w.numClients, w.pollingClients k = some id
  /-- The slots above the counter are empty. -/
  empty : ∀ k, w.numClients ≤ k → w.pollingClients k = none
  /-- Addresses are handed out in order. -/
  fresh : ∀ id, w.Running id → id < w.next

theorem Packed.init : Packed .init where
  le_max := Nat.zero_le _
  used := fun k hk => absurd hk (Nat.not_lt_zero k)
  inj := fun k hk => absurd hk (Nat.not_lt_zero k)
  slot := fun _ h => by cases h
  empty := fun _ _ => rfl
  fresh := fun _ h => by cases h

theorem World.mem_running {w : World} (hw : Packed w) {id : ℕ} : id ∈ w.running ↔ w.Running id := by
  rw [World.running, Finset.mem_filter, Finset.mem_range]
  exact ⟨And.right, fun h => ⟨hw.fresh id h, h⟩⟩

/-- As many clients are running as there are slots below the counter. -/
theorem Packed.card {w : World} (hw : Packed w) : w.running.card = w.numClients := by
  have himage : w.running = (Finset.range w.numClients).image fun k => (w.pollingClients k).getD 0 := by
    ext id
    rw [World.mem_running hw, Finset.mem_image]
    constructor
    · intro hid
      obtain ⟨k, hk, hslot⟩ := hw.slot id hid
      exact ⟨k, Finset.mem_range.mpr hk, by rw [hslot]; rfl⟩
    · rintro ⟨k, hk, rfl⟩
      obtain ⟨id, hslot, hid⟩ := hw.used k (Finset.mem_range.mp hk)
      rwa [hslot]
  rw [himage, Finset.card_image_of_injOn, Finset.card_range]
  intro k hk l hl hkl
  rw [Finset.coe_range] at hk hl
  obtain ⟨id, hslot, -⟩ := hw.used k hk
  obtain ⟨id', hslot', -⟩ := hw.used l hl
  refine hw.inj k hk l hl ?_
  simp only [hslot, hslot', Option.getD_some] at hkl ⊢
  rw [hkl]

/-! ### What the calls do -/

/-- The world after a start that found room. -/
theorem start_eq {w : World} {type : PollType} (htype : type.Valid) (host : String) (port : UInt16) :
    ∃ c : Client, c.type = type ∧ c.pollData = emptyPollData c.table ∧ type.registers? = some c.table ∧
      modbusTcpPollStartClient w type host port =
        if maxClients ≤ w.numClients then (w, false)
        else ({ w with
          heap := Function.update w.heap w.next (some c)
          next := w.next + 1
          pollingClients := Function.update w.pollingClients w.numClients (some w.next)
          numClients := w.numClients + 1 }, true) := by
  cases type with
  | huawei => exact ⟨⟨.huawei, host, port, 1, huaweiRegisters, _⟩, rfl, rfl, rfl, rfl⟩
  | nrgkick => exact ⟨⟨.nrgkick, host, port, 0, nrgkickRegisters, _⟩, rfl, rfl, rfl, rfl⟩
  | canEz3 => exact ⟨⟨.canEz3, host, port, 0, canEz3Registers, _⟩, rfl, rfl, rfl, rfl⟩
  | other v => exact absurd rfl (htype v)

theorem start_invalid {w : World} {type : PollType} (htype : ¬ type.Valid) (host : String) (port : UInt16) :
    modbusTcpPollStartClient w type host port = (w, false) := by
  simp only [PollType.Valid, not_forall, not_not] at htype
  obtain ⟨v, rfl⟩ := htype
  rfl

theorem running_update_some {w w' : World} {i : ℕ} {c : Client}
    (hheap : w'.heap = Function.update w.heap i (some c)) {j : ℕ} : w'.Running j ↔ j = i ∨ w.Running j := by
  simp only [World.Running, hheap]
  by_cases h : j = i
  · subst h
    simp
  · simp [h]

theorem Packed.start {w : World} (hw : Packed w) (type : PollType) (host : String) (port : UInt16) :
    Packed (modbusTcpPollStartClient w type host port).1 := by
  by_cases htype : type.Valid
  swap
  · rw [start_invalid htype]
    exact hw
  obtain ⟨c, -, -, -, heq⟩ := start_eq (w := w) htype host port
  rw [heq]
  by_cases hfull : maxClients ≤ w.numClients
  · rw [if_pos hfull]
    exact hw
  rw [if_neg hfull]
  have hrun : ∀ id, w.Running id → id ≠ w.next := fun id hid => Nat.ne_of_lt (hw.fresh id hid)
  have hne : ∀ k < w.numClients, w.pollingClients k ≠ some w.next := by
    intro k hk h
    obtain ⟨id, hslot, hid⟩ := hw.used k hk
    rw [hslot, Option.some.injEq] at h
    exact hrun id hid h
  constructor
  · simp only
    omega
  · intro k hk
    by_cases hkn : k = w.numClients
    · subst hkn
      exact ⟨w.next, by simp, (running_update_some rfl).mpr (.inl rfl)⟩
    · obtain ⟨id, hslot, hid⟩ := hw.used k (by simp only at hk; omega)
      exact ⟨id, by simpa [Function.update_of_ne hkn] using hslot, (running_update_some rfl).mpr (.inr hid)⟩
  · intro k hk l hl hkl
    simp only at hk hl hkl
    by_cases hkn : k = w.numClients <;> by_cases hln : l = w.numClients
    · rw [hkn, hln]
    · subst hkn
      rw [Function.update_self, Function.update_of_ne hln] at hkl
      exact absurd hkl.symm (hne l (by omega))
    · subst hln
      rw [Function.update_self, Function.update_of_ne hkn] at hkl
      exact absurd hkl (hne k (by omega))
    · rw [Function.update_of_ne hkn, Function.update_of_ne hln] at hkl
      exact hw.inj k (by omega) l (by omega) hkl
  · intro id hid
    rcases (running_update_some rfl).mp hid with rfl | hold
    · exact ⟨w.numClients, Nat.lt_succ_self _, by simp⟩
    · obtain ⟨k, hk, hslot⟩ := hw.slot id hold
      exact ⟨k, Nat.lt_succ_of_lt hk, by simpa [Function.update_of_ne (Nat.ne_of_lt hk)] using hslot⟩
  · intro k hk
    simp only at hk
    simpa [Function.update_of_ne (show k ≠ w.numClients by omega)] using hw.empty k (by omega)
  · intro id hid
    rcases (running_update_some rfl).mp hid with rfl | hold
    · exact Nat.lt_succ_self _
    · exact Nat.lt_succ_of_lt (hw.fresh id hold)

/-- The slot that a search stops at holds a running client of the type. -/
theorem findSlot_eq_some {w : World} {type : PollType} {k : ℕ} (h : w.findSlot type = some k) :
    k < w.numClients ∧ ∃ id c, w.pollingClients k = some id ∧ w.heap id = some c ∧ c.type = type := by
  rw [World.findSlot, List.find?_range_eq_some, List.mem_range] at h
  obtain ⟨hhas, hk, -⟩ := h
  refine ⟨hk, ?_⟩
  unfold World.slotHas at hhas
  cases hslot : w.pollingClients k with
  | none => simp [hslot] at hhas
  | some id =>
    cases hheap : w.heap id with
    | none => simp [hslot, hheap] at hhas
    | some c => exact ⟨id, c, rfl, hheap, by simpa [hslot, hheap] using hhas⟩

/-- The world after a stop of the client in slot `k`. -/
theorem stopClient_eq {w : World} {type : PollType} {k id : ℕ} (h : w.findSlot type = some k)
    (hslot : w.pollingClients k = some id) :
    modbusTcpPollStopClient w type =
      { w with
        heap := Function.update w.heap id none
        pollingClients := Function.update w.pollingClients k none
        numClients := w.numClients - 1 } := by
  simp only [modbusTcpPollStopClient, h, stopSlot, hslot, modbusTcpPollStop]

theorem running_update_none {w w' : World} {i : ℕ} (hheap : w'.heap = Function.update w.heap i none) {j : ℕ} :
    w'.Running j ↔ j ≠ i ∧ w.Running j := by
  simp only [World.Running, hheap]
  by_cases h : j = i
  · subst h
    simp
  · simp [h]

theorem Packed.stopLast {w : World} (hw : Packed w) {type : PollType} (hlast : StopsLast w (.stopClient type)) :
    Packed (modbusTcpPollStopClient w type) := by
  cases hfind : w.findSlot type with
  | none =>
    simp only [modbusTcpPollStopClient, hfind]
    exact hw
  | some k =>
    obtain ⟨hk, id, c, hslot, -, -⟩ := findSlot_eq_some hfind
    have hkn := hlast k hfind
    rw [stopClient_eq hfind hslot]
    have hother : ∀ l < w.numClients, l ≠ k → ∀ id', w.pollingClients l = some id' → id' ≠ id := by
      rintro l hl hlk id' hslot' rfl
      exact hlk (hw.inj l hl k hk (hslot'.trans hslot.symm))
    constructor
    · have := hw.le_max
      simp only
      omega
    · intro l hl
      simp only at hl
      obtain ⟨id', hslot', hid'⟩ := hw.used l (by omega)
      have hlk : l ≠ k := by omega
      refine ⟨id', by simpa [Function.update_of_ne hlk] using hslot', ?_⟩
      exact (running_update_none rfl).mpr ⟨hother l (by omega) hlk id' hslot', hid'⟩
    · intro l hl m hm hlm
      simp only at hl hm hlm
      rw [Function.update_of_ne (by omega), Function.update_of_ne (by omega)] at hlm
      exact hw.inj l (by omega) m (by omega) hlm
    · intro id' hid'
      obtain ⟨hne, hid'⟩ := (running_update_none rfl).mp hid'
      obtain ⟨l, hl, hslot'⟩ := hw.slot id' hid'
      have hlk : l ≠ k := by
        rintro rfl
        rw [hslot, Option.some.injEq] at hslot'
        exact hne hslot'.symm
      exact ⟨l, by simp only; omega, by simpa [Function.update_of_ne hlk] using hslot'⟩
    · intro l hl
      simp only at hl ⊢
      by_cases hlk : l = k
      · subst hlk
        simp
      · rw [Function.update_of_ne hlk]
        exact hw.empty l (by omega)
    · intro id' hid'
      exact hw.fresh id' ((running_update_none rfl).mp hid').2

/-- What the loop of `modbus_tcp_poll_stop_all` does in its first `n` rounds. -/
theorem stopSlots (w : World) (n : ℕ) :
    ((List.range n).foldl stopSlot w).next = w.next ∧
    (∀ k, ((List.range n).foldl stopSlot w).pollingClients k = if k < n then none else w.pollingClients k) ∧
    ∀ id, ((List.range n).foldl stopSlot w).Running id ↔ w.Running id ∧ ∀ k < n, w.pollingClients k ≠ some id := by
  induction n with
  | zero => simp
  | succ n ih =>
    obtain ⟨hnext, hslots, hrun⟩ := ih
    rw [List.range_succ, List.foldl_concat]
    generalize (List.range n).foldl stopSlot w = u at hnext hslots hrun ⊢
    have hun : u.pollingClients n = w.pollingClients n := by rw [hslots n, if_neg (Nat.lt_irrefl n)]
    unfold stopSlot
    cases hslot : u.pollingClients n with
    | none =>
      refine ⟨hnext, fun k => ?_, fun id => ?_⟩
      · by_cases hkn : k = n
        · subst hkn
          simp [hslot]
        · rw [hslots k]
          simp only [show k < n + 1 ↔ k < n by omega]
      · rw [hrun id]
        refine and_congr_right fun _ => ⟨fun h k hk => ?_, fun h k hk => h k (by omega)⟩
        by_cases hkn : k = n
        · rw [hkn, ← hun, hslot]
          exact (Option.some_ne_none id).symm
        · exact h k (by omega)
    | some id' =>
      simp only [modbusTcpPollStop]
      refine ⟨hnext, fun k => ?_, fun id => ?_⟩
      · by_cases hkn : k = n
        · subst hkn
          simp
        · rw [Function.update_of_ne hkn, hslots k]
          simp only [show k < n + 1 ↔ k < n by omega]
      · rw [running_update_none (w := u) (i := id') rfl, hrun id]
        rw [hun] at hslot
        constructor
        · rintro ⟨hne, hid, h⟩
          refine ⟨hid, fun k hk => ?_⟩
          by_cases hkn : k = n
          · rw [hkn, hslot]
            exact fun h' => hne (Option.some.inj h').symm
          · exact h k (by omega)
        · rintro ⟨hid, h⟩
          refine ⟨?_, hid, fun k hk => h k (by omega)⟩
          rintro rfl
          exact h n (Nat.lt_succ_self n) hslot

theorem Packed.stopAll {w : World} (hw : Packed w) : Packed (modbusTcpPollStopAll w) := by
  obtain ⟨-, hslots, hrun⟩ := stopSlots w w.numClients
  have hnone : ∀ id, ¬ (modbusTcpPollStopAll w).Running id := by
    intro id hid
    obtain ⟨hid, h⟩ := (hrun id).mp hid
    obtain ⟨k, hk, hslot⟩ := hw.slot id hid
    exact h k hk hslot
  refine ⟨Nat.zero_le _, fun k hk => absurd hk (Nat.not_lt_zero k), fun k hk => absurd hk (Nat.not_lt_zero k),
    fun id hid => absurd hid (hnone id), fun k _ => ?_, fun id hid => absurd hid (hnone id)⟩
  have := hslots k
  by_cases hk : k < w.numClients
  · rwa [if_pos hk] at this
  · rw [if_neg hk] at this
    exact this.trans (hw.empty k (by omega))

/-- A poll stops no client and starts none. -/
theorem World.running_poll (w : World) (id : ℕ) (p : BlockPoll) (id' : ℕ) : (w.poll id p).Running id' ↔ w.Running id' := by
  unfold World.poll
  cases hheap : w.heap id with
  | none => rfl
  | some c =>
    simp only [World.Running]
    by_cases h : id' = id
    · subst h
      simp [hheap]
    · simp [Function.update_of_ne h]

theorem Packed.poll {w : World} (hw : Packed w) (id : ℕ) (p : BlockPoll) : Packed (w.poll id p) := by
  have hrun := w.running_poll id p
  have hsame : (w.poll id p).pollingClients = w.pollingClients ∧ (w.poll id p).numClients = w.numClients ∧
      (w.poll id p).next = w.next := by
    unfold World.poll
    cases w.heap id <;> exact ⟨rfl, rfl, rfl⟩
  obtain ⟨hslots, hnum, hnext⟩ := hsame
  constructor
  · rw [hnum]
    exact hw.le_max
  · intro k hk
    rw [hnum] at hk
    obtain ⟨id', hslot, hid'⟩ := hw.used k hk
    exact ⟨id', by rw [hslots, hslot], (hrun id').mpr hid'⟩
  · rw [hslots, hnum]
    exact hw.inj
  · intro id' hid'
    rw [hslots, hnum]
    exact hw.slot id' ((hrun id').mp hid')
  · rw [hslots, hnum]
    exact hw.empty
  · intro id' hid'
    rw [hnext]
    exact hw.fresh id' ((hrun id').mp hid')

/-- The invariant is kept by every event but a stop of another slot than the last. -/
theorem Packed.step {w : World} (hw : Packed w) (e : Event) (he : StopsLast w e) : Packed (w.step e) := by
  cases e with
  | startClient type host port => exact hw.start type host port
  | stopClient type => exact hw.stopLast he
  | stopAll => exact hw.stopAll
  | poll id p => exact hw.poll id p

/-- A packed registry is as it should be. -/
theorem Packed.ok {w : World} (hw : Packed w) : RegistryOk w := by
  refine ⟨hw.card.symm, hw.slot, fun type host port id k hid hslot => ?_, fun type host port htype => ?_⟩
  · by_cases htype : type.Valid
    · obtain ⟨c, -, -, -, heq⟩ := start_eq (w := w) htype host port
      rw [heq]
      split
      · exact hslot
      · have hk : k ≠ w.numClients := by
          rintro rfl
          rw [hw.empty _ (Nat.le_refl _)] at hslot
          cases hslot
        simpa [Function.update_of_ne hk] using hslot
    · rw [start_invalid htype]
      exact hslot
  · obtain ⟨c, -, -, -, heq⟩ := start_eq (w := w) htype host port
    rw [heq, hw.card]
    split <;> simp <;> omega

/-- After a stop of another slot than the last, the client in the last slot is lost. -/
theorem not_registryOk_of_hole {w : World} (hw : Packed w) (e : Event) (he : ¬ StopsLast w e) :
    ¬ RegistryOk (w.step e) := by
  cases e with
  | startClient type host port => exact absurd trivial he
  | stopAll => exact absurd trivial he
  | poll id p => exact absurd trivial he
  | stopClient type =>
    intro hok
    simp only [StopsLast, not_forall] at he
    obtain ⟨k, hfind, hne⟩ := he
    obtain ⟨hk, id, c, hslot, -, -⟩ := findSlot_eq_some hfind
    obtain ⟨lost, hlost, hrun⟩ := hw.used (w.numClients - 1) (by omega)
    have hstep : w.step (.stopClient type) = _ := stopClient_eq hfind hslot
    rw [hstep] at hok
    have hlostne : lost ≠ id := by
      rintro rfl
      have := hw.inj _ (by omega) k hk (hlost.trans hslot.symm)
      omega
    obtain ⟨l, hl, hslot'⟩ := hok.reached lost ((running_update_none rfl).mpr ⟨hlostne, hrun⟩)
    simp only at hl hslot'
    have hlk : l ≠ k := by
      rintro rfl
      simp at hslot'
    rw [Function.update_of_ne hlk] at hslot'
    have := hw.inj l (by omega) _ (by omega) (hslot'.trans hlost.symm)
    omega

/-- **The registry law, exactly.** In a run from the start of the program the registry is
as it should be in every state reached if and only if each stop of a client by its type
stops the one in the last slot, or none. -/
theorem registry_iff (evs : List Event) :
    Throughout World.step RegistryOk .init evs ↔ Guarded World.step StopsLast .init evs :=
  throughout_iff_guarded (I := Packed) (fun _ hw => hw.ok) (fun _ e hw => hw.step e)
    (fun _ e hw => not_registryOk_of_hole hw e) Packed.init evs

/-- Two clients started, the first stopped: the second runs on in a slot that no loop reaches. -/
theorem registry_loses_client :
    ¬ ∀ evs : List Event, (∀ e ∈ evs, ∀ id p, e ≠ .poll id p) → Throughout World.step RegistryOk .init evs := by
  intro h
  have hok := (h [.startClient .huawei "192.168.8.85" 502, .startClient .nrgkick "192.168.8.95" 502,
    .stopClient .huawei] (by simp)).last
  have hcount := hok.reached 1 (by decide)
  revert hcount
  decide

/-! ### What the lookups find -/

/-- The invariant of the heap: a client has the table of its type and a reachable cache. -/
def World.Cached (w : World) : Prop :=
  ∀ id c, w.heap id = some c → ∃ T, c.type.registers? = some T ∧ Reachable T (w.view c)

theorem World.Cached.start {w : World} (hw : w.Cached) (type : PollType) (host : String) (port : UInt16) :
    (modbusTcpPollStartClient w type host port).1.Cached := by
  by_cases htype : type.Valid
  swap
  · rw [start_invalid htype]
    exact hw
  obtain ⟨c, hct, hdata, htable, heq⟩ := start_eq (w := w) htype host port
  rw [heq]
  split
  · exact hw
  · intro id d hd
    by_cases hid : id = w.next
    · subst hid
      simp only [Function.update_self, Option.some.injEq] at hd
      subst hd
      refine ⟨c.table, by rw [hct, htable], ?_⟩
      have := Reachable.start (T := c.table) (w.numFailedRequests c.type)
      rwa [PollingClient.fresh, ← hdata] at this
    · simp only [Function.update_of_ne hid] at hd
      exact hw id d hd

/-- A step that only frees clients keeps the invariant. -/
theorem World.Cached.of_freed {w w' : World} (hw : w.Cached) (hcount : w'.numFailedRequests = w.numFailedRequests)
    (hheap : ∀ id, w'.heap id = none ∨ w'.heap id = w.heap id) : w'.Cached := by
  intro id c hc
  rcases hheap id with h | h
  · rw [h] at hc
    cases hc
  · obtain ⟨T, hT, hreach⟩ := hw id c (h ▸ hc)
    refine ⟨T, hT, ?_⟩
    rwa [World.view, hcount]

theorem World.Cached.stopSlot {w : World} (hw : w.Cached) (k : ℕ) : (stopSlot w k).Cached := by
  unfold Poll.stopSlot
  cases w.pollingClients k with
  | none => exact hw
  | some id' =>
    refine hw.of_freed rfl fun id => ?_
    by_cases hid : id = id'
    · subst hid
      exact .inl (by simp [modbusTcpPollStop])
    · exact .inr (by simp [modbusTcpPollStop, Function.update_of_ne hid])

/-- A poll by a client stores to its cache and counts for all clients of its type. -/
theorem World.Cached.poll {w : World} (hw : w.Cached) (id : ℕ) (p : BlockPoll) : (w.poll id p).Cached := by
  unfold World.poll
  cases hc : w.heap id with
  | none => exact hw
  | some c =>
    obtain ⟨T, hT, hreach⟩ := hw id c hc
    have hpoll : Reachable T ((w.view c).poll p) := by
      unfold PollingClient.poll
      split
      · have htable := hreach.wellFormed.table
        subst htable
        exact hreach.poll _
      · exact hreach
    have htable : ((w.view c).poll p).table = c.table := hpoll.wellFormed.table.trans hreach.wellFormed.table.symm
    intro id' d hd
    by_cases hid : id' = id
    · subst hid
      simp only [Function.update_self, Option.some.injEq] at hd
      subst hd
      refine ⟨T, hT, ?_⟩
      rw [World.view]
      simp only [Function.update_self]
      rwa [← htable]
    · simp only [Function.update_of_ne hid] at hd
      obtain ⟨T', hT', hreach'⟩ := hw id' d hd
      exact ⟨T', hT', hreach'.count _⟩

theorem World.Cached.step {w : World} (hw : w.Cached) (e : Event) : (w.step e).Cached := by
  cases e with
  | startClient type host port => exact hw.start type host port
  | stopClient type =>
    simp only [World.step, modbusTcpPollStopClient]
    cases w.findSlot type with
    | none => exact hw
    | some k => exact hw.stopSlot k
  | stopAll => exact run_invariant (I := World.Cached) (fun _ k hu => hu.stopSlot k) hw (List.range w.numClients)
  | poll id p => exact hw.poll id p

/-- **The lookups find reachable caches.** Whatever the registry has gone through, the
client that a lookup finds for a type polls the table of that type and has a reachable cache. -/
theorem findClient_reachable (evs : List Event) (type : PollType) {c : PollingClient}
    (h : (run World.step .init evs).findClient type = some c) :
    ∃ T, type.registers? = some T ∧ Reachable T c := by
  have hw : (run World.step .init evs).Cached :=
    run_invariant (fun _ e hw => hw.step e) (fun _ _ h => by cases h) evs
  generalize run World.step .init evs = w at h hw
  simp only [World.findClient, Option.bind_eq_some_iff, Option.map_eq_some_iff] at h
  obtain ⟨k, hk, id, hslot, d, hd, rfl⟩ := h
  obtain ⟨-, id', d', hslot', hd', rfl⟩ := findSlot_eq_some hk
  rw [hslot, Option.some.injEq] at hslot'
  subst hslot'
  rw [hd, Option.some.injEq] at hd'
  subst hd'
  exact hw id d hd

end ModbusProxy.Poll
