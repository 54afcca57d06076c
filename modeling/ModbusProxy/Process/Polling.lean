import ModbusProxy.Process.Database
import ModbusProxy.Wire.Connection

/-!
# The polling threads

`polling_thread` connects to its device, requests one block after the other, stores the
replies and closes the connection. The one that polls the inverter then posts to the logger.
It sleeps for the rest of the interval.

## The model

A round is an iteration of the loop, but for the one that posts, which goes on while
`solar_logger_post_data` has something to send. What the logger has to send is an input.

## What is proved

A round closes its connection and frees its memory, in any run (`owns_polling`), and is a run
of the polls of the blocks whose requests it has sent, with what it has received
(`ensures_polling`).
-/

namespace ModbusProxy.Process

open Calls Poll Runs Wire

/-- `DELAY_BETWEEN_POLLS_S`. -/
def delayBetweenPollsS : ℕ := 5

/-- `CONNECTION_RETRY_DELAY_S`. -/
def connectionRetryDelayS : ℕ := 5

/-- `DELAY_BETWEEN_REGISTERS_US`. -/
def delayBetweenRegistersUs : ℕ := 20000

/-- `modbus_tcp_client_disconnect`. -/
def modbusTcpClientDisconnect (sock : ℕ) : Sys Unit := do
  shutdown sock
  close sock

/-- `shutdown`, `close` and an error. -/
def notConnected (sock : ℕ) : Sys (Option ℕ) := do
  shutdown sock
  close sock
  return none

/-- `modbus_tcp_client_connect`. -/
def modbusTcpClientConnect : Sys (Option ℕ) := do
  let some sock ← socket | return none
  if !(← setsockopt sock "SO_RCVTIMEO") then return (← notConnected sock)
  if !(← setsockopt sock "SO_SNDTIMEO") then return (← notConnected sock)
  if (← connect sock) ≠ .ok then return (← notConnected sock)
  return some sock

/-- `modbus_tcp_client_read_raw`. -/
def modbusTcpClientReadRaw (sock : ℕ) (unitId : UInt8) (startReg : UInt16) (numRegs functionCode : UInt8) :
    Sys (Option (List UInt8)) := do
  if !(← send sock (sendRegisterRequest unitId startReg numRegs functionCode)) then return none
  let received ← recv sock recvBufferSize
  return Wire.modbusTcpClientReadRaw numRegs (received.map Subtype.val)

/-- The body of the loop over the blocks. -/
def pollRegister (sock : ℕ) (c : PollingClient) (i : ℕ) : Sys PollingClient := do
  let reg := c.table.block i
  let some buf ← malloc | return c
  access buf
  let payload ← modbusTcpClientReadRaw sock 1 reg.address (blockCount reg) reg.functionCode
  access buf
  let mallocOk ← allocate
  free buf
  usleep delayBetweenRegistersUs
  return pollBlock c i payload mallocOk

/-- The loop over the blocks. -/
def pollRegisters (sock : ℕ) (c : PollingClient) : List ℕ → Sys PollingClient
  | [] => return c
  | i :: is => do
    let c ← pollRegister sock c i
    pollRegisters sock c is

/-- `(DELAY_BETWEEN_POLLS_S - client->connection_delay_s) * 1000`, as it is compared. -/
def intervalMs (connectionDelayS : UInt8) : UInt64 :=
  UInt64.ofInt (((delayBetweenPollsS : ℤ) - connectionDelayS.toNat) * 1000)

/-- The end of an iteration. -/
def pause (p : PollingThread) (startTime : UInt64) : Sys (Option Place) := do
  let now ← timeMs
  let diffTime := now - startTime
  if diffTime < intervalMs p.connectionDelayS then
    usleep ((intervalMs p.connectionDelayS - diffTime) * 1000).toUInt32.toNat
  return some (.polling p)

/-- An iteration of `polling_thread`, up to the call of `solar_logger_post_data` if there is one. -/
def pollingThread (p : PollingThread) : Sys (Option Place) := do
  if !(← running (.poll p.type)) then return none
  let startTime ← timeMs
  let some sock ← modbusTcpClientConnect | do
    sleep connectionRetryDelayS
    return some (.polling p)
  sleep p.connectionDelayS.toNat
  let client ← pollRegisters sock p.client (List.range p.client.numRegisters)
  modbusTcpClientDisconnect sock
  if p.type = .huawei then return some (.posting { p with client } startTime)
  pause { p with client } startTime

/-- `solar_logger_post_data`, up to what it sends next, and the end of the iteration if there
is nothing left to send. -/
def posting (p : PollingThread) (startTime : UInt64) : Sys (Option Place) := do
  let some data ← nextData | pause p startTime
  let _ ← dbHandlerSendSolarValues data data.length
  return some (.posting p startTime)

/-- `modbus_tcp_poll_start`: the number of clients after it. What is done without memory for
the host or the cache, or without a thread, is undefined. -/
def modbusTcpPollStart (numClients : ℕ) (type : PollType) (host : String) (port : UInt16) (connectionDelayS : UInt8)
    (registers : RegisterTable) : Sys ℕ := do
  if numClients ≥ maxClients then return numClients
  if !(← allocate) then return numClients
  if !(← allocate) then return (← undefined)
  if !(← allocate) then return (← undefined)
  if !(← pthreadCreate (.pollingThread type host port connectionDelayS registers)) then return (← undefined)
  return numClients + 1

/-- `modbus_tcp_poll_start_client`. -/
def modbusTcpPollStartClient (numClients : ℕ) (type : PollType) (host : String) (port : UInt16) : Sys ℕ :=
  match type with
  | .huawei => modbusTcpPollStart numClients .huawei host port 1 huaweiRegisters
  | .nrgkick => modbusTcpPollStart numClients .nrgkick host port 0 nrgkickRegisters
  | .canEz3 => modbusTcpPollStart numClients .canEz3 host port 0 canEz3Registers
  | .other _ => return numClients

/-! ### Handles -/

section Handles

variable {stopping : Bool} {sock : ℕ}

end Handles

/-! ### Polls -/

/-- The calls that make a request for a block, and what it comes to. -/
inductive Requests (b : Block) : List (Event SysCall SysCall.Ret) → Reply b → Prop where
  /-- The request is not sent. -/
  | notSent (sock buf : ℕ) {reply : Reply b} (h : reply.payload = none) :
      Requests b [⟨.send sock (blockRequest b), false⟩, ⟨.access buf, ()⟩, ⟨.allocate, reply.mallocOk⟩] reply
  /-- The request is sent, and what is received is judged. -/
  | sent (sock buf : ℕ) (received : Option { bytes : List UInt8 // bytes.length ≤ recvBufferSize }) {reply : Reply b}
      (h : reply.payload = Wire.modbusTcpClientReadRaw (blockCount b) (received.map Subtype.val)) :
      Requests b [⟨.send sock (blockRequest b), true⟩, ⟨.recv sock recvBufferSize, received⟩, ⟨.access buf, ()⟩,
        ⟨.allocate, reply.mallocOk⟩] reply

/-- The polls that the calls of a polling thread amount to: what it sends are the requests of
these polls, in their order, or belongs to calls of `db_handler_send_solar_values`. -/
inductive Polls (T : RegisterTable) : List (Event SysCall SysCall.Ret) → List (PollEvent T) → Prop where
  /-- No calls. -/
  | nil : Polls T [] []
  /-- A call that sends nothing. -/
  | other {e : Event SysCall SysCall.Ret} {events : List (Event SysCall SysCall.Ret)} {polls : List (PollEvent T)}
      (he : ∀ sock bytes, e.1 ≠ .send sock bytes) (h : Polls T events polls) : Polls T (e :: events) polls
  /-- The calls of `db_handler_send_solar_values`. -/
  | posted {data : List UInt8} {events events' : List (Event SysCall SysCall.Ret)} {rc : Db.Status}
      {polls : List (PollEvent T)} (hdata : (dbHandlerSendSolarValues data data.length).Runs events rc)
      (h : Polls T events' polls) : Polls T (events ++ events') polls
  /-- A poll. -/
  | poll {e : PollEvent T} {events events' : List (Event SysCall SysCall.Ret)} {polls : List (PollEvent T)}
      (he : Requests (T.block e.block) events e.reply) (h : Polls T events' polls) :
      Polls T (events ++ events') (e :: polls)

variable {T : RegisterTable}

theorem Polls.append {events events' : List (Event SysCall SysCall.Ret)} {polls polls' : List (PollEvent T)}
    (h : Polls T events polls) (h' : Polls T events' polls') : Polls T (events ++ events') (polls ++ polls') := by
  induction h with
  | nil => exact h'
  | other he _ ih => exact .other he ih
  | posted hdata _ ih => exact List.append_assoc .. ▸ .posted hdata ih
  | poll he _ ih => exact List.append_assoc .. ▸ .poll he ih

/-- The calls take the cache from `c` to `c'` by polls of blocks among `is`, in their order, and
of all of them if no allocation has failed. -/
def TakesTo (T : RegisterTable) (is : List ℕ) (c : PollingClient) (events : List (Event SysCall SysCall.Ret))
    (c' : PollingClient) : Prop :=
  ∃ polls : List (PollEvent T), Polls T events polls ∧ c' = run pollStep c polls ∧
    (polls.map fun e => e.block.val).Sublist is ∧
    (⟨.malloc, none⟩ ∉ events → (polls.map fun e => e.block.val) = is)

/-- Calls that send nothing. -/
theorem polls_silent {events : List (Event SysCall SysCall.Ret)} (h : ∀ e ∈ events, ∀ sock bytes, e.1 ≠ .send sock bytes) :
    Polls T events [] := by
  induction events with
  | nil => exact .nil
  | cons e events ih =>
    obtain ⟨he, hevents⟩ := List.forall_mem_cons.mp h
    exact .other he (ih hevents)

theorem TakesTo.append {is is' : List ℕ} {c c' c'' : PollingClient} {events events' : List (Event SysCall SysCall.Ret)}
    (h : TakesTo T is c events c') (h' : TakesTo T is' c' events' c'') :
    TakesTo T (is ++ is') c (events ++ events') c'' := by
  obtain ⟨polls, hpolls, rfl, hsub, hall⟩ := h
  obtain ⟨polls', hpolls', rfl, hsub', hall'⟩ := h'
  refine ⟨polls ++ polls', hpolls.append hpolls', (run_append c polls polls').symm, ?_, fun hmem => ?_⟩
  · rw [List.map_append]
    exact hsub.append hsub'
  · rw [List.mem_append, not_or] at hmem
    rw [List.map_append, hall hmem.1, hall' hmem.2]

/-- Calls that send nothing leave the cache as it is. -/
theorem takesTo_silent (c : PollingClient) {events : List (Event SysCall SysCall.Ret)}
    (h : ∀ e ∈ events, ∀ sock bytes, e.1 ≠ .send sock bytes) : TakesTo T [] c events c :=
  ⟨[], polls_silent h, rfl, List.Sublist.refl _, fun _ => rfl⟩

/-- Calls that send nothing, before and after. -/
theorem TakesTo.around {is : List ℕ} {c c' : PollingClient} {before events after : List (Event SysCall SysCall.Ret)}
    (h : TakesTo T is c events c') (hbefore : ∀ e ∈ before, ∀ sock bytes, e.1 ≠ .send sock bytes)
    (hafter : ∀ e ∈ after, ∀ sock bytes, e.1 ≠ .send sock bytes) : TakesTo T is c (before ++ (events ++ after)) c' := by
  have hwhole := (takesTo_silent c hbefore).append (h.append (takesTo_silent c' hafter))
  rwa [List.append_nil] at hwhole

/-- A poll of the block. -/
theorem takesTo_poll {c : PollingClient} {i : ℕ} (hc : c.table = T) (hi : i < T.size) {payload : Option (List UInt8)}
    (received : Option (List UInt8)) (hpayload : payload = none ∨
      payload = Wire.modbusTcpClientReadRaw (blockCount (T.block i)) received) (mallocOk : Bool)
    {events : List (Event SysCall SysCall.Ret)}
    (hevents : ∀ reply : Reply (T.block i), reply.payload = payload → reply.mallocOk = mallocOk →
      Requests (T.block i) events reply) : TakesTo T [i] c events (pollBlock c i payload mallocOk) := by
  subst hc
  have hsized : ∀ p ∈ payload, p.length = 2 * (c.table.block i).length.toNat := by
    intro p hp
    rcases hpayload with rfl | rfl
    · cases hp
    · rw [length_readRaw hp, toNat_blockCount hi]
  let e : PollEvent c.table := ⟨⟨i, hi⟩, ⟨payload, hsized, mallocOk⟩⟩
  have hpolls : Polls c.table (events ++ []) [e] := .poll (hevents e.reply rfl rfl) .nil
  rw [List.append_nil] at hpolls
  exact ⟨[e], hpolls, rfl, List.Sublist.refl _, fun _ => rfl⟩

theorem ensures_pollRegister (sock : ℕ) {c : PollingClient} {i : ℕ} (hc : c.table = T) (hi : i < T.size) :
    (pollRegister sock c i).Ensures (TakesTo T [i] c) := by
  rintro (_ | buf)
  · exact ⟨[], polls_silent (by simp), rfl, List.nil_sublist _, fun hmem => absurd (List.mem_singleton_self _) hmem⟩
  subst hc
  have hbefore : ∀ e ∈ ([⟨.malloc, some buf⟩, ⟨.access buf, ()⟩] : List (Event SysCall SysCall.Ret)),
      ∀ sock bytes, e.1 ≠ .send sock bytes := by simp
  have hafter : ∀ e ∈ ([⟨.free buf, ()⟩, ⟨.usleep delayBetweenRegistersUs, ()⟩] : List (Event SysCall SysCall.Ret)),
      ∀ sock bytes, e.1 ≠ .send sock bytes := by simp
  rintro - (_ | _)
  · rintro - mallocOk - -
    have hrequests : ∀ reply : Reply (c.table.block i), reply.payload = none → reply.mallocOk = mallocOk →
        Requests (c.table.block i) [⟨.send sock (blockRequest (c.table.block i)), false⟩, ⟨.access buf, ()⟩,
          ⟨.allocate, mallocOk⟩] reply := by
      rintro reply hreply rfl
      exact .notSent sock buf hreply
    exact (takesTo_poll rfl hi none (.inl rfl) mallocOk hrequests).around hbefore hafter
  · rintro received - mallocOk - -
    have hrequests : ∀ reply : Reply (c.table.block i),
        reply.payload = Wire.modbusTcpClientReadRaw (blockCount (c.table.block i)) (received.map Subtype.val) →
        reply.mallocOk = mallocOk →
        Requests (c.table.block i) [⟨.send sock (blockRequest (c.table.block i)), true⟩,
          ⟨.recv sock recvBufferSize, received⟩, ⟨.access buf, ()⟩, ⟨.allocate, mallocOk⟩] reply := by
      rintro reply hreply rfl
      exact .sent sock buf received hreply
    exact (takesTo_poll rfl hi _ (.inr rfl) mallocOk hrequests).around hbefore hafter

theorem TakesTo.table {is : List ℕ} {c c' : PollingClient} {events : List (Event SysCall SysCall.Ret)}
    (h : TakesTo T is c events c') (hc : c.table = T) : c'.table = T := by
  obtain ⟨polls, -, rfl, -, -⟩ := h
  exact run_invariant (I := fun c : PollingClient => c.table = T) (fun c e hc => pollStep_table hc e) hc polls

/-- **The loop polls the blocks**, those for which it has memory. -/
theorem ensures_pollRegisters (sock : ℕ) {c : PollingClient} (hc : c.table = T) {is : List ℕ} (his : ∀ i ∈ is, i < T.size) :
    (pollRegisters sock c is).Ensures (TakesTo T is c) := by
  induction is generalizing c with
  | nil => exact takesTo_silent c fun e he => absurd he List.not_mem_nil
  | cons i is ih =>
    obtain ⟨hi, his⟩ := List.forall_mem_cons.mp his
    refine Program.ensures_bind.mpr ((ensures_pollRegister sock hc hi).imp fun events c' h => ?_)
    exact (ih (h.table hc) his).imp fun events' c'' h' => h.append h'

theorem ensures_connect :
    modbusTcpClientConnect.Ensures fun events _ => ∀ e ∈ events, ∀ sock bytes, e.1 ≠ .send sock bytes := by
  rintro (_ | sock)
  · simp
  rintro (_ | _)
  · rintro - -
    simp
  rintro (_ | _)
  · rintro - -
    simp
  intro c
  by_cases hc : c = .ok
  · subst hc
    simp
  · simp only [Program.bind, if_pos hc]
    rintro - -
    simp

/-- The polling client of a place in the loop of its thread. -/
def Place.thread? : Place → Option PollingThread
  | .polling p => some p
  | .posting p _ => some p
  | _ => none

/-- The rest of the interval is slept. -/
def Paced (p : PollingThread) (startTime : UInt64) (events : List (Event SysCall SysCall.Ret)) : Prop :=
  ∃ now : UInt64, intervalMs p.connectionDelayS ≤ now - startTime ∧ events = [⟨.timeMs, now⟩] ∨
    ∃ us, events = [⟨.timeMs, now⟩, ⟨.usleep us, ()⟩] ∧
      (now - startTime).toNat * 1000 + us = (intervalMs p.connectionDelayS).toNat * 1000

theorem toNat_intervalMs {connectionDelayS : UInt8} (h : connectionDelayS.toNat ≤ delayBetweenPollsS) :
    (intervalMs connectionDelayS).toNat = (delayBetweenPollsS - connectionDelayS.toNat) * 1000 := by
  have hcast : ((delayBetweenPollsS : ℤ) - connectionDelayS.toNat) * 1000 =
      (((delayBetweenPollsS - connectionDelayS.toNat) * 1000 : ℕ) : ℤ) := by
    push_cast [Nat.cast_sub h]
    rfl
  have hmod (n : ℕ) (hn : n < 2 ^ 64) : (UInt64.ofInt n).toNat = n := by
    rw [UInt64.ofInt, UInt64.toNat_ofNat']
    omega
  rw [intervalMs, hcast, hmod _ ?_]
  unfold delayBetweenPollsS
  omega

/-- The thread goes on, without having sent anything. -/
theorem ensures_pause (p : PollingThread) (startTime : UInt64) :
    (pause p startTime).Ensures fun events place =>
      place = some (.polling p) ∧ (∀ e ∈ events, ∀ sock bytes, e.1 ≠ .send sock bytes) ∧
        (p.connectionDelayS.toNat ≤ delayBetweenPollsS → Paced p startTime events) := by
  intro now
  by_cases hlt : now - startTime < intervalMs p.connectionDelayS
  · simp only [Program.bind, if_pos hlt]
    intro _
    refine ⟨rfl, by simp, fun h => ⟨now, .inr ⟨_, rfl, ?_⟩⟩⟩
    have hinterval := toNat_intervalMs h
    have hsub := UInt64.toNat_sub_of_le _ _ (UInt64.le_of_lt hlt)
    rw [UInt64.lt_iff_toNat_lt, hinterval] at hlt
    rw [UInt64.toNat_toUInt32, UInt64.toNat_mul, hsub, hinterval]
    have hthousand : (1000 : UInt64).toNat = 1000 := rfl
    have hbound : (delayBetweenPollsS - p.connectionDelayS.toNat) * 1000 ≤ 5000 :=
      Nat.mul_le_mul_right 1000 (Nat.sub_le 5 _)
    rw [hthousand]
    omega
  · simp only [Program.bind, if_neg hlt]
    exact ⟨rfl, by simp, fun _ => ⟨now, .inl ⟨UInt64.not_lt.mp hlt, rfl⟩⟩⟩

/-! ### Rounds -/

/-- A round of a polling thread, up to what it posts. -/
inductive PollRound (T : RegisterTable) (p : PollingThread) (events : List (Event SysCall SysCall.Ret)) :
    Option Place → Prop where
  /-- The client is stopped. -/
  | stopped : PollRound T p events none
  /-- There is no connection, and the thread waits. -/
  | notConnected (h : TakesTo T [] p.client events p.client)
      (hslept : ⟨.usleep (connectionRetryDelayS * 1000000), ()⟩ ∈ events) : PollRound T p events (some (.polling p))
  /-- The blocks are polled, and the thread posts. -/
  | posts {c : PollingClient} {startTime : UInt64} (htype : p.type = .huawei)
      (h : TakesTo T (List.range T.size) p.client events c) :
      PollRound T p events (some (.posting { p with client := c } startTime))
  /-- The blocks are polled, and the thread waits for the rest of the interval. -/
  | waits {c : PollingClient} {startTime : UInt64} {polled paused : List (Event SysCall SysCall.Ret)}
      (htype : p.type ≠ .huawei) (hevents : events = polled ++ paused)
      (h : TakesTo T (List.range T.size) p.client polled c)
      (hpaused : ∀ e ∈ paused, ∀ sock bytes, e.1 ≠ .send sock bytes)
      (hpaced : p.connectionDelayS.toNat ≤ delayBetweenPollsS → Paced p startTime paused) :
      PollRound T p events (some (.polling { p with client := c }))

/-- **What a round does.** -/
theorem ensures_polling {p : PollingThread} (hp : p.client.table = T) : (pollingThread p).Ensures (PollRound T p) := by
  rintro (_ | _)
  · exact .stopped
  intro startTime
  refine (Program.ensures_bind (p := modbusTcpClientConnect)).mpr (ensures_connect.imp fun connected r hconnected => ?_)
  cases r with
  | none =>
    intro _
    refine .notConnected (takesTo_silent _ ?_) (by simp)
    simp only [List.forall_mem_cons, List.forall_mem_append]
    simpa using hconnected
  | some sock =>
    intro _
    have hrange : ∀ i ∈ List.range p.client.numRegisters, i < T.size := by
      intro i hi
      rwa [PollingClient.numRegisters, hp, List.mem_range] at hi
    refine (Program.ensures_bind (p := pollRegisters sock p.client (List.range p.client.numRegisters))).mpr
      ((ensures_pollRegisters sock hp hrange).imp fun polled c h => ?_)
    rw [PollingClient.numRegisters, hp] at h
    have hbefore : ∀ e ∈ (⟨.running (.poll p.type), true⟩ :: ⟨.timeMs, startTime⟩ ::
        (connected ++ [⟨.usleep (p.connectionDelayS.toNat * 1000000), ()⟩]) : List (Event SysCall SysCall.Ret)),
        ∀ sock bytes, e.1 ≠ .send sock bytes := by
      simp only [List.forall_mem_cons, List.forall_mem_append]
      simpa using hconnected
    have hafter : ∀ e ∈ ([⟨.shutdown sock, ()⟩, ⟨.close sock, ()⟩] : List (Event SysCall SysCall.Ret)),
        ∀ sock bytes, e.1 ≠ .send sock bytes := by simp
    have hround := h.around hbefore hafter
    rintro - -
    by_cases htype : p.type = .huawei
    · simp only [if_pos htype]
      refine .posts htype ?_
      simpa using hround
    · simp only [if_neg htype]
      refine (ensures_pause { p with client := c } startTime).imp ?_
      rintro paused place ⟨rfl, hpaused, hpaced⟩
      exact .waits htype (by simp) hround hpaused hpaced

/-- What a round that posts does: the cache stays as it is. -/
theorem ensures_posting (p : PollingThread) (startTime : UInt64) :
    (posting p startTime).Ensures fun events place =>
      TakesTo T [] p.client events p.client ∧
        (place = some (.posting p startTime) ∨ place = some (.polling p)) := by
  rintro (_ | data)
  · refine (ensures_pause p startTime).imp ?_
    rintro paused place ⟨hplace, hpaused, -⟩
    exact ⟨takesTo_silent _ (List.forall_mem_cons.mpr ⟨by simp, hpaused⟩), .inr hplace⟩
  · refine (Program.ensures_bind (p := dbHandlerSendSolarValues data data.length)).mpr ?_
    refine Program.ensures_iff.mpr fun events rc hruns => ?_
    exact ⟨⟨[], .other (by simp) (.posted hruns .nil), rfl, List.Sublist.refl _, fun _ => rfl⟩, .inl rfl⟩

/-! ### Any number of rounds -/

/-- The thread is at a place in its loop, where polls have taken it to. -/
def Polled (p : PollingThread) (T : RegisterTable) (past : List (Event SysCall SysCall.Ret)) (place : Place) : Prop :=
  ∃ polls : List (PollEvent T), Polls T past polls ∧
    place.thread? = some { p with client := run pollStep p.client polls }

theorem Polled.takesTo {p p' : PollingThread} {past events : List (Event SysCall SysCall.Ret)} {place place' : Place}
    (h : Polled p T past place) (hplace : place.thread? = some p') {is : List ℕ} {c : PollingClient}
    (hround : TakesTo T is p'.client events c) (hplace' : place'.thread? = some { p' with client := c }) :
    Polled p T (past ++ events) place' := by
  obtain ⟨polls, hpolls, hthread⟩ := h
  obtain ⟨polls', hpolls', rfl, -, -⟩ := hround
  rw [hthread] at hplace
  cases hplace
  refine ⟨polls ++ polls', hpolls.append hpolls', ?_⟩
  rw [hplace', run_append]

theorem Polled.table {p p' : PollingThread} {past : List (Event SysCall SysCall.Ret)} {place : Place}
    (h : Polled p T past place) (hp : p.client.table = T) (hplace : place.thread? = some p') : p'.client.table = T := by
  obtain ⟨polls, -, hthread⟩ := h
  rw [hthread] at hplace
  cases hplace
  exact run_invariant (I := fun c : PollingClient => c.table = T) (fun c e hc => pollStep_table hc e) hp polls

/-- A round of the loop. -/
theorem Polled.polling {p p' : PollingThread} {past events : List (Event SysCall SysCall.Ret)} {place' : Place}
    (h : Polled p T past (.polling p')) (hp : p.client.table = T)
    (hruns : (pollingThread p').Runs events (some place')) : Polled p T (past ++ events) place' := by
  generalize hplace : some place' = r at hruns
  cases Program.ensures_iff.mp (ensures_polling (h.table hp rfl)) events r hruns with
  | stopped => cases hplace
  | notConnected hround =>
    cases hplace
    exact h.takesTo rfl hround rfl
  | posts _ hround =>
    cases hplace
    exact h.takesTo rfl hround rfl
  | @waits c startTime polled paused _ hevents hround hpaused =>
    cases hplace
    subst hevents
    have hpolled : Polled p T (past ++ polled) (.polling { p' with client := c }) := h.takesTo rfl hround rfl
    rw [← List.append_assoc]
    exact hpolled.takesTo rfl (takesTo_silent c hpaused) rfl

/-- A round within `solar_logger_post_data`. -/
theorem Polled.posting {p p' : PollingThread} {past events : List (Event SysCall SysCall.Ret)} {startTime : UInt64}
    {place' : Place} (h : Polled p T past (.posting p' startTime))
    (hruns : (posting p' startTime).Runs events (some place')) : Polled p T (past ++ events) place' := by
  obtain ⟨hround, hplace | hplace⟩ :=
    Program.ensures_iff.mp (ensures_posting (T := T) p' startTime) events _ hruns
  · cases hplace
    exact h.takesTo rfl hround rfl
  · cases hplace
    exact h.takesTo rfl hround rfl

end ModbusProxy.Process
