import ModbusProxy.Http.Request
import ModbusProxy.Library.Threads
import ModbusProxy.Poll.Cache

/-!
# The calls of the process

The services of the proxy run in threads of one process: the Modbus server with a thread for
each client, the web server with one for each request, and the polling threads, of which one
also logs. They share the descriptors and the heap.

## The model

A thread is a program over the calls that it makes, with whatever they return (`Calls`). A
descriptor and an allocated address are handles. Only the memory that threads allocate for
themselves is followed, not the caches of the polling clients, nor what the converters and
the logger allocate. What is undefined in C is a call that does not return. A place is where
a thread begins, or where its outermost loop begins a round, with the local variables and
what its argument points at.
-/

namespace ModbusProxy.Process

open Calls Memory Poll

/-- A polling client, as its thread sees it. -/
structure PollingThread where
  /-- `type`. -/
  type : PollType
  /-- `host`. -/
  host : String
  /-- `port`. -/
  port : UInt16
  /-- `connection_delay_s`. -/
  connectionDelayS : UInt8
  /-- The table and the cache. -/
  client : PollingClient

/-- Where a thread begins, or begins a round of its loop. -/
inductive Place where
  /-- `main`. -/
  | main
  /-- `modbus_tcp_server_thread`, with the address of its argument and the port that is there. -/
  | modbusServer (arg : ℕ) (port : UInt16)
  /-- The loop of `modbus_tcp_server_thread`. -/
  | modbusAccept (serverFd : ℕ)
  /-- The loop of `client_thread`, with the address of its `client_info_t` and what is there. -/
  | modbusClient (client clientFd : ℕ) (lastActivity : ℤ)
  /-- The loop of `http_server_loop`. -/
  | httpAccept (serverSock : ℕ)
  /-- `handle_request`, with the address of its argument and the descriptor that is there. -/
  | httpRequest (arg clientSock : ℕ)
  /-- `polling_thread`, with what its argument points at. -/
  | pollingThread (type : PollType) (host : String) (port : UInt16) (connectionDelayS : UInt8)
    (registers : RegisterTable)
  /-- The loop of `polling_thread`. -/
  | polling (p : PollingThread)
  /-- `polling_thread` within `solar_logger_post_data`. -/
  | posting (p : PollingThread) (startTime : UInt64)

/-- A service, with a flag that says whether it runs. -/
inductive Service where
  /-- `server_running` of the Modbus server. -/
  | modbus
  /-- `running` of the web server. -/
  | http
  /-- `running` of a polling client. -/
  | poll (type : PollType)

/-- What `connect` returns. -/
inductive ConnectResult where
  /-- `0`. -/
  | ok
  /-- `-1`, with `errno` `EINPROGRESS`. -/
  | inProgress
  /-- `-1` otherwise. -/
  | error
  deriving DecidableEq

/-- What `select` returns. -/
inductive SelectResult where
  /-- `-1`. -/
  | error
  /-- `0`. -/
  | timeout
  /-- The descriptor is ready. -/
  | ready
  deriving DecidableEq

/-- A call. The address that a call reads from or writes to is not one of its arguments: it is
accessed before (`access`). -/
inductive SysCall where
  | socket
  | setsockopt (fd : ℕ) (option : String)
  | getsockopt (fd : ℕ)
  | getFlags (fd : ℕ)
  | setFlags (fd : ℕ) (flags : ℕ)
  | bind (fd : ℕ)
  | listen (fd : ℕ)
  | accept (fd : ℕ)
  | connect (fd : ℕ)
  | select (fd : ℕ)
  | read (fd n : ℕ)
  | recv (fd n : ℕ)
  | write (fd : ℕ) (bytes : List UInt8)
  | send (fd : ℕ) (bytes : List UInt8)
  | shutdown (fd : ℕ)
  | close (fd : ℕ)
  /-- `malloc`, `calloc` and the allocation of `asprintf`. -/
  | malloc
  /-- The memory at an address is read or written. -/
  | access (p : ℕ)
  | free (p : ℕ)
  | pthreadCreate (place : Place)
  /-- A thread reads the flag of its service. -/
  | running (service : Service)
  /-- `server_running` when the Modbus server is started. -/
  | started
  /-- `time`. -/
  | time
  /-- `get_time_in_milliseconds`. -/
  | timeMs
  /-- `sleep` and `usleep`, in microseconds. -/
  | usleep (us : ℕ)
  /-- `modbus_tcp_poll_get_client_data_raw`: the heap, and the address and the contents of a copy. -/
  | clientDataRaw (address quantity : UInt16)
  /-- Whether an allocation succeeds of memory that is not followed. -/
  | allocate
  /-- The data with which `solar_logger_post_data` calls `db_handler_send_solar_values` next. -/
  | nextData
  /-- The bodies that `build_payload` prints from the values of the clients. -/
  | pages
  /-- `exit`. -/
  | exit
  /-- What is undefined. -/
  | undefined

/-- What a call returns: no value where it fails. -/
@[reducible] def SysCall.Ret : SysCall → Type
  | .socket | .accept _ | .malloc => Option ℕ
  | .setsockopt .. | .setFlags .. | .bind _ | .listen _ | .write .. | .send .. | .pthreadCreate _ | .running _
  | .started | .allocate => Bool
  | .getsockopt _ => Option ℤ
  | .getFlags _ => Option ℕ
  | .connect _ => ConnectResult
  | .select _ => SelectResult
  | .read _ n | .recv _ n => Option { bytes : List UInt8 // bytes.length ≤ n }
  | .shutdown _ | .close _ | .access _ | .free _ | .usleep _ => Unit
  | .time => ℤ
  | .timeMs => UInt64
  | .clientDataRaw .. => Option (ℕ × (ℕ → UInt8) × Copy)
  | .nextData => Option (List UInt8)
  | .pages => Http.Bodies
  | .exit | .undefined => Empty

/-- A program of the process. -/
abbrev Sys (α : Type) : Type := Program SysCall SysCall.Ret α

/-! ### Calls by their names -/

def socket : Sys (Option ℕ) := .call .socket .done

def setsockopt (fd : ℕ) (option : String) : Sys Bool := .call (.setsockopt fd option) .done

def getsockopt (fd : ℕ) : Sys (Option ℤ) := .call (.getsockopt fd) .done

def getFlags (fd : ℕ) : Sys (Option ℕ) := .call (.getFlags fd) .done

def setFlags (fd flags : ℕ) : Sys Bool := .call (.setFlags fd flags) .done

def bind (fd : ℕ) : Sys Bool := .call (.bind fd) .done

def listen (fd : ℕ) : Sys Bool := .call (.listen fd) .done

def accept (fd : ℕ) : Sys (Option ℕ) := .call (.accept fd) .done

def connect (fd : ℕ) : Sys ConnectResult := .call (.connect fd) .done

def select (fd : ℕ) : Sys SelectResult := .call (.select fd) .done

def read (fd n : ℕ) : Sys (Option { bytes : List UInt8 // bytes.length ≤ n }) := .call (.read fd n) .done

def recv (fd n : ℕ) : Sys (Option { bytes : List UInt8 // bytes.length ≤ n }) := .call (.recv fd n) .done

def write (fd : ℕ) (bytes : List UInt8) : Sys Bool := .call (.write fd bytes) .done

def send (fd : ℕ) (bytes : List UInt8) : Sys Bool := .call (.send fd bytes) .done

def shutdown (fd : ℕ) : Sys Unit := .call (.shutdown fd) .done

def close (fd : ℕ) : Sys Unit := .call (.close fd) .done

def malloc : Sys (Option ℕ) := .call .malloc .done

def access (p : ℕ) : Sys Unit := .call (.access p) .done

def free (p : ℕ) : Sys Unit := .call (.free p) .done

def pthreadCreate (place : Place) : Sys Bool := .call (.pthreadCreate place) .done

def running (service : Service) : Sys Bool := .call (.running service) .done

def started : Sys Bool := .call .started .done

def time : Sys ℤ := .call .time .done

def timeMs : Sys UInt64 := .call .timeMs .done

def usleep (us : ℕ) : Sys Unit := .call (.usleep us) .done

/-- `sleep`. -/
def sleep (s : ℕ) : Sys Unit := usleep (s * 1000000)

def clientDataRaw (address quantity : UInt16) : Sys (Option (ℕ × (ℕ → UInt8) × Copy)) :=
  .call (.clientDataRaw address quantity) .done

def allocate : Sys Bool := .call .allocate .done

def nextData : Sys (Option (List UInt8)) := .call .nextData .done

def pages : Sys Http.Bodies := .call .pages .done

/-- `exit`. -/
def exit {α : Type} : Sys α := .call .exit Empty.elim

/-- What is undefined does not return. -/
def undefined {α : Type} : Sys α := .call .undefined Empty.elim

/-- `FREE_MEM`. -/
def freeMem : Option ℕ → Sys Unit
  | none => pure ()
  | some p => free p

/-- What a call has written. -/
def written? : Event SysCall SysCall.Ret → Option (List UInt8)
  | ⟨.write _ bytes, _⟩ => some bytes
  | _ => none

/-! ### Handles -/

/-- A handle. -/
inductive Handle where
  /-- A descriptor. -/
  | fd (n : ℕ)
  /-- An allocated address. -/
  | mem (p : ℕ)
  deriving DecidableEq

/-- The handles of a place, where its thread begins a round. -/
def Place.holds : Place → Set Handle
  | .main | .pollingThread .. | .polling _ | .posting .. => ∅
  | .modbusServer arg _ => {.mem arg}
  | .modbusAccept serverFd => {.fd serverFd}
  | .modbusClient client clientFd _ => {.fd clientFd} ∪ {.mem client}
  | .httpAccept serverSock => {.fd serverSock}
  | .httpRequest arg clientSock => {.fd clientSock} ∪ {.mem arg}

/-- The handles that a call names. -/
def SysCall.uses : SysCall → Set Handle
  | .setsockopt fd _ | .getsockopt fd | .getFlags fd | .setFlags fd _ | .bind fd | .listen fd | .accept fd | .connect fd
  | .select fd | .read fd _ | .recv fd _ | .write fd _ | .send fd _ | .shutdown fd | .close fd => {.fd fd}
  | .access p | .free p => {.mem p}
  | .pthreadCreate place => place.holds
  | _ => ∅

/-- The handles that a call closes. -/
def SysCall.closes : SysCall → Set Handle
  | .close fd => {.fd fd}
  | .free p => {.mem p}
  | _ => ∅

/-- The handles that a call passes to a thread. -/
def passes : (op : SysCall) → op.Ret → Set Handle
  | .pthreadCreate place, true => place.holds
  | _, _ => ∅

/-- The handles that a call returns. -/
def opens : (op : SysCall) → op.Ret → Set Handle
  | .socket, some fd => {.fd fd}
  | .accept _, some fd => {.fd fd}
  | .malloc, some p => {.mem p}
  | .clientDataRaw .., some (p, _) => {.mem p}
  | _, _ => ∅

/-- The flags that the threads read, until the services are stopped. -/
def returns (stopping : Bool) : (op : SysCall) → op.Ret → Prop
  | .running _, running => stopping = true ∨ running = true
  | _, _ => True

theorem closes_subset (op : SysCall) : op.closes ⊆ op.uses := by
  cases op <;> first | exact Set.empty_subset _ | exact subset_rfl

theorem passes_subset (op : SysCall) (r : op.Ret) : passes op r ⊆ op.uses := by
  cases op
  case pthreadCreate place =>
    cases r with
    | true => exact subset_rfl
    | false => exact Set.empty_subset _
  all_goals exact Set.empty_subset _

theorem disjoint_closes_passes (op : SysCall) (r : op.Ret) : Disjoint op.closes (passes op r) := by
  cases op
  case pthreadCreate place => exact Set.empty_disjoint _
  all_goals exact Set.disjoint_empty _

/-- What the calls do with handles, while the services run or, else, while they may be stopped. -/
def rules (stopping : Bool) : Rules SysCall SysCall.Ret Handle where
  returns := returns stopping
  uses := SysCall.uses
  closes op _ := op.closes
  passes := passes
  opens := opens
  closes_subset op _ := closes_subset op
  passes_subset := passes_subset
  disjoint := disjoint_closes_passes

/-! ### Rules of the calls -/

section Owned

variable {α : Type} {stopping : Bool} {held : Set Handle} {post : α → Set Handle → Prop}

/-- The calls that return no handle, close none and pass none on. -/
def SysCall.quiet : SysCall → Bool
  | .socket | .accept _ | .malloc | .clientDataRaw .. | .close _ | .free _ | .pthreadCreate _ => false
  | _ => true

theorem after_of_quiet {op : SysCall} (h : op.quiet = true) (r : op.Ret) (held : Set Handle) :
    (rules stopping).after op r held = held := by
  have hclosed : (held \ (∅ ∪ ∅)) ∪ ∅ = held := by rw [Set.union_empty, Set.union_empty, Set.sdiff_empty]
  cases op <;> first | exact hclosed | cases h

section Opens

variable {next : Option ℕ → Sys α}

end Opens

/-- At the end of a round, what belongs to the place is held. -/
abbrev RoundHeld : Option Place → Set Handle → Prop := Threads.RoundPost Place.holds

end Owned

end ModbusProxy.Process
