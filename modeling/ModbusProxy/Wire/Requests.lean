import ModbusProxy.Library.Framing
import ModbusProxy.Wire.Server

/-!
# A stream of requests on a proxy connection

`client_thread` calls `handle_modbus_request` again and again, and each call treats what
one `read` returns as one request: fewer than twelve bytes are dropped, and so is what
follows the first twelve. TCP keeps no such boundaries.

## The model

A `Read` is one such call: the bytes that the `read` returned, and the registry, its
caches and the heap at that moment. The polling threads run between the calls, so these
may differ from call to call in any way. `client_thread` closes a connection after a
minute without data; a run here is a connection that stays open.

## What is proved

`one_per_request_iff`: for a stream of well-formed requests, the frames written are one
for each request, in order (`OnePerRequest`), exactly if every `read` returned one request.
-/

namespace ModbusProxy.Wire

open Framing Memory ModbusProxy.Poll

/-- One call of `handle_modbus_request` in which `read` returned data. -/
structure Read where
  /-- The bytes that it returned. -/
  chunk : List UInt8
  /-- There are some. -/
  nonempty : chunk ≠ []
  /-- They fit the buffer. -/
  fits : chunk.length ≤ bufferSize
  /-- The registry and the caches at that moment. -/
  world : World
  /-- What the heap holds behind the buffers. -/
  heap : ℕ → UInt8

/-- The frame that a call writes, if it writes one. -/
def Read.frame? (x : Read) : Option (List UInt8) := handleModbusRequest x.world x.heap x.chunk

/-- The frames written in a sequence of calls. -/
def framesWritten (reads : List Read) : List (List UInt8) := reads.filterMap Read.frame?

/-- A well-formed function-3 request. -/
structure Request where
  /-- Its transaction id. -/
  transactionId : UInt16
  /-- Its unit id. -/
  unitId : UInt8
  /-- The first register. -/
  startAddress : UInt16
  /-- How many registers. -/
  quantity : UInt16

/-- The twelve bytes of a request. -/
def Request.bytes (r : Request) : List UInt8 :=
  buildModbusRequest
    { transactionId := r.transactionId, messageSize := 6, unitId := r.unitId, functionCode := 0x03
      startReg := r.startAddress, numRegs := r.quantity }

/-- The frame answers the request at one of the calls. -/
structure Answers (reads : List Read) (r : Request) (frame : List UInt8) : Prop where
  /-- It echoes the transaction id. -/
  transactionId : be16 (frame.getD 0 0) (frame.getD 1 0) = r.transactionId
  /-- It echoes the unit id. -/
  unitId : frame.getD 6 0 = r.unitId
  /-- It is the answer for the registers of the request, from the cache at that call. -/
  range : ∃ x ∈ reads, frame = answer x.heap r.bytes
    (modbusTcpPollGetClientDataRaw x.world .huawei r.startAddress r.quantity)

/-- The frames written are one for each request, in the order of the requests. -/
def OnePerRequest (reqs : List Request) (reads : List Read) : Prop :=
  List.Forall₂ (Answers reads) reqs (framesWritten reads)

theorem Request.length_bytes (r : Request) : r.bytes.length = 12 := rfl

theorem Request.fields (r : Request) :
    requestFields r.bytes =
      { transactionId := r.transactionId, protocolId := 0, length := 6, unitId := r.unitId, functionCode := 0x03
        startAddress := r.startAddress, quantity := r.quantity } :=
  requestFields_build _

theorem Request.isRequest (r : Request) : IsRequest r.bytes r.startAddress r.quantity := by
  refine ⟨Nat.le_refl 12, ?_, ?_, ?_, ?_⟩ <;> rw [Request.fields]

/-- A frame takes twelve bytes. -/
theorem Read.twelve_le {x : Read} {frame : List UInt8} (h : x.frame? = some frame) : 12 ≤ x.chunk.length := by
  unfold Read.frame? handleModbusRequest at h
  by_contra hlt
  rw [if_pos (by omega)] at h
  cases h

/-- A call whose `read` returns one request answers it. -/
theorem Read.frame_of_request {x : Read} {r : Request} (h : x.chunk = r.bytes) :
    x.frame? = some (answer x.heap r.bytes (modbusTcpPollGetClientDataRaw x.world .huawei r.startAddress r.quantity)) := by
  rw [Read.frame?, h, handle_eq r.isRequest]

/-- The answer to a request echoes its transaction id and its unit id. -/
theorem answers_of_mem {reads : List Read} {x : Read} (hx : x ∈ reads) (r : Request) :
    Answers reads r
      (answer x.heap r.bytes (modbusTcpPollGetClientDataRaw x.world .huawei r.startAddress r.quantity)) := by
  have hid : be16 (r.bytes.getD 0 0) (r.bytes.getD 1 0) = r.transactionId := be16_hi_lo r.transactionId
  refine ⟨?_, ?_, x, hx, rfl⟩
  · cases modbusTcpPollGetClientDataRaw x.world .huawei r.startAddress r.quantity <;> exact hid
  · cases modbusTcpPollGetClientDataRaw x.world .huawei r.startAddress r.quantity <;> rfl

/-- Calls whose `read`s return the requests one by one answer them one by one. -/
theorem onePerRequest_of_chunks {reqs : List Request} {all reads : List Read} (hsub : reads ⊆ all)
    (h : reads.map Read.chunk = reqs.map Request.bytes) :
    List.Forall₂ (Answers all) reqs (framesWritten reads) := by
  induction reads generalizing reqs with
  | nil =>
    rw [List.map_nil, eq_comm, List.map_eq_nil_iff] at h
    rw [h]
    exact .nil
  | cons x xs ih =>
    cases reqs with
    | nil => simp at h
    | cons r rs =>
      rw [List.map_cons, List.map_cons, List.cons.injEq] at h
      obtain ⟨hx, hxs⟩ := h
      rw [framesWritten, List.filterMap_cons_some (Read.frame_of_request hx)]
      refine .cons (answers_of_mem (hsub (List.mem_cons_self ..)) r) ?_
      exact ih (fun y hy => hsub (List.mem_cons_of_mem _ hy)) hxs

/-- **One response per request, exactly.** Let the chunks returned by the `read`s of a
connection be a stream of requests, cut anywhere. The frames written are one for each
request, in order, if and only if every chunk has twelve bytes. -/
theorem one_per_request_iff (reqs : List Request) (reads : List Read)
    (hstream : (reads.map Read.chunk).flatten = (reqs.map Request.bytes).flatten) :
    OnePerRequest reqs reads ↔ ∀ x ∈ reads, x.chunk.length = 12 := by
  have htwelve : ∀ b ∈ reqs.map Request.bytes, b.length = 12 := by
    intro b hb
    obtain ⟨r, -, rfl⟩ := List.mem_map.mp hb
    exact r.length_bytes
  constructor
  · intro h
    have hcount : (reads.filterMap Read.frame?).length = reqs.length := h.length_eq.symm
    refine length_eq_of_mul_length_filterMap (f := Read.frame?) (fun x b hx => Read.twelve_le hx)
      (fun x _ => x.nonempty) ?_
    rw [hstream, length_flatten_of_length_eq htwelve, hcount, List.length_map]
  · intro h
    refine onePerRequest_of_chunks (List.Subset.refl _) ?_
    refine eq_of_flatten_eq (n := 12) (by decide) ?_ htwelve hstream
    simpa using h

/-- A request for the four registers of a block. -/
def sampleRequest : Request := ⟨7, 1, 47086, 4⟩

/-- A call that finds two requests at once. -/
def mergedRead : Read where
  chunk := sampleRequest.bytes ++ sampleRequest.bytes
  nonempty := by decide
  fits := by decide
  world := .init
  heap := fun _ => 0

/-- One request at a time is answered. -/
theorem one_per_request_single :
    let single : Read := { mergedRead with chunk := sampleRequest.bytes, nonempty := by decide, fits := by decide }
    OnePerRequest [sampleRequest, sampleRequest] [single, single] := by
  intro single
  refine (one_per_request_iff [sampleRequest, sampleRequest] [single, single] rfl).mpr fun x hx => ?_
  rw [List.eq_of_mem_replicate (n := 2) hx]
  rfl

/-- Two requests that arrive in one segment get one answer. -/
theorem not_one_per_request :
    ¬ ∀ (reqs : List Request) (reads : List Read),
      (reads.map Read.chunk).flatten = (reqs.map Request.bytes).flatten → OnePerRequest reqs reads := by
  intro h
  have hcount := (h [sampleRequest, sampleRequest] [mergedRead] rfl).length_eq
  have hle := List.length_filterMap_le Read.frame? [mergedRead]
  rw [framesWritten] at hcount
  simp only [List.length_cons, List.length_nil] at hcount hle
  omega

end ModbusProxy.Wire
