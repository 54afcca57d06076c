import Mathlib.Data.List.GetD
import ModbusProxy.Library.Memory

/-!
# The Modbus client

`modbus_tcp_client.c` builds a request of twelve bytes, sends it, and judges what one
`recv` delivers by its length and the top bit of the function code. The transaction id
is always zero, and neither it nor any other field of the reply is compared.

## The model

A request is the list of its bytes. What `recv` returns is an input: nothing where it
returned `-1`, else the bytes that it stored in `rec_buf`, which had been cleared.

## What is proved

`readRaw_eq_some_iff`: `modbus_tcp_client_read_raw` returns `MODBUS_OK` exactly for the
chunks that it accepts (`Accepts`), and then copies what follows their first nine bytes.
-/

namespace ModbusProxy.Wire

open Memory

/-! ### Requests -/

/-- `modbus_request_t`. -/
structure ModbusRequest where
  /-- `transaction_id`. -/
  transactionId : UInt16
  /-- `message_size`. -/
  messageSize : UInt16
  /-- `unit_id`. -/
  unitId : UInt8
  /-- `function_code`. -/
  functionCode : UInt8
  /-- `start_reg`. -/
  startReg : UInt16
  /-- `num_regs`. -/
  numRegs : UInt16

/-- `build_modbus_request`: the bytes that it writes to `req_buf`. -/
def buildModbusRequest (request : ModbusRequest) : List UInt8 :=
  [hi request.transactionId, lo request.transactionId, 0x00, 0x00, hi request.messageSize, lo request.messageSize,
    request.unitId, request.functionCode, hi request.startReg, lo request.startReg, hi request.numRegs,
    lo request.numRegs]

/-- `send_register_request`: the bytes that it sends. -/
def sendRegisterRequest (unitId : UInt8) (startReg : UInt16) (numRegs : UInt8) (functionCode : UInt8) :
    List UInt8 :=
  buildModbusRequest
    { messageSize := 12 - 6, unitId := unitId, functionCode := functionCode, startReg := startReg
      numRegs := numRegs.toUInt16, transactionId := 0x00 }

/-! ### Replies -/

/-- `MB_RECV_BUFFER_SIZE`. -/
def recvBufferSize : ℕ := 256

/-- `MB_MIN_RESPONSE_MSG_LENGTH`. -/
def minResponseMsgLength : ℕ := 9

/-- `get_register_values`, after its request was sent: `rec_buf`, if it returns
`MODBUS_OK`. -/
def getRegisterValues (numRegs : UInt8) (received : Option (List UInt8)) : Option (List UInt8) :=
  match received with
  | none => none
  | some bytes =>
    let recBuf := overwrite (List.replicate recvBufferSize 0) bytes
    if bytes.length < minResponseMsgLength then none
    else if recBuf.getD 7 0 &&& 0x80 ≠ 0 then none
    else if bytes.length ≠ minResponseMsgLength + 2 * numRegs.toNat then none
    else some recBuf

/-- `modbus_tcp_client_read_raw`, after its request was sent: the bytes that it copies to
`data`, if it returns `MODBUS_OK`. -/
def modbusTcpClientReadRaw (numRegs : UInt8) (received : Option (List UInt8)) : Option (List UInt8) :=
  (getRegisterValues numRegs received).map fun recBuf =>
    (List.range numRegs.toNat).flatMap fun i =>
      [recBuf.getD (minResponseMsgLength + i * 2) 0, recBuf.getD (minResponseMsgLength + i * 2 + 1) 0]

/-! ### Which replies are accepted -/

/-- The chunk has the length of a reply with `numRegs` registers, and the byte where such
a reply has its function code does not say that it is an exception. -/
def Accepts (numRegs : UInt8) (bytes : List UInt8) : Prop :=
  bytes.length = minResponseMsgLength + 2 * numRegs.toNat ∧ bytes.getD 7 0 &&& 0x80 = 0

instance (numRegs : UInt8) (bytes : List UInt8) : Decidable (Accepts numRegs bytes) :=
  inferInstanceAs (Decidable (_ ∧ _))

/-- The bytes stored by `recv` are the front of the buffer. -/
theorem getD_recBuf {bytes : List UInt8} {k : ℕ} (hk : k < bytes.length) :
    (overwrite (List.replicate recvBufferSize 0) bytes).getD k 0 = bytes.getD k 0 := by
  rw [overwrite, List.getD_append _ _ _ _ hk]

theorem getRegisterValues_eq_some_iff {n : UInt8} {bytes buf : List UInt8} :
    getRegisterValues n (some bytes) = some buf ↔
      Accepts n bytes ∧ buf = overwrite (List.replicate recvBufferSize 0) bytes := by
  have hmin : minResponseMsgLength = 9 := rfl
  unfold getRegisterValues Accepts
  by_cases hshort : bytes.length < minResponseMsgLength
  · simp only [if_pos hshort]
    constructor
    · rintro ⟨⟩
    · rintro ⟨⟨hlen, -⟩, -⟩
      omega
  · simp only [if_neg hshort, getD_recBuf (show 7 < bytes.length by omega)]
    generalize bytes.getD 7 0 &&& 0x80 = top
    by_cases hexc : top = 0
    · by_cases hlen : bytes.length = minResponseMsgLength + 2 * n.toNat
      · simp [hexc, hlen, eq_comm]
      · simp [hlen]
    · simp [hexc]

theorem map_getD_range {bytes : List UInt8} {n : ℕ} (h : bytes.length = n) :
    (List.range n).map (fun k => bytes.getD k 0) = bytes := by
  apply List.ext_getElem
  · simp [h]
  · intro k hk hk'
    simp [hk']

/-- What follows the first nine bytes of an accepted chunk, by its place in the buffer. -/
theorem map_recBuf {n : UInt8} {bytes : List UInt8} (h : bytes.length = minResponseMsgLength + 2 * n.toNat) :
    ((List.range (2 * n.toNat)).map fun k =>
      (overwrite (List.replicate recvBufferSize 0) bytes).getD (minResponseMsgLength + k) 0) =
      bytes.drop minResponseMsgLength := by
  have hlen : (bytes.drop minResponseMsgLength).length = 2 * n.toNat := by
    rw [List.length_drop, h]
    omega
  rw [← map_getD_range hlen]
  apply List.map_congr_left
  intro k hk
  rw [List.mem_range] at hk
  rw [getD_recBuf (by omega)]
  simp [List.getD_eq_getElem?_getD]

/-- From an accepted chunk, the loop copies what follows the first nine bytes. -/
theorem copied_eq_drop {n : UInt8} {bytes : List UInt8} (h : bytes.length = minResponseMsgLength + 2 * n.toNat) :
    ((List.range n.toNat).flatMap fun i =>
      [(overwrite (List.replicate recvBufferSize 0) bytes).getD (minResponseMsgLength + i * 2) 0,
        (overwrite (List.replicate recvBufferSize 0) bytes).getD (minResponseMsgLength + i * 2 + 1) 0]) =
      bytes.drop minResponseMsgLength := by
  rw [← map_recBuf h, ← flatMap_pairs]
  simp only [Nat.add_assoc]

/-- **What a read of the client returns.** -/
theorem readRaw_eq_some_iff {n : UInt8} {bytes d : List UInt8} :
    modbusTcpClientReadRaw n (some bytes) = some d ↔ Accepts n bytes ∧ d = bytes.drop minResponseMsgLength := by
  unfold modbusTcpClientReadRaw
  rw [Option.map_eq_some_iff]
  simp only [getRegisterValues_eq_some_iff]
  constructor
  · rintro ⟨buf, ⟨hacc, rfl⟩, rfl⟩
    exact ⟨hacc, copied_eq_drop hacc.1⟩
  · rintro ⟨hacc, rfl⟩
    exact ⟨_, ⟨hacc, rfl⟩, copied_eq_drop hacc.1⟩

theorem length_readRaw {n : UInt8} {received : Option (List UInt8)} {d : List UInt8}
    (h : modbusTcpClientReadRaw n received = some d) : d.length = 2 * n.toNat := by
  cases received with
  | none => cases h
  | some bytes =>
    obtain ⟨⟨hlen, -⟩, rfl⟩ := readRaw_eq_some_iff.mp h
    rw [List.length_drop, hlen]
    omega

end ModbusProxy.Wire
