import ModbusProxy.Wire.Server

/-!
# The client against the server

The program has both sides of the protocol: a client that polls devices and a server
that answers from the cache. This module sends the client's own request to the server
and the server's frame back to the client.

## What is proved

`agrees_iff`: the two agree (`Agrees`) exactly if the count is at most 123 or the server
has no data. From 124 registers on the frame no longer fits the 256
bytes of a `recv`, from 128 on the byte count no longer fits its byte. No polled block
is that long, but the lookup, which takes a number of bytes for a number of registers,
serves ranges up to twice as long as a block (`Overlong`).
-/

namespace ModbusProxy.Wire

open Memory ModbusProxy.Poll Runs

/-- What the frame says of itself, and what the client makes of it, when the server looked
up `found` for a request of `numRegs` registers. -/
structure FrameAgrees (heap : ℕ → UInt8) (numRegs : UInt8) (found : Option Copy) (frame : List UInt8) : Prop where
  /-- The MBAP length is the number of bytes that follow it. -/
  length : (be16 (frame.getD 4 0) (frame.getD 5 0)).toNat = frame.length - 6
  /-- In a normal frame the byte count is the number of data bytes. -/
  byteCount : frame.getD 7 0 = 0x03 → (frame.getD 8 0).toNat = (frame.drop 9).length
  /-- The client returns `MODBUS_OK` exactly if the server found data. -/
  ok : (modbusTcpClientReadRaw numRegs (some (frame.take recvBufferSize))).isSome ↔ found.isSome
  /-- It delivers the bytes that the server looked up. -/
  delivered : ∀ d, modbusTcpClientReadRaw numRegs (some (frame.take recvBufferSize)) = some d →
    ∃ m, found = some m ∧ d = m.bytes heap
  /-- It returns `MODBUS_ERR` on an exception frame. -/
  error : frame.getD 7 0 = 0x83 → modbusTcpClientReadRaw numRegs (some (frame.take recvBufferSize)) = none

/-- **Client and server agree on a request.** -/
structure Agrees (w : World) (heap : ℕ → UInt8) (unitId : UInt8) (startReg : UInt16) (numRegs : UInt8) : Prop where
  /-- The server reads the unit, the function, the start and the count of the client. -/
  decoded : let fields := requestFields (sendRegisterRequest unitId startReg numRegs 0x03)
    fields.unitId = unitId ∧ fields.functionCode = 0x03 ∧ fields.startAddress = startReg ∧
      fields.quantity = numRegs.toUInt16
  /-- It answers with a frame on which the two agree. -/
  answered : ∃ frame, handleModbusRequest w heap (sendRegisterRequest unitId startReg numRegs 0x03) = some frame ∧
    FrameAgrees heap numRegs (modbusTcpPollGetClientDataRaw w .huawei startReg numRegs.toUInt16) frame

/-! ### The request -/

theorem requestFields_send (unitId : UInt8) (startReg : UInt16) (numRegs functionCode : UInt8) :
    requestFields (sendRegisterRequest unitId startReg numRegs functionCode) =
      { transactionId := 0, protocolId := 0, length := 6, unitId := unitId, functionCode := functionCode
        startAddress := startReg, quantity := numRegs.toUInt16 } :=
  requestFields_build _

theorem isRequest_send (unitId : UInt8) (startReg : UInt16) (numRegs : UInt8) :
    IsRequest (sendRegisterRequest unitId startReg numRegs 0x03) startReg numRegs.toUInt16 := by
  refine ⟨Nat.le_refl 12, ?_, ?_, ?_, ?_⟩ <;> rw [requestFields_send]

/-! ### The frames -/

/-- An exception frame is always understood. -/
theorem errorResponse_agrees {heap : ℕ → UInt8} {buffer : List UInt8} (numRegs : UInt8)
    (hfc : (requestFields buffer).functionCode = 0x03) : FrameAgrees heap numRegs none (errorResponse buffer) := by
  have hread : modbusTcpClientReadRaw numRegs (some ((errorResponse buffer).take recvBufferSize)) = none := by
    rw [Option.eq_none_iff_forall_not_mem]
    intro d hd
    have htop : ((3 : UInt8) ||| 0x80) &&& 0x80 ≠ 0 := by decide
    have hacc := (readRaw_eq_some_iff.mp hd).1.2
    simp only [errorResponse, recvBufferSize, hfc] at hacc
    exact htop (by simpa using hacc)
  refine ⟨?_, fun h => ?_, by simp [hread], fun d hd => ?_, fun _ => hread⟩
  · rw [toNat_be16]
    rfl
  · have hne : (3 : UInt8) ||| 0x80 ≠ 0x03 := by decide
    exact absurd h (by simpa [errorResponse, hfc] using hne)
  · rw [hread] at hd
    cases hd

section Response

variable (heap : ℕ → UInt8) (buffer : List UInt8) {numRegs : UInt8} {m : Copy}

theorem toNat_outLength (hm : m.size = 2 * numRegs.toNat) : (outLength m).toNat = 2 * numRegs.toNat := by
  have := numRegs.toNat_lt
  rw [outLength, UInt16.toNat_ofNat']
  omega

/-- After the nine bytes of its header, a normal answer has all the data. -/
theorem drop_response (hm : m.size = 2 * numRegs.toNat) : (response heap buffer m).drop 9 = m.bytes heap := by
  simp only [response, toNat_outLength hm, List.cons_append, List.nil_append, List.drop_succ_cons, List.drop_zero]
  exact List.take_of_length_le (by rw [Copy.length_bytes, hm])

theorem length_response (hm : m.size = 2 * numRegs.toNat) :
    (response heap buffer m).length = 9 + 2 * numRegs.toNat := by
  have hdrop := congrArg List.length (drop_response heap buffer hm)
  rw [List.length_drop, Copy.length_bytes, hm] at hdrop
  have hnine : 9 ≤ (response heap buffer m).length := by simp [response]
  omega

variable {buffer}

/-- What the client makes of a normal answer. -/
theorem readRaw_response (hfc : (requestFields buffer).functionCode = 0x03) (hm : m.size = 2 * numRegs.toNat) :
    modbusTcpClientReadRaw numRegs (some ((response heap buffer m).take recvBufferSize)) =
      if numRegs.toNat ≤ 123 then some (m.bytes heap) else none := by
  have hlen := length_response heap buffer hm
  have hmin : minResponseMsgLength = 9 := rfl
  have hsize : recvBufferSize = 256 := rfl
  split
  · rename_i hle
    rw [List.take_of_length_le (by omega), readRaw_eq_some_iff]
    have htop : (3 : UInt8) &&& 0x80 = 0 := by decide
    exact ⟨⟨hlen, by simpa [response, hfc] using htop⟩, (drop_response heap buffer hm).symm⟩
  · rw [Option.eq_none_iff_forall_not_mem]
    intro d hd
    have hacc := (readRaw_eq_some_iff.mp hd).1.1
    rw [List.length_take] at hacc
    omega

/-- The two agree on a normal answer exactly if it has at most 123 registers. -/
theorem response_agrees_iff (hfc : (requestFields buffer).functionCode = 0x03) (hm : m.size = 2 * numRegs.toNat) :
    FrameAgrees heap numRegs (some m) (response heap buffer m) ↔ numRegs.toNat ≤ 123 := by
  have hread := readRaw_response heap hfc hm
  constructor
  · intro h
    by_contra hgt
    rw [if_neg hgt] at hread
    have hok := h.ok
    rw [hread] at hok
    simp at hok
  · intro hle
    rw [if_pos hle] at hread
    refine ⟨?_, fun _ => ?_, by simp [hread], fun d hd => ?_, fun h => ?_⟩
    · rw [length_response heap buffer hm, toNat_be16]
      simp only [response, toNat_outLength hm, List.cons_append, List.getD_cons_succ, List.getD_cons_zero,
        UInt8.toNat_ofNat', Nat.shiftRight_eq_div_pow]
      omega
    · rw [drop_response heap buffer hm, Copy.length_bytes, hm]
      simp only [response, toNat_outLength hm, List.cons_append, List.getD_cons_succ, List.getD_cons_zero,
        UInt8.toNat_ofNat']
      omega
    · rw [hread, Option.some.injEq] at hd
      exact ⟨m, rfl, hd.symm⟩
    · simp only [response, hfc, List.cons_append, List.getD_cons_succ, List.getD_cons_zero] at h
      exact absurd h (by decide)

end Response

/-! ### What the lookup serves -/

/-- Some block of the Huawei client has cached data and would hold the range if it were
twice as long. -/
def Overlong (w : World) (a q : UInt16) : Prop :=
  ∃ c, w.findClient .huawei = some c ∧ ∃ i < c.numRegisters, (c.pollData i).data.isSome ∧ Doubled (c.table.block i) a q

/-- No two doubled blocks of the Huawei table share 124 registers. -/
theorem huawei_doubled : ∀ i < huaweiRegisters.size, ∀ j < huaweiRegisters.size, i ≠ j →
    min ((huaweiRegisters.block i).address.toNat + 2 * (huaweiRegisters.block i).length.toNat)
        ((huaweiRegisters.block j).address.toNat + 2 * (huaweiRegisters.block j).length.toNat) <
      max (huaweiRegisters.block i).address.toNat (huaweiRegisters.block j).address.toNat + 124 := by decide

/-- A range that an entry admits lies in the doubled block. -/
theorem Admits.doubled {T : RegisterTable} {c : PollingClient} (hc : WellFormed T c) {a q : UInt16} {i : ℕ}
    (h : Admits c a q i) : Doubled (T.block i) a q := by
  obtain ⟨hi, h1, h2, -⟩ := h
  rw [PollingClient.numRegisters, hc.table] at hi
  rw [hc.table] at h1 h2
  refine ⟨h1, ?_⟩
  rcases (hc.entry i hi).length with hlen | hlen
  · rw [hlen, UInt16.toNat_zero] at h2
    omega
  · omega

/-- From 124 registers on, the lookup of a Huawei cache yields data exactly for the ranges
of the doubled blocks with cached data. -/
theorem raw_isSome_iff_doubled {c : PollingClient} (hc : WellFormed huaweiRegisters c) {a q : UInt16}
    (hq : 123 < q.toNat) :
    (modbusTcpGetPollDataRaw c a q).isSome ↔
      ∃ i < c.numRegisters, (c.pollData i).data.isSome ∧ Doubled (c.table.block i) a q := by
  simp only [raw_isSome_iff hc, firstReach_iff hc]
  constructor
  · rintro ⟨i, ⟨hadmits, -⟩, hcached⟩
    exact ⟨i, hadmits.block, hcached, hc.table ▸ hadmits.doubled hc⟩
  · rintro ⟨i, hi, hcached, hdoubled⟩
    have hi' : i < huaweiRegisters.size := by rwa [PollingClient.numRegisters, hc.table] at hi
    have hhuawei : PollType.huawei.registers? = some huaweiRegisters := rfl
    have hend := (doubled_of_wellFormed hhuawei hc hi).1
    refine ⟨i, ⟨(admits_iff_doubled hc hi hcached hend).mpr hdoubled, fun j hj hadmits => ?_⟩, hcached⟩
    -- a second doubled block would share the range, which is too long for that
    rw [hc.table] at hdoubled
    obtain ⟨h1, h2⟩ := hdoubled
    obtain ⟨h1', h2'⟩ := hadmits.doubled hc
    have hshare := huawei_doubled i hi' j (Nat.lt_trans hj hi') (by omega)
    omega

theorem raw_size {c : PollingClient} {a q : UInt16} {m : Copy} (h : modbusTcpGetPollDataRaw c a q = some m) :
    m.size = 2 * q.toNat := by
  unfold modbusTcpGetPollDataRaw at h
  cases hs : rawSearch c a q with
  | none => simp [hs] at h
  | some i =>
    cases hd : (c.pollData i).data with
    | none => simp [hs, hd] at h
    | some buf =>
      simp only [hs, hd, Option.some.injEq] at h
      rw [← h]
      exact Nat.mul_comm ..

/-- From 124 registers on, the server finds data exactly for the ranges that are overlong. -/
theorem found_isSome_iff_overlong (evs : List Event) {a q : UInt16} (hq : 123 < q.toNat) :
    (modbusTcpPollGetClientDataRaw (run World.step .init evs) .huawei a q).isSome ↔
      Overlong (run World.step .init evs) a q := by
  unfold modbusTcpPollGetClientDataRaw Overlong
  cases hfind : (run World.step .init evs).findClient .huawei with
  | none => simp
  | some c =>
    obtain ⟨T, hT, hreach⟩ := findClient_reachable evs .huawei hfind
    cases hT
    simp only [Option.bind_some, Option.some.injEq, exists_eq_left']
    exact raw_isSome_iff_doubled hreach.wellFormed hq

/-- Client and server agree on a request exactly if they agree on the frame. -/
theorem agrees_iff_answer {w : World} {heap : ℕ → UInt8} {unitId : UInt8} {startReg : UInt16} {numRegs : UInt8} :
    Agrees w heap unitId startReg numRegs ↔
      FrameAgrees heap numRegs (modbusTcpPollGetClientDataRaw w .huawei startReg numRegs.toUInt16)
        (answer heap (sendRegisterRequest unitId startReg numRegs 0x03)
          (modbusTcpPollGetClientDataRaw w .huawei startReg numRegs.toUInt16)) := by
  have hreq := isRequest_send unitId startReg numRegs
  constructor
  · rintro ⟨-, frame, hframe, hagrees⟩
    rw [handle_eq hreq, Option.some.injEq] at hframe
    rwa [hframe]
  · refine fun h => ⟨?_, _, handle_eq hreq, h⟩
    rw [requestFields_send]
    exact ⟨rfl, rfl, rfl, rfl⟩

/-- They agree on the answer with data exactly if it has at most 123 registers. -/
theorem agrees_iff_of_found {w : World} {heap : ℕ → UInt8} {unitId : UInt8} {startReg : UInt16} {numRegs : UInt8}
    (hfound : (modbusTcpPollGetClientDataRaw w .huawei startReg numRegs.toUInt16).isSome) :
    Agrees w heap unitId startReg numRegs ↔ numRegs.toNat ≤ 123 := by
  obtain ⟨m, hm⟩ := Option.isSome_iff_exists.mp hfound
  obtain ⟨c, -, hraw⟩ := Option.bind_eq_some_iff.mp hm
  have hsize := raw_size hraw
  rw [UInt8.toNat_toUInt16] at hsize
  rw [agrees_iff_answer, hm]
  exact response_agrees_iff heap (isRequest_send unitId startReg numRegs).function hsize

/-- **Agreement, exactly.** In every run, for every unit, start and count, client and
server agree if and only if the count is at most 123 or no block with cached data, were it
twice as long, would hold the range. -/
theorem agrees_iff (evs : List Event) (heap : ℕ → UInt8) (unitId : UInt8) (startReg : UInt16) (numRegs : UInt8) :
    Agrees (run World.step .init evs) heap unitId startReg numRegs ↔
      numRegs.toNat ≤ 123 ∨ ¬ Overlong (run World.step .init evs) startReg numRegs.toUInt16 := by
  have hoverlong : 123 < numRegs.toNat → _ := fun hlt =>
    found_isSome_iff_overlong evs (a := startReg) (q := numRegs.toUInt16) (by simpa using hlt)
  by_cases hfound : (modbusTcpPollGetClientDataRaw (run World.step .init evs) .huawei startReg
    numRegs.toUInt16).isSome
  · rw [agrees_iff_of_found hfound]
    constructor
    · exact .inl
    · rintro (hle | hnot)
      · exact hle
      · by_contra hgt
        exact hnot ((hoverlong (by omega)).mp hfound)
  · refine iff_of_true ?_ ?_
    · rw [agrees_iff_answer, Option.not_isSome_iff_eq_none.mp hfound]
      exact errorResponse_agrees numRegs (isRequest_send unitId startReg numRegs).function
    · by_cases hle : numRegs.toNat ≤ 123
      · exact .inl hle
      · exact .inr fun h => hfound ((hoverlong (by omega)).mpr h)

/-- With the block at 32016 polled, the client's own request for 124 registers from there
on is answered with a frame that the client rejects. -/
theorem not_agrees :
    ¬ ∀ (evs : List Event) (heap : ℕ → UInt8) (unitId : UInt8) (startReg : UInt16) (numRegs : UInt8),
      Agrees (run World.step .init evs) heap unitId startReg numRegs := by
  intro h
  let polled : BlockPoll :=
    { block := 2
      reply := fun b => ⟨some (zeroBytes b), (by rintro p hp; cases hp; exact length_zeroBytes b), true⟩ }
  have hagrees := h [.startClient .huawei "192.168.8.85" 502, .poll 0 polled] (fun _ => 0) 1 32016 124
  rw [agrees_iff_of_found (by decide)] at hagrees
  exact absurd hagrees (by decide)

end ModbusProxy.Wire
