import ModbusProxy.Poll.Typed
import ModbusProxy.Wire.Client

/-!
# Direct reads and cached reads

`modbus_tcp_client_read` asks a device for registers and converts the reply on the spot;
`modbus_tcp_get_poll_data` converts registers that the polling thread has cached. The two
conversions are written separately.

## What is proved

`read_eq_hostBytes`: a direct read of an accepted reply writes what a little-endian host
keeps of the registers in it. `typed_read_eq_direct`: so does a cached read of a block with
data, of the registers in the data, and other cached reads write zeros.
-/

namespace ModbusProxy.Wire

open Memory Endian Poll ModbusProxy.System

/-- `modbus_tcp_client_read`, after its request was sent: the output buffer `data` after
the call, if it returns `MODBUS_OK`. -/
def modbusTcpClientRead (numRegs : UInt8) (bigEndian : Bool) (received : Option (List UInt8))
    (data : List UInt8) : Option (List UInt8) :=
  (getRegisterValues numRegs received).map fun recBuf =>
    overwrite data
      (if bigEndian then
        memcpyReverse (fun k => recBuf.getD (minResponseMsgLength + k) 0) (UInt8.ofNat (numRegs.toNat * 2))
      else (List.range numRegs.toNat).flatMap fun i =>
        [recBuf.getD (minResponseMsgLength + i * 2 + 1) 0, recBuf.getD (minResponseMsgLength + i * 2) 0])

/-- **What a direct read writes**: the registers `f 0, f 1, …` that the device sent, as the
host keeps them. -/
theorem read_eq_hostBytes {n : UInt8} {bytes : List UInt8} (hacc : Accepts n bytes) (hn : n.toNat ≤ 127)
    {f : ℕ → UInt16} (hf : bytes.drop minResponseMsgLength = beWords f n.toNat) (bigEndian : Bool)
    (out : List UInt8) :
    modbusTcpClientRead n bigEndian (some bytes) out = some (overwrite out (hostBytes bigEndian n.toNat f)) := by
  have hpayload := (map_recBuf hacc.1).trans hf
  unfold modbusTcpClientRead
  rw [getRegisterValues_eq_some_iff.mpr ⟨hacc, rfl⟩, Option.map_some]
  congr 2
  cases bigEndian with
  | false =>
    rw [map_range_eq_beWords] at hpayload
    have hword := beWords_inj hpayload
    apply List.flatMap_congr
    intro k hk
    rw [List.mem_range] at hk
    simp only [← hword k hk, lo_be16, hi_be16, Nat.mul_comm k 2, Nat.add_assoc]
  | true =>
    have hsize : (UInt8.ofNat (n.toNat * 2)).toNat = 2 * n.toNat := by
      rw [UInt8.toNat_ofNat']
      omega
    simp only [if_true, memcpyReverse, hsize, copyDown_eq, hostBytes, hpayload, reverse_beWords]

/-- **Cached reads agree with direct reads.** In every state that a client reaches, a cached
read of a nonempty range inside a block with data reads bytes of these data only, writes
the little-endian bytes of the number that the registers are, and so writes what a
direct read writes for a device that answers with these registers. A cached read of any
other range writes zeros. -/
theorem typed_read_eq_direct {T : RegisterTable} {c : PollingClient} (h : Reachable T c) (a q : UInt16)
    (bigEndian : Bool) (heap : ℕ → UInt8) (out : List UInt8) :
    (∀ i < T.size, ∀ buf, 0 < q.toNat → (T.block i).Holds a q → (c.pollData i).data = some buf →
      let first := a.toNat - (T.block i).address.toNat
      let reg := fun k => bufRegister buf (first + k)
      ((∀ k ∈ typedIndices (2 * first) q bigEndian, k < buf.length) ∧
        modbusTcpGetPollData heap c a q bigEndian out =
          overwrite out ((typedIndices (2 * first) q bigEndian).map (peek heap buf))) ∧
      modbusTcpGetPollData heap c a q bigEndian out = overwrite out (leBytes (2 * q.toNat)
        (∑ k ∈ Finset.range q.toNat,
          (reg k).toNat * 65536 ^ (if bigEndian then q.toNat - 1 - k else k))) ∧
      ∀ bytes, Accepts q.toUInt8 bytes → bytes.drop minResponseMsgLength = beWords reg q.toNat →
        modbusTcpClientRead q.toUInt8 bigEndian (some bytes) out =
          some (modbusTcpGetPollData heap c a q bigEndian out)) ∧
    ((¬ ∃ i < T.size, (T.block i).Holds a q ∧ (c.pollData i).data.isSome = true) →
      modbusTcpGetPollData heap c a q bigEndian out = overwrite out (List.replicate (2 * q.toNat) 0)) := by
  have hc := h.wellFormed
  refine ⟨fun i hi buf hq hholds hd => ?_, fun hnone => ?_⟩
  · have hL := RegisterTable.length_le hi
    have hend := hholds.2
    have hle : (T.block i).address.toNat ≤ a.toNat := UInt16.le_iff_toNat_le.mp hholds.1
    have hlen := ((hc.entry i hi).data buf hd).1
    have hcached : modbusTcpGetPollData heap c a q bigEndian out = overwrite out
        (hostBytes bigEndian q.toNat fun k => bufRegister buf (a.toNat - (T.block i).address.toNat + k)) := by
      rw [typed_of_holds hc.table hq hi hholds heap, hd]
      simp only
      rw [typedBytes_eq_hostBytes heap (by omega) (by omega)]
    have hcount : q.toUInt8.toNat = q.toNat := by
      rw [UInt16.toNat_toUInt8]
      omega
    refine ⟨typed_of_data hc hq hi hholds hd heap bigEndian out, ?_, fun bytes hacc hregs => ?_⟩
    · rw [hcached, hostBytes_eq]
    · rw [hcached, read_eq_hostBytes hacc (by omega) (by rw [hcount]; exact hregs), hcount]
  · refine typed_eq_zeros hc (fun i hi hholds => ?_) heap bigEndian out
    by_contra hdata
    exact hnone ⟨i, hi, hholds, Option.ne_none_iff_isSome.mp hdata⟩

/-- The second and third register of a boiler that was polled, read from the cache and
from the device. -/
theorem typed_read_ez3 :
    let c := modbusTcpSavePollData (.fresh canEz3Registers fun _ => 0) 1 [0, 1, 0, 2, 1, 3, 0, 4] 8 true
    let reply : List UInt8 := [0, 0, 0, 0, 0, 7, 1, 4, 4, 0, 2, 1, 3]
    modbusTcpGetPollData (fun _ => 0) c 2 2 true [9, 9, 9, 9, 9] = [3, 1, 2, 0, 9] ∧
      modbusTcpClientRead 2 true (some reply) [9, 9, 9, 9, 9] =
        some (modbusTcpGetPollData (fun _ => 0) c 2 2 true [9, 9, 9, 9, 9]) := by
  have hc : Reachable canEz3Registers
      (modbusTcpSavePollData (.fresh canEz3Registers fun _ => 0) 1 [0, 1, 0, 2, 1, 3, 0, 4] 8 true) :=
    .save true (.start _) (i := 0) (by decide) (by decide)
  have hread := (typed_read_eq_direct hc 2 2 true (fun _ => 0) [9, 9, 9, 9, 9]).1 0 (by decide)
    [0, 1, 0, 2, 1, 3, 0, 4] (by decide) (by decide) (by decide)
  exact ⟨hread.2.1.trans (by decide), hread.2.2 _ (by decide) (by decide)⟩

end ModbusProxy.Wire
