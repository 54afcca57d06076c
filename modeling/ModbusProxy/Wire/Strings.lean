import ModbusProxy.Poll.Strings
import ModbusProxy.Wire.Reads

/-!
# Direct strings

`modbus_tcp_client_read_str` finds the text in a reply and copies it to a buffer of its own.
With `reversed`, for devices that send the last character first, it counts the characters
from the end of the payload, past every NUL, and then copies as many bytes from its
front in reversed order.

## What is proved

`read_str_iff`: the read ends, within `rec_buf`, and returns the text of the payload; with
`reversed` this is right exactly if the text that the payload ends with also is what it
begins with and the scan counts nothing else (`EndsWhereItBegins`).
-/

namespace ModbusProxy.Wire

open Memory Endian Loop Scan Poll ModbusProxy.System

/-- The scan with `reversed`. -/
def scanReplyReversed (fuel : ℕ) (recBuf : List UInt8) (numRegs : UInt8) : Option (State UInt8) :=
  loop (downBody (fun k => recBuf.getD k 0) minResponseMsgLength) fuel
    { index := UInt8.ofNat (numRegs.toNat * 2 + minResponseMsgLength), len := 0, reads := [] }

/-- The scan without `reversed`. -/
def scanReplyForward (fuel : ℕ) (recBuf : List UInt8) (numRegs : UInt8) : Option (State UInt8) :=
  loop (upBody (fun k => recBuf.getD k 0) minResponseMsgLength (numRegs.toNat * 2)) fuel
    { index := 0, len := 0, reads := [] }

/-- `modbus_tcp_client_read_str`, after its request was sent: `none` while it scans,
`some none` if it returns `MODBUS_ERR`. -/
def modbusTcpClientReadStr (fuel : ℕ) (malloc : ℕ → UInt8) (numRegs : UInt8) (reversed : Bool)
    (received : Option (List UInt8)) : Option (Option (StrResult UInt8)) :=
  match getRegisterValues numRegs received with
  | none => some none
  | some recBuf =>
    if reversed then
      (scanReplyReversed fuel recBuf numRegs).map fun s =>
        let bytes := memcpyReverse (fun k => recBuf.getD (minResponseMsgLength + k) 0) s.len
        some { data := terminated malloc s.len.toNat bytes, len := s.len, scanned := s.reads
               copied := (List.range s.len.toNat).map fun k => minResponseMsgLength + k }
    else
      (scanReplyForward fuel recBuf numRegs).map fun s =>
        let bytes := (List.range s.len.toNat).map fun k => recBuf.getD (minResponseMsgLength + k) 0
        some { data := terminated malloc s.len.toNat bytes, len := s.len, scanned := s.reads
               copied := (List.range s.len.toNat).map fun k => minResponseMsgLength + k }

/-- What is asked of a string read of an accepted reply: it ends, it reads `rec_buf` only,
and it returns the text of the payload, or of its reversal without the NULs at its end. -/
def ReadsText (malloc : ℕ → UInt8) (n : UInt8) (reversed : Bool) (bytes : List UInt8) : Prop :=
  let payload := bytes.drop minResponseMsgLength
  let source := if reversed then (payload.rdropWhile fun b => b = 0).reverse else payload
  ∀ fuel > 256, ∃ r, modbusTcpClientReadStr fuel malloc n reversed (some bytes) = some (some r) ∧
    (∀ k ∈ r.scanned ++ r.copied, k < recvBufferSize) ∧
    r.data = text source ++ [0] ∧ r.len.toNat = (text source).length

/-- Let `t` be the text that the payload ends with before its NULs. The payload begins with
`t`, and before the `t` at the end there are only NULs down to a byte above `0x7F`. -/
def EndsWhereItBegins (payload : List UInt8) : Prop :=
  let filled := payload.rdropWhile fun b => b = 0
  filled.rtakeWhile isText <+: payload ∧
    ∀ b ∈ (filled.rdropWhile isText).rtakeWhile (fun b => b ≤ 0x7F), b = 0

instance (payload : List UInt8) : Decidable (EndsWhereItBegins payload) :=
  inferInstanceAs (Decidable (_ ∧ _))

section Accepted

variable {n : UInt8} {bytes : List UInt8}

/-- What is received fits the buffer, so an accepted reply has at most 123 registers. -/
theorem Accepts.le (hacc : Accepts n bytes) (hrecv : bytes.length ≤ recvBufferSize) : n.toNat ≤ 123 := by
  have hlen := hacc.1
  simp only [minResponseMsgLength, recvBufferSize] at hlen hrecv
  omega

/-- The payload, by its place in the buffer. -/
theorem take_payload (hacc : Accepts n bytes) {m : ℕ} (hm : m ≤ 2 * n.toNat) :
    ((List.range m).map fun k =>
      (overwrite (List.replicate recvBufferSize 0) bytes).getD (minResponseMsgLength + k) 0) =
      (bytes.drop minResponseMsgLength).take m := by
  rw [← map_recBuf hacc.1, ← List.map_take, List.take_range, Nat.min_eq_left hm]

theorem length_payload (hacc : Accepts n bytes) : (bytes.drop minResponseMsgLength).length = 2 * n.toNat := by
  rw [List.length_drop, hacc.1]
  omega

/-- With no more copied than the payload has, only the buffer is read. -/
theorem reads_lt (hacc : Accepts n bytes) (hrecv : bytes.length ≤ recvBufferSize) {scanned : List ℕ} {m : ℕ}
    (hscanned : ∀ k ∈ scanned, k < recvBufferSize) (hm : m ≤ 2 * n.toNat) :
    ∀ k ∈ scanned ++ (List.range m).map fun k => minResponseMsgLength + k, k < recvBufferSize := by
  intro k hk
  rcases List.mem_append.mp hk with h | h
  · exact hscanned k h
  · obtain ⟨x, hx, rfl⟩ := List.mem_map.mp h
    rw [List.mem_range] at hx
    have hlen := hacc.1
    omega

/-- The scan upwards counts the text of the payload. -/
theorem scanReplyForward_eq (hacc : Accepts n bytes) (hrecv : bytes.length ≤ recvBufferSize) {fuel : ℕ}
    (hfuel : 256 < fuel) :
    ∃ s, scanReplyForward fuel (overwrite (List.replicate recvBufferSize 0) bytes) n = some s ∧
      s.len.toNat = (text (bytes.drop minResponseMsgLength)).length ∧ ∀ k ∈ s.reads, k < recvBufferSize := by
  have hn := hacc.le hrecv
  obtain ⟨s, hloop, hlen, hreads⟩ := loop_up
    (fun k => (overwrite (List.replicate recvBufferSize 0) bytes).getD k 0) minResponseMsgLength
    (show n.toNat * 2 ≤ 255 by omega) { index := 0, len := (0 : UInt8), reads := [] }
    (d := 2 * n.toNat) (by simp [Nat.mul_comm]) (show 2 * n.toNat < fuel by omega)
  refine ⟨s, hloop, ?_, fun k hk => ?_⟩
  · simp only [UInt8.toNat_zero, Nat.add_zero, map_recBuf hacc.1, bump_uint8, UInt8.zero_add] at hlen
    have hle := (List.takeWhile_prefix (l := bytes.drop minResponseMsgLength) isText).length_le
    rw [length_payload hacc] at hle
    rw [hlen, UInt8.toNat_ofNat', Nat.mod_eq_of_lt]
    simp only [text]
    omega
  · rcases hreads k hk with h | h
    · cases h
    · simp only [minResponseMsgLength, recvBufferSize] at h ⊢
      omega

/-- The scan downwards counts what `counted` says of the reversed payload: the byte at which
it begins was cleared. -/
theorem scanReplyReversed_eq (hacc : Accepts n bytes) (hrecv : bytes.length ≤ recvBufferSize) {fuel : ℕ}
    (hfuel : 256 < fuel) :
    ∃ s, scanReplyReversed fuel (overwrite (List.replicate recvBufferSize 0) bytes) n = some s ∧
      s.len.toNat = (counted (bytes.drop minResponseMsgLength).reverse).length ∧
      s.len.toNat ≤ 2 * n.toNat ∧ ∀ k ∈ s.reads, k < recvBufferSize := by
  have hn := hacc.le hrecv
  have hmin : minResponseMsgLength = 9 := rfl
  have hindex : (UInt8.ofNat (n.toNat * 2 + minResponseMsgLength)).toNat = 2 * n.toNat + minResponseMsgLength := by
    rw [UInt8.toNat_ofNat']
    omega
  obtain ⟨s, hloop, hlen, hreads⟩ := loop_down
    (fun k => (overwrite (List.replicate recvBufferSize 0) bytes).getD k 0) (show 0 < minResponseMsgLength by decide)
    { index := UInt8.ofNat (n.toNat * 2 + minResponseMsgLength), len := (0 : UInt8), reads := [] }
    (d := 2 * n.toNat + 1) (by rw [hindex]; omega) (show 2 * n.toNat + 1 < fuel by omega)
  have hfirst : (overwrite (List.replicate recvBufferSize 0) bytes).getD (2 * n.toNat + minResponseMsgLength) 0 = 0 := by
    rw [overwrite, List.getD_append_right _ _ _ _ (by rw [hacc.1]; omega)]
    simp only [List.getD_eq_getElem?_getD, List.drop_replicate, List.getElem?_replicate]
    split <;> rfl
  have hbytes : ((List.range (2 * n.toNat + 1)).map fun k =>
      (overwrite (List.replicate recvBufferSize 0) bytes).getD (2 * n.toNat + minResponseMsgLength - k) 0) =
      0 :: (bytes.drop minResponseMsgLength).reverse := by
    rw [List.range_succ_eq_map, List.map_cons, List.map_map, Nat.sub_zero, hfirst, ← map_recBuf hacc.1,
      reverse_map_range]
    congr 1
    apply List.map_congr_left
    intro k hk
    rw [List.mem_range] at hk
    simp only [Function.comp_apply, Nat.succ_eq_add_one]
    congr 1
    omega
  rw [hindex, hbytes, counted_cons_zero, bump_uint8, UInt8.zero_add] at hlen
  have hle : (counted (bytes.drop minResponseMsgLength).reverse).length ≤ 2 * n.toNat := by
    have hrev : (bytes.drop minResponseMsgLength).reverse.length = 2 * n.toNat := by
      rw [List.length_reverse, length_payload hacc]
    rw [← hrev]
    exact (List.length_filter_le _ _).trans (List.takeWhile_prefix _).length_le
  have hcount : s.len.toNat = (counted (bytes.drop minResponseMsgLength).reverse).length := by
    rw [hlen, UInt8.toNat_ofNat', Nat.mod_eq_of_lt (by omega)]
  exact ⟨s, hloop, hcount, by omega, fun k hk => (hreads k hk).elim (fun h => by cases h) id⟩

/-- The whole read without `reversed`. -/
theorem readStr_forward (hacc : Accepts n bytes) (hrecv : bytes.length ≤ recvBufferSize) (malloc : ℕ → UInt8) :
    ReadsText malloc n false bytes := by
  intro fuel hfuel
  obtain ⟨s, hscan, hlen, hreads⟩ := scanReplyForward_eq hacc hrecv hfuel
  have hfront : text (bytes.drop minResponseMsgLength) <+: bytes.drop minResponseMsgLength :=
    List.takeWhile_prefix isText
  have hle := hfront.length_le
  rw [length_payload hacc] at hle
  have hcount : s.len.toNat ≤ 2 * n.toNat := hlen.le.trans hle
  refine ⟨_, by simp only [modbusTcpClientReadStr, getRegisterValues_eq_some_iff.mpr ⟨hacc, rfl⟩, Bool.false_eq_true,
    if_false, hscan, Option.map_some]; rfl, reads_lt hacc hrecv hreads hcount, ?_, hlen⟩
  simp only [hlen, Bool.false_eq_true, if_false]
  rw [terminated_of_length_eq malloc (by simp), take_payload hacc hle, ← List.prefix_iff_eq_take.mp hfront]

/-- The whole read with `reversed`: how much it counts, and what it copies. -/
theorem readStr_reversed (hacc : Accepts n bytes) (hrecv : bytes.length ≤ recvBufferSize) (malloc : ℕ → UInt8)
    {fuel : ℕ} (hfuel : 256 < fuel) :
    ∃ r, modbusTcpClientReadStr fuel malloc n true (some bytes) = some (some r) ∧
      (∀ k ∈ r.scanned ++ r.copied, k < recvBufferSize) ∧
      r.len.toNat = (counted (bytes.drop minResponseMsgLength).reverse).length ∧
      r.data = ((bytes.drop minResponseMsgLength).take r.len.toNat).reverse ++ [0] := by
  obtain ⟨s, hscan, hlen, hle, hreads⟩ := scanReplyReversed_eq hacc hrecv hfuel
  refine ⟨_, by simp only [modbusTcpClientReadStr, getRegisterValues_eq_some_iff.mpr ⟨hacc, rfl⟩, if_true, hscan,
    Option.map_some]; rfl, reads_lt hacc hrecv hreads hle, hlen, ?_⟩
  simp only [memcpyReverse]
  rw [terminated_of_length_eq malloc (length_copyDown _ _), copyDown_eq, take_payload hacc hle]

end Accepted

/-- The scan counts no more than the text, and the copy is the text, exactly for such
payloads. -/
theorem reversed_iff (payload : List UInt8) :
    (((payload.take (counted payload.reverse).length).reverse = text (payload.rdropWhile fun b => b = 0).reverse ∧
      (counted payload.reverse).length = (text (payload.rdropWhile fun b => b = 0).reverse).length)) ↔
      EndsWhereItBegins payload := by
  have hsplit := counted_eq payload.reverse
  have hfilled : (payload.rdropWhile fun b => b = 0).reverse = payload.reverse.dropWhile fun b => b = 0 := by
    rw [List.rdropWhile, List.reverse_reverse]
  rw [EndsWhereItBegins, hfilled]
  simp only [List.rtakeWhile, List.rdropWhile, List.reverse_reverse, List.mem_reverse]
  generalize payload.reverse.dropWhile (fun b => b = 0) = bs at *
  rw [← counted_eq_nil_iff, hsplit, List.length_append, ← text]
  constructor
  · rintro ⟨htake, hlen⟩
    have hnil : counted (bs.dropWhile isText) = [] := List.length_eq_zero_iff.mp (by omega)
    rw [hnil, List.length_nil, Nat.add_zero] at htake
    refine ⟨?_, hnil⟩
    rw [← htake, List.reverse_reverse]
    exact List.take_prefix _ _
  · rintro ⟨hfront, hnil⟩
    rw [hnil, List.length_nil, Nat.add_zero]
    refine ⟨?_, rfl⟩
    have htake := List.prefix_iff_eq_take.mp hfront
    rw [List.length_reverse] at htake
    rw [← htake, List.reverse_reverse]

/-- **Direct strings.** Of an accepted reply a string read returns the text, always without
`reversed` and, with `reversed`, exactly if the payload begins with the text with which it
ends. A read of 124 registers or more returns `MODBUS_ERR`. -/
theorem read_str_iff (malloc : ℕ → UInt8) (n : UInt8) (reversed : Bool) :
    (∀ bytes : List UInt8, bytes.length ≤ recvBufferSize → Accepts n bytes →
      (ReadsText malloc n reversed bytes ↔
        (reversed = true → EndsWhereItBegins (bytes.drop minResponseMsgLength)))) ∧
    (124 ≤ n.toNat → ∀ fuel received,
      (∀ bytes : List UInt8, received = some bytes → bytes.length ≤ recvBufferSize) →
        modbusTcpClientReadStr fuel malloc n reversed received = some none) := by
  refine ⟨fun bytes hrecv hacc => ?_, fun hcount fuel received hrecv => ?_⟩
  · cases reversed with
    | false => exact iff_of_true (readStr_forward hacc hrecv malloc) (fun h => by cases h)
    | true =>
      have heq := reversed_iff (bytes.drop minResponseMsgLength)
      constructor
      · intro hreads _
        obtain ⟨r, hr, -, hdata, hlen⟩ := hreads 257 (Nat.lt_succ_self 256)
        obtain ⟨r', hr', -, hlen', hdata'⟩ := readStr_reversed hacc hrecv malloc (Nat.lt_succ_self 256)
        obtain rfl : r = r' := Option.some.inj (Option.some.inj (hr.symm.trans hr'))
        rw [hdata', hlen'] at hdata
        rw [hlen'] at hlen
        exact heq.mp ⟨List.append_cancel_right hdata, hlen⟩
      · intro hends fuel hfuel
        obtain ⟨r, hr, hbounds, hlen, hdata⟩ := readStr_reversed hacc hrecv malloc hfuel
        obtain ⟨htake, hcount⟩ := heq.mpr (hends rfl)
        exact ⟨r, hr, hbounds, by rw [hdata, hlen, htake]; rfl, by rw [hlen, hcount]; rfl⟩
  · have hreject : getRegisterValues n received = none := by
      cases received with
      | none => rfl
      | some bytes =>
        rw [Option.eq_none_iff_forall_ne_some]
        intro buf hbuf
        have := (getRegisterValues_eq_some_iff.mp hbuf).1.le (hrecv bytes rfl)
        omega
    rw [modbusTcpClientReadStr, hreject]

/-- A reply of two registers with the payload `B A 0 0`, of which the text is `AB`. -/
theorem read_str_filled : ReadsText (fun _ => 0) 2 true ([0, 0, 0, 0, 0, 7, 1, 3, 4] ++ [66, 65, 0, 0]) :=
  ((read_str_iff (fun _ => 0) 2 true).1 _ (by decide) (by decide)).mpr fun _ => by decide +kernel

/-- The payload `0 0 A B`, as a device sends it that pads in front: the text is `BA`, and two
NULs are copied. -/
theorem read_str_padded :
    Accepts 2 ([0, 0, 0, 0, 0, 7, 1, 3, 4] ++ [0, 0, 65, 66]) ∧
      ¬ ReadsText (fun _ => 0) 2 true ([0, 0, 0, 0, 0, 7, 1, 3, 4] ++ [0, 0, 65, 66]) := by
  refine ⟨by decide, fun h => ?_⟩
  obtain ⟨r, hr, -, hdata, -⟩ := h 257 (Nat.lt_succ_self 256)
  have hresult : (modbusTcpClientReadStr 257 (fun _ => 0) 2 true
      (some ([0, 0, 0, 0, 0, 7, 1, 3, 4] ++ [0, 0, 65, 66]))).map (Option.map fun r => r.data) =
        some (some [0, 0, 0]) := by decide +kernel
  rw [hr, Option.map_some, Option.map_some, Option.some.injEq, Option.some.injEq, hdata] at hresult
  exact absurd hresult (by decide)

end ModbusProxy.Wire
