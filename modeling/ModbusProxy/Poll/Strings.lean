import ModbusProxy.Library.Scan
import ModbusProxy.Poll.Registry

/-!
# Cached strings

`modbus_tcp_get_poll_str` finds the end of a text in the data of a block and copies it to a
buffer of its own. The length is counted in the caller's variable, from whatever value it
has, and this variable then is the size of the buffer and of the copy. With `reversed`
the scan goes downwards from the end of the range, with an index of eight bits and the
condition `x >= 0`.

## The model

The scans are loops with fuel: `none` is a scan that has not ended. `heap k` is what
the heap holds at index `k` of the data past their end, `malloc k` what a new buffer
holds at index `k`. `scanned` and `copied` are the indices at which the data are read.

## What is proved

`cached_text_iff`: the read with `reversed = false` returns the text of the range exactly
if the caller's variable is zero. `reversed_not_bounded`: no read with `reversed = true`
stays in its range; `reversed_terminates_iff` says which ones end.
-/

namespace ModbusProxy.Poll

open Memory Loop Scan ModbusProxy.System

/-- What a string read returns, and which indices of the data it read. -/
structure StrResult (L : Type) where
  /-- The buffer that `*data` points to. -/
  data : List UInt8
  /-- `*len`. -/
  len : L
  /-- What the scan read. -/
  scanned : List ℕ
  /-- What the copy read. -/
  copied : List ℕ

/-- A new buffer of `len + 1` bytes after `bytes` are copied to its front and its last byte
is cleared. -/
def terminated (malloc : ℕ → UInt8) (len : ℕ) (bytes : List UInt8) : List UInt8 :=
  (overwrite ((List.range (len + 1)).map malloc) bytes).set len 0

/-- What `modbus_tcp_get_poll_str` returns where there are no data. -/
def noCachedStr (malloc : ℕ → UInt8) (len : UInt16) : StrResult UInt16 :=
  { data := terminated malloc len.toNat [], len := len, scanned := [], copied := [] }

/-- The scan with `reversed`. -/
def scanReversed (fuel : ℕ) (byte : ℕ → UInt8) (offset : UInt16) (length : UInt16) (len : UInt16) :
    Option (State UInt16) :=
  loop (downBody byte 0) fuel { index := UInt8.ofNat (offset.toNat + length.toNat * 2), len := len, reads := [] }

/-- The scan without `reversed`. -/
def scanForward (fuel : ℕ) (byte : ℕ → UInt8) (offset : UInt16) (length : UInt16) (len : UInt16) :
    Option (State UInt16) :=
  loop (upBody byte 0 (offset.toNat + length.toNat * 2)) fuel
    { index := UInt8.ofNat offset.toNat, len := len, reads := [] }

/-- `modbus_tcp_get_poll_str`, with the value that `*len` has on entry. -/
def modbusTcpGetPollStr (fuel : ℕ) (heap malloc : ℕ → UInt8) (c : PollingClient) (address length : UInt16)
    (reversed : Bool) (len : UInt16) : Option (StrResult UInt16) :=
  match typedSearch c address length with
  | none => some (noCachedStr malloc len)
  | some i =>
    match (c.pollData i).data with
    | none => some (noCachedStr malloc len)
    | some buf =>
      let offset : UInt16 := UInt16.ofNat ((address.toNat - (c.table.block i).address.toNat) * 2)
      if reversed then
        (scanReversed fuel (peek heap buf) offset length len).map fun s =>
          let bytes := memcpyReverse (fun k => peek heap buf (offset.toNat + k)) s.len.toUInt8
          { data := terminated malloc s.len.toNat bytes, len := s.len, scanned := s.reads
            copied := (List.range s.len.toUInt8.toNat).map fun k => offset.toNat + k }
      else
        (scanForward fuel (peek heap buf) offset length len).map fun s =>
          let bytes := (Copy.mk buf offset.toNat s.len.toNat).bytes heap
          { data := terminated malloc s.len.toNat bytes, len := s.len, scanned := s.reads
            copied := (List.range s.len.toNat).map fun k => offset.toNat + k }

theorem terminated_of_length_eq (malloc : ℕ → UInt8) {len : ℕ} {bytes : List UInt8} (h : bytes.length = len) :
    terminated malloc len bytes = bytes ++ [0] := by
  have hrest : (((List.range (len + 1)).map malloc).drop bytes.length).length = 1 := by
    simp [h]
  obtain ⟨b, hb⟩ := List.length_eq_one_iff.mp hrest
  rw [terminated, overwrite, hb, ← h]
  simp

/-! ### The forward scan -/

section Found

variable {T : RegisterTable} {c : PollingClient} {a q : UInt16} {i : ℕ} {buf : List UInt8}

/-- Where the search stops, the range ends before index 256 of the block's data. -/
theorem search_bounds (hc : WellFormed T c) (hs : typedSearch c a q = some i) :
    i < T.size ∧ (T.block i).Holds a q ∧
      (UInt16.ofNat ((a.toNat - (c.table.block i).address.toNat) * 2)).toNat =
        2 * (a.toNat - (T.block i).address.toNat) ∧
      2 * (a.toNat - (T.block i).address.toNat) + 2 * q.toNat ≤ 2 * (T.block i).length.toNat ∧
      (T.block i).length.toNat ≤ 123 := by
  rw [typedSearch, List.find?_range_eq_some, List.mem_range] at hs
  obtain ⟨hcov, hi, -⟩ := hs
  rw [PollingClient.numRegisters, hc.table] at hi
  rw [hc.table, Block.covers_iff_holds hi] at hcov
  have hL := RegisterTable.length_le hi
  have hend := hcov.2
  have hle : (T.block i).address.toNat ≤ a.toNat := UInt16.le_iff_toNat_le.mp hcov.1
  refine ⟨hi, hcov, ?_, by omega, hL⟩
  rw [UInt16.toNat_ofNat', hc.table]
  omega

/-- What the scan finds: it ends, it adds the length of the text to the counter and reads
only the range. -/
theorem scanForward_eq (hc : WellFormed T c) (hs : typedSearch c a q = some i)
    (hd : (c.pollData i).data = some buf) (heap : ℕ → UInt8) (len : UInt16) {fuel : ℕ} (hfuel : 256 < fuel) :
    ∃ s, scanForward fuel (peek heap buf) (UInt16.ofNat ((a.toNat - (c.table.block i).address.toNat) * 2)) q len =
        some s ∧
      s.len = len + UInt16.ofNat (text (cachedBytes c i a q)).length ∧
      ∀ k ∈ s.reads, 2 * (a.toNat - (T.block i).address.toNat) ≤ k ∧
        k < 2 * (a.toNat - (T.block i).address.toNat) + 2 * q.toNat := by
  obtain ⟨hi, -, hoff, hend, hL⟩ := search_bounds hc hs
  have hlen := ((hc.entry i hi).data buf hd).1
  have hindex : (UInt8.ofNat (2 * (a.toNat - (T.block i).address.toNat))).toNat =
      2 * (a.toNat - (T.block i).address.toNat) := by
    rw [UInt8.toNat_ofNat']
    omega
  obtain ⟨s, hloop, hcount, hreads⟩ := loop_up (peek heap buf) 0
    (show 2 * (a.toNat - (T.block i).address.toNat) + q.toNat * 2 ≤ 255 by omega)
    { index := UInt8.ofNat (2 * (a.toNat - (T.block i).address.toNat)), len := len, reads := [] }
    (by rw [hindex]) (show q.toNat * 2 < fuel by omega)
  refine ⟨s, by rw [scanForward, hoff]; exact hloop, ?_, fun k hk => ?_⟩
  · have hbytes := Copy.bytes_of_inBounds heap
      (m := ⟨buf, 2 * (a.toNat - (T.block i).address.toNat), q.toNat * 2⟩) (.inr (by simp only; omega))
    simp only [hindex, Nat.zero_add] at hcount
    rw [hcount, bump_uint16, cachedBytes, hd, hc.table, Nat.mul_comm 2 q.toNat]
    exact congrArg (fun t => len + UInt16.ofNat (text t).length) hbytes
  · rcases hreads k hk with h | h
    · cases h
    · simp only [hindex] at h
      omega

/-- The whole read, where the search stops at a block with data. -/
theorem getPollStr_found (hc : WellFormed T c) (hs : typedSearch c a q = some i) (hd : (c.pollData i).data = some buf)
    (heap malloc : ℕ → UInt8) (len : UInt16) {fuel : ℕ} (hfuel : 256 < fuel) :
    ∃ r, modbusTcpGetPollStr fuel heap malloc c a q false len = some r ∧
      r.len = len + UInt16.ofNat (text (cachedBytes c i a q)).length ∧
      (len = 0 → r.data = text (cachedBytes c i a q) ++ [0] ∧
        r.len.toNat = (text (cachedBytes c i a q)).length ∧
        ∀ k ∈ r.scanned ++ r.copied, 2 * (a.toNat - (T.block i).address.toNat) ≤ k ∧
          k < 2 * (a.toNat - (T.block i).address.toNat) + 2 * q.toNat) := by
  obtain ⟨s, hscan, hlen, hreads⟩ := scanForward_eq hc hs hd heap len hfuel
  obtain ⟨hi, -, hoff, hend, hL⟩ := search_bounds hc hs
  have hsize := ((hc.entry i hi).data buf hd).1
  have hfront : text (cachedBytes c i a q) <+: cachedBytes c i a q := List.takeWhile_prefix isText
  have hbytes : cachedBytes c i a q = (buf.drop (2 * (a.toNat - (T.block i).address.toNat))).take (2 * q.toNat) := by
    rw [cachedBytes, hd, hc.table, Option.getD_some]
  have hn : (text (cachedBytes c i a q)).length ≤ 2 * q.toNat :=
    hfront.length_le.trans (by rw [hbytes]; exact List.length_take_le _ _)
  refine ⟨_, by simp only [modbusTcpGetPollStr, hs, hd, Bool.false_eq_true, if_false, hscan, Option.map_some]; rfl,
    hlen, fun hzero => ?_⟩
  have hcount : s.len.toNat = (text (cachedBytes c i a q)).length := by
    rw [hlen, hzero, UInt16.zero_add, UInt16.toNat_ofNat']
    omega
  simp only [hcount, hoff]
  refine ⟨?_, trivial, fun k hk => ?_⟩
  · -- the copy is the text itself, since the text is the front of the cached bytes
    rw [terminated_of_length_eq malloc (by simp), Copy.bytes_of_inBounds heap (.inr (by simp only; omega))]
    have htext := List.prefix_iff_eq_take.mp hfront
    simp only [hbytes, List.take_take] at htext hn ⊢
    rw [Nat.min_eq_left hn] at htext
    rw [← htext]
  · rcases List.mem_append.mp hk with h | h
    · exact hreads k h
    · obtain ⟨x, hx, rfl⟩ := List.mem_map.mp h
      rw [List.mem_range] at hx
      omega

/-- The whole read, where it finds no data. -/
theorem getPollStr_missing (hs : ∀ i, typedSearch c a q = some i → (c.pollData i).data = none)
    (fuel : ℕ) (heap malloc : ℕ → UInt8) (len : UInt16) :
    modbusTcpGetPollStr fuel heap malloc c a q false len = some (noCachedStr malloc len) := by
  unfold modbusTcpGetPollStr
  cases hsearch : typedSearch c a q with
  | none => rfl
  | some i => simp only [hs i hsearch]

end Found

/-! ### The law of cached strings -/

/-- What is asked of a string read of the range: it ends, and it returns the text that the
cached bytes of the range begin with, NUL-terminated, with its length, reading the
range only; where no block with data holds the range it returns the empty string. -/
def ReturnsText (heap malloc : ℕ → UInt8) (c : PollingClient) (a q len : UInt16) : Prop :=
  ∀ fuel > 256, ∃ r, modbusTcpGetPollStr fuel heap malloc c a q false len = some r ∧
    (∀ i < c.table.size, (c.table.block i).Holds a q → (c.pollData i).data.isSome = true →
      r.data = text (cachedBytes c i a q) ++ [0] ∧ r.len.toNat = (text (cachedBytes c i a q)).length ∧
      ∀ k ∈ r.scanned ++ r.copied, 2 * (a.toNat - (c.table.block i).address.toNat) ≤ k ∧
        k < 2 * (a.toNat - (c.table.block i).address.toNat) + 2 * q.toNat) ∧
    ((¬ ∃ i < c.table.size, (c.table.block i).Holds a q ∧ (c.pollData i).data.isSome = true) →
      r.data.takeWhile (fun b => b ≠ 0) = [] ∧ r.len = 0)

theorem cachedBytes_of_empty {c : PollingClient} {i : ℕ} {a q : UInt16} (hq : q.toNat = 0) : cachedBytes c i a q = [] := by
  rw [cachedBytes, hq, Nat.mul_zero, List.take_zero]

/-- **Cached strings.** In every state that a client reaches, a string read of a range
returns its text exactly if the caller's variable is zero on entry. -/
theorem cached_text_iff {T : RegisterTable} {c : PollingClient} (h : Reachable T c) (a q len : UInt16)
    (heap malloc : ℕ → UInt8) : ReturnsText heap malloc c a q len ↔ len = 0 := by
  have hc := h.wellFormed
  obtain rfl := hc.table
  by_cases hfound : ∃ j, typedSearch c a q = some j ∧ (c.pollData j).data.isSome = true
  · obtain ⟨j, hs, hdata⟩ := hfound
    obtain ⟨buf, hd⟩ := Option.isSome_iff_exists.mp hdata
    obtain ⟨hj, hholds, -, hend, hL⟩ := search_bounds hc hs
    constructor
    · intro hreturns
      obtain ⟨r, hr, hin, -⟩ := hreturns 257 (Nat.lt_succ_self 256)
      obtain ⟨r', hr', hlen, -⟩ := getPollStr_found hc hs hd heap malloc len (Nat.lt_succ_self 256)
      obtain rfl : r = r' := Option.some.inj (hr.symm.trans hr')
      have hcount := (hin j hj hholds hdata).2.1
      have hn : UInt16.ofNat (text (cachedBytes c j a q)).length = r.len := by
        rw [← hcount, UInt16.ofNat_toNat]
      rw [hn] at hlen
      exact (UInt16.add_left_inj r.len).mp (by rw [← hlen, UInt16.zero_add])
    · rintro hzero fuel hfuel
      obtain ⟨r, hr, -, hgood⟩ := getPollStr_found hc hs hd heap malloc len hfuel
      obtain ⟨hrdata, hrlen, hreads⟩ := hgood hzero
      refine ⟨r, hr, fun i hi hholds' hdata' => ?_, fun hnone => absurd ⟨j, hj, hholds, hdata⟩ hnone⟩
      rcases Nat.eq_zero_or_pos q.toNat with hq | hq
      · rw [cachedBytes_of_empty hq] at hrdata hrlen ⊢
        refine ⟨hrdata, hrlen, fun k hk => ?_⟩
        have := hreads k hk
        omega
      · obtain rfl := RegisterTable.holds_unique hj hi hq hholds hholds'
        exact ⟨hrdata, hrlen, hreads⟩
  · have hmissing : ∀ i, typedSearch c a q = some i → (c.pollData i).data = none := by
      intro i hs
      by_contra hdata
      exact hfound ⟨i, hs, Option.ne_none_iff_isSome.mp hdata⟩
    -- a block with data can hold the range only if the range is empty
    have hempty : ∀ i < c.table.size, (c.table.block i).Holds a q → (c.pollData i).data.isSome = true →
        q.toNat = 0 := by
      intro i hi hholds hdata
      by_contra hq
      exact hfound ⟨i, (typedSearch_eq_some_iff rfl (by omega)).mpr ⟨hi, hholds⟩, hdata⟩
    constructor
    · intro hreturns
      obtain ⟨r, hr, hin, hout⟩ := hreturns 257 (Nat.lt_succ_self 256)
      obtain rfl := Option.some.inj ((getPollStr_missing hmissing 257 heap malloc len).symm.trans hr)
      by_cases hex : ∃ i < c.table.size, (c.table.block i).Holds a q ∧ (c.pollData i).data.isSome = true
      · obtain ⟨i, hi, hholds, hdata⟩ := hex
        have hcount := (hin i hi hholds hdata).2.1
        rw [cachedBytes_of_empty (hempty i hi hholds hdata)] at hcount
        exact UInt16.toNat_inj.mp hcount
      · exact (hout hex).2
    · rintro rfl fuel -
      refine ⟨_, getPollStr_missing hmissing fuel heap malloc 0, fun i hi hholds hdata => ?_, fun _ => ⟨rfl, rfl⟩⟩
      rw [cachedBytes_of_empty (hempty i hi hholds hdata)]
      exact ⟨rfl, rfl, fun k hk => absurd hk List.not_mem_nil⟩

/-- A Huawei cache whose first block was polled: the model is `SUN`. -/
def polledModel : PollingClient :=
  modbusTcpSavePollData (.fresh huaweiRegisters fun _ => 0) 30000 ([83, 85, 78] ++ List.replicate 47 0) 50 true

theorem polledModel_reachable : Reachable huaweiRegisters polledModel :=
  .save true (.start _) (i := 0) (by decide) (by decide)

/-- With 50 in the caller's variable the length is 53, more than the block has bytes. -/
theorem cached_text_garbage :
    Reachable huaweiRegisters polledModel ∧
      (modbusTcpGetPollStr 257 (fun _ => 0) (fun _ => 0) polledModel 30000 15 false 50).map (fun r => r.len) = some 53 ∧
      ¬ ReturnsText (fun _ => 0) (fun _ => 0) polledModel 30000 15 50 := by
  have hlen : (modbusTcpGetPollStr 257 (fun _ => 0) (fun _ => 0) polledModel 30000 15 false 50).map
      (fun r => r.len) = some 53 := by decide +kernel
  refine ⟨polledModel_reachable, hlen, fun h => ?_⟩
  obtain ⟨r, hr, hin, -⟩ := h 257 (Nat.lt_succ_self 256)
  rw [hr, Option.map_some, Option.some.injEq] at hlen
  have hcount := (hin 0 (by decide) (by decide) (by decide)).2.1
  rw [hlen] at hcount
  exact absurd hcount (by decide +kernel)

theorem cached_text_model : ReturnsText (fun _ => 0) (fun _ => 0) polledModel 30000 15 0 :=
  (cached_text_iff polledModel_reachable 30000 15 0 _ _).mpr rfl

/-! ### The reversed scan -/

/-- The blocks of the program's tables do not touch. -/
theorem tables_separated {type : PollType} {T : RegisterTable} (h : type.registers? = some T) :
    T.blocks.Pairwise fun b b' => b.address.toNat + b.length.toNat < b'.address.toNat ∨
      b'.address.toNat + b'.length.toNat < b.address.toNat := by
  cases type with
  | huawei => cases h; decide
  | nrgkick => cases h; decide
  | canEz3 => cases h; decide
  | other => cases h

/-- In the program's tables the search stops at the block that holds the range, be it
empty. -/
theorem typedSearch_of_holds {type : PollType} {T : RegisterTable} (htype : type.registers? = some T)
    {c : PollingClient} (hc : c.table = T) {a q : UInt16} {i : ℕ} (hi : i < T.size) (hholds : (T.block i).Holds a q) :
    typedSearch c a q = some i := by
  subst hc
  rw [typedSearch, List.find?_range_eq_some, List.mem_range]
  refine ⟨(Block.covers_iff_holds hi).mpr hholds, hi, fun j hj => ?_⟩
  have hjn : j < c.table.size := Nat.lt_trans hj hi
  by_contra hcov
  simp only [Bool.not_eq_true', Bool.not_eq_false] at hcov
  obtain ⟨hle, hend⟩ := (Block.covers_iff_holds hjn).mp hcov
  obtain ⟨hle', hend'⟩ := hholds
  have hpair := List.pairwise_iff_getElem.mp (tables_separated htype) j i hjn hi hj
  simp only [RegisterTable.block, List.getD_eq_getElem _ _ hi, List.getD_eq_getElem _ _ hjn,
    UInt16.le_iff_toNat_le] at hle hend hle' hend'
  omega

/-- What the read with `reversed` comes to, where the search stops at a block with data. -/
theorem getPollStr_reversed {T : RegisterTable} {c : PollingClient} (hc : WellFormed T c) {a q : UInt16} {i : ℕ}
    {buf : List UInt8} (hs : typedSearch c a q = some i) (hd : (c.pollData i).data = some buf)
    (heap malloc : ℕ → UInt8) (len : UInt16) (fuel : ℕ) :
    (modbusTcpGetPollStr fuel heap malloc c a q true len).map (fun r => r.scanned) =
      (loop (downBody (peek heap buf) 0) fuel
        { index := UInt8.ofNat (2 * (a.toNat - (T.block i).address.toNat) + 2 * q.toNat), len := len
          reads := [] }).map fun s => s.reads := by
  obtain ⟨-, -, hoff, -, -⟩ := search_bounds hc hs
  simp only [modbusTcpGetPollStr, hs, hd, if_true, Option.map_map, scanReversed, hoff, Nat.mul_comm q.toNat 2]
  rfl

/-- When a read with `reversed` ends: if one of the 256 bytes from the start of the block's
data, be they its own or of the heap behind it, is above `0x7F`. -/
theorem reversed_terminates_iff {T : RegisterTable} {c : PollingClient} (hc : WellFormed T c) {a q : UInt16} {i : ℕ}
    {buf : List UInt8} (hs : typedSearch c a q = some i) (hd : (c.pollData i).data = some buf)
    (heap malloc : ℕ → UInt8) (len : UInt16) :
    (∃ fuel r, modbusTcpGetPollStr fuel heap malloc c a q true len = some r) ↔
      ∃ k : UInt8, 0x7F < peek heap buf k.toNat := by
  rw [← loop_cyclic_iff (peek heap buf) { index := _, len := len, reads := [] }]
  apply exists_congr
  intro fuel
  have hmap := getPollStr_reversed hc hs hd heap malloc len fuel
  rw [← Option.isSome_iff_exists, ← Option.isSome_iff_exists, ← Option.isSome_map, hmap, Option.isSome_map]

/-- **The reversed scan leaves its range.** No read with `reversed` of a range inside a
block with data ends with only the range scanned: the first byte that the scan reads is
the one behind the range. -/
theorem reversed_not_bounded {type : PollType} {T : RegisterTable} (htype : type.registers? = some T)
    {c : PollingClient} (h : Reachable T c) {a q : UInt16} {i : ℕ} (hi : i < T.size) (hholds : (T.block i).Holds a q)
    (hdata : (c.pollData i).data.isSome = true) (heap malloc : ℕ → UInt8) :
    ¬ ∃ fuel r, modbusTcpGetPollStr fuel heap malloc c a q true 0 = some r ∧
      ∀ k ∈ r.scanned, 2 * (a.toNat - (T.block i).address.toNat) ≤ k ∧
        k < 2 * (a.toNat - (T.block i).address.toNat) + 2 * q.toNat := by
  rintro ⟨fuel, r, hr, hscanned⟩
  have hc := h.wellFormed
  obtain ⟨buf, hd⟩ := Option.isSome_iff_exists.mp hdata
  have hs := typedSearch_of_holds htype hc.table hi hholds
  obtain ⟨-, -, -, hend, hL⟩ := search_bounds hc hs
  have hmap := getPollStr_reversed hc hs hd heap malloc 0 fuel
  rw [hr, Option.map_some] at hmap
  obtain ⟨s, hloop, hreads⟩ := Option.map_eq_some_iff.mp hmap.symm
  have hfirst := mem_reads_of_loop_down _ hloop (.inr ⟨Nat.zero_le _, rfl⟩)
  rw [hreads] at hfirst
  have hbad := (hscanned _ hfirst).2
  rw [UInt8.toNat_ofNat'] at hbad
  omega

/-- The read of the model with `reversed`. -/
theorem reversed_model_not_bounded :
    ¬ ∃ fuel r, modbusTcpGetPollStr fuel (fun _ => 0) (fun _ => 0) polledModel 30000 15 true 0 = some r ∧
      ∀ k ∈ r.scanned, 2 * ((30000 : UInt16).toNat - (huaweiRegisters.block 0).address.toNat) ≤ k ∧
        k < 2 * ((30000 : UInt16).toNat - (huaweiRegisters.block 0).address.toNat) + 2 * (15 : UInt16).toNat :=
  reversed_not_bounded (T := huaweiRegisters) (show PollType.huawei.registers? = _ from rfl) polledModel_reachable
    (by decide) (by decide) (by decide) _ _

/-- Where the heap behind the data has no byte above `0x7F` either, this read does not end. -/
theorem reversed_model_endless :
    ¬ ∃ fuel r, modbusTcpGetPollStr fuel (fun _ => 0) (fun _ => 0) polledModel 30000 15 true 0 = some r := by
  have hbytes : ∀ k < 256, ¬ 0x7F < peek (fun _ => 0) ((polledModel.pollData 0).data.getD []) k := by decide +kernel
  have hdata : (polledModel.pollData 0).data = some ((polledModel.pollData 0).data.getD []) := by decide +kernel
  rw [reversed_terminates_iff polledModel_reachable.wellFormed (i := 0) (by decide) hdata]
  rintro ⟨k, hk⟩
  exact hbytes k.toNat k.toNat_lt hk

end ModbusProxy.Poll
