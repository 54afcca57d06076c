import ModbusProxy.Convert.Huawei

/-!
# Snapshots

A converter takes the lock of the cache for every call anew. Between two calls the polling
thread may store any number of polls, of any block.

## The model

The atomic steps are the critical sections: a store of a block (`Save`) and a call of the
converter. A schedule says which stores happen before each call, since the call before
it. The polls of a block are numbered by the stores of that block (`pollNumber`).

## What is proved

`samePoll_iff`: all that the calls take from a block comes from one poll of it exactly if no
store of the block falls between two of these calls. Then they read one state of the block
(`readsBlock_blockwise`), though two blocks may be read in states of different times; one
state of several blocks is read if none of them is stored from the first call to the last
(`readsBlock_still`). `huawei_snapshot`: what this means for `huawei_get_values`.
-/

namespace ModbusProxy.Convert

open Memory Endian Poll Runs

/-- A store of a block by `modbus_tcp_save_poll_data`. -/
structure Save (T : RegisterTable) where
  /-- The block. -/
  block : Fin T.size
  /-- The buffer it is stored from. -/
  data : List UInt8
  /-- The buffer is large enough. -/
  sized : (T.block block).length.toNat * 2 ≤ data.length
  /-- Whether the allocation succeeds. -/
  mallocOk : Bool

variable {T : RegisterTable}

/-- The client after a store. -/
def saveStep (c : PollingClient) (s : Save T) : PollingClient :=
  modbusTcpSavePollData c (T.block s.block).address s.data (byteLength (T.block s.block)) s.mallocOk

/-- The stores before a call, where `saves k` are those between the calls `k - 1` and `k`. -/
def history (saves : ℕ → List (Save T)) (k : ℕ) : List (Save T) := (List.range (k + 1)).flatMap saves

/-- The client at a call. -/
def clientAt (c : PollingClient) (saves : ℕ → List (Save T)) (k : ℕ) : PollingClient :=
  run saveStep c (history saves k)

/-- Which poll of a block is cached at a call: how many stores of the block there were. -/
def pollNumber (saves : ℕ → List (Save T)) (i : Fin T.size) (k : ℕ) : ℕ :=
  (history saves k).countP fun s => s.block = i

/-- All that the calls take from a block comes from one poll. -/
def SamePoll (calls : List Call) (saves : ℕ → List (Save T)) (i : Fin T.size) : Prop :=
  ∀ p ∈ calls, ∀ p' ∈ calls, (T.block i).Holds p.address p.length → (T.block i).Holds p'.address p'.length →
    pollNumber saves i p.number = pollNumber saves i p'.number

/-- No store of a block falls between two calls that take something from it. -/
def Undisturbed (calls : List Call) (saves : ℕ → List (Save T)) (i : Fin T.size) : Prop :=
  ∀ p ∈ calls, ∀ p' ∈ calls, (T.block i).Holds p.address p.length → (T.block i).Holds p'.address p'.length →
    ∀ k, p.number < k → k ≤ p'.number → ∀ s ∈ saves k, s.block ≠ i

/-- No store of a block falls between the first call and the last. -/
def Still (calls : List Call) (saves : ℕ → List (Save T)) (i : Fin T.size) : Prop :=
  ∀ p ∈ calls, ∀ k, 0 < k → k ≤ p.number → ∀ s ∈ saves k, s.block ≠ i

/-- Whatever the calls take from a block is that block's registers among `reg`. -/
def ReadsBlock (calls : List Call) (r : Reader) (reg : ℕ → UInt16) (i : Fin T.size) : Prop :=
  ∀ p ∈ calls, (T.block i).Holds p.address p.length →
    ∀ data, r p.number p.address p.length true data = registerReader reg p.number p.address p.length true data

/-! ### Histories -/

section Histories

variable {saves : ℕ → List (Save T)} {i : Fin T.size}

theorem history_add (k d : ℕ) :
    history saves (k + d) = history saves k ++ (List.range d).flatMap fun j => saves (k + 1 + j) := by
  rw [history, show k + d + 1 = k + 1 + d by omega, List.range_add, List.flatMap_append, List.flatMap_map]
  rfl

theorem pollNumber_add (k d : ℕ) : pollNumber saves i (k + d) = pollNumber saves i k +
    ((List.range d).flatMap fun j => saves (k + 1 + j)).countP fun s => s.block = i := by
  rw [pollNumber, history_add, List.countP_append, pollNumber]

/-- The number of the poll is the same at a later call if no store comes in between. -/
theorem pollNumber_eq_iff {k k' : ℕ} (h : k ≤ k') :
    pollNumber saves i k = pollNumber saves i k' ↔ ∀ j, k < j → j ≤ k' → ∀ s ∈ saves j, s.block ≠ i := by
  obtain ⟨d, rfl⟩ := Nat.exists_eq_add_of_le h
  rw [pollNumber_add, Nat.left_eq_add, List.countP_eq_zero]
  simp only [List.mem_flatMap, List.mem_range, decide_eq_true_eq]
  constructor
  · intro hnone j hlo hhi s hs
    exact hnone s ⟨j - (k + 1), by omega, by rwa [show k + 1 + (j - (k + 1)) = j by omega]⟩
  · rintro hnone s ⟨j, hj, hs⟩
    exact hnone (k + 1 + j) (by omega) (by omega) s hs

/-- **When the calls see one poll of a block.** -/
theorem samePoll_iff (calls : List Call) : SamePoll calls saves i ↔ Undisturbed calls saves i := by
  constructor
  · intro h p hp p' hp' hholds hholds' k hlo hhi
    exact (pollNumber_eq_iff (by omega)).mp (h p hp p' hp' hholds hholds') k hlo hhi
  · intro h p hp p' hp' hholds hholds'
    rcases Nat.le_total p.number p'.number with hle | hle
    · exact (pollNumber_eq_iff hle).mpr (h p hp p' hp' hholds hholds')
    · exact ((pollNumber_eq_iff hle).mpr (h p' hp' p hp hholds' hholds)).symm

end Histories

/-! ### One state of a block -/

section States

variable {c : PollingClient} {saves : ℕ → List (Save T)} {i : Fin T.size}

theorem saveStep_reachable (h : Reachable T c) (s : Save T) : Reachable T (saveStep c s) :=
  h.save s.mallocOk s.block.isLt s.sized

theorem clientAt_reachable (h : Reachable T c) (saves : ℕ → List (Save T)) (k : ℕ) :
    Reachable T (clientAt c saves k) := by
  rw [clientAt]
  exact run_invariant (I := Reachable T) (fun _ s hc => saveStep_reachable hc s) h _

/-- A store changes the entry of its block only. -/
theorem pollData_saveStep (h : Reachable T c) {s : Save T} (hs : s.block ≠ i) :
    (saveStep c s).pollData i = c.pollData i := by
  obtain rfl := h.wellFormed.table
  rw [saveStep, save_eq c s.block.isLt]
  exact Function.update_of_ne (fun hi => hs (Fin.ext hi.symm)) _ _

theorem pollData_run (h : Reachable T c) {ss : List (Save T)} (hss : ∀ s ∈ ss, s.block ≠ i) :
    (run saveStep c ss).pollData i = c.pollData i := by
  induction ss generalizing c with
  | nil => rfl
  | cons s ss ih =>
    rw [run, List.foldl_cons, ← run, ih (saveStep_reachable h s) fun s' hs' => hss s' (List.mem_cons_of_mem s hs')]
    exact pollData_saveStep h (hss s List.mem_cons_self)

/-- While the number of the poll is the same, so is the entry. -/
theorem entry_eq (h : Reachable T c) {k k' : ℕ} (hle : k ≤ k')
    (hnumber : pollNumber saves i k = pollNumber saves i k') :
    (clientAt c saves k').pollData i = (clientAt c saves k).pollData i := by
  have hnone := (pollNumber_eq_iff hle).mp hnumber
  obtain ⟨d, rfl⟩ := Nat.exists_eq_add_of_le hle
  rw [clientAt, history_add, run_append]
  refine pollData_run (clientAt_reachable h saves k) fun s hs => ?_
  obtain ⟨j, hj, hs⟩ := List.mem_flatMap.mp hs
  rw [List.mem_range] at hj
  exact hnone (k + 1 + j) (by omega) (by omega) s hs

/-- A number of a call that takes something from a block. -/
def callOn (T : RegisterTable) (calls : List Call) (i : ℕ) : ℕ :=
  match calls.find? fun p => decide ((T.block i).Holds p.address p.length) with
  | none => 0
  | some p => p.number

/-- The client with every block as the first call found it that takes something from it.
Two blocks of it need not have been cached at the same time. -/
def blockwise (T : RegisterTable) (c : PollingClient) (calls : List Call) (saves : ℕ → List (Save T)) : PollingClient :=
  { c with pollData := fun i => (clientAt c saves (callOn T calls i)).pollData i }

/-- A call reads the registers of a client with the same entry for the block. -/
theorem agree_of_entry (h : Reachable T c) {calls : List Call} (hcalls : HeldBy T calls) {p : Call} (hp : p ∈ calls)
    (hholds : (T.block i).Holds p.address p.length) {c' : PollingClient} (htable : c'.table = T)
    (hentry : c'.pollData i = (clientAt c saves p.number).pollData i) (heap : ℕ → UInt8) (bigEndian : Bool)
    (data : List UInt8) :
    clientReader (clientAt c saves) heap p.number p.address p.length bigEndian data =
      registerReader c'.register p.number p.address p.length bigEndian data := by
  have hat := (clientAt_reachable h saves p.number).wellFormed
  simp only [clientReader]
  rw [typed_eq_registers hat (hcalls p hp).1 i.isLt hholds heap bigEndian data, registerReader]
  refine congrArg (overwrite data) (hostBytes_congr fun k hk => ?_)
  obtain ⟨hlo, hhi⟩ := hholds
  rw [UInt16.le_iff_toNat_le] at hlo
  rw [register_of_mem hat.table i.isLt (by omega) (by omega),
    register_of_mem htable i.isLt (by omega) (by omega), hentry]

/-- **What the calls read from a block of which they see one poll**: the registers of the
block as the first of them found it. -/
theorem readsBlock_blockwise (h : Reachable T c) {calls : List Call} (hcalls : HeldBy T calls)
    (hsame : SamePoll calls saves i) (heap : ℕ → UInt8) :
    ReadsBlock calls (clientReader (clientAt c saves) heap) (blockwise T c calls saves).register i := by
  intro p hp hholds
  obtain ⟨p₀, hfind⟩ : ∃ p₀, calls.find? (fun p => decide ((T.block i).Holds p.address p.length)) = some p₀ := by
    rw [← Option.isSome_iff_exists, List.find?_isSome]
    exact ⟨p, hp, by simpa using hholds⟩
  have hholds₀ : (T.block i).Holds p₀.address p₀.length := by simpa using List.find?_some hfind
  have hnumber := hsame p hp p₀ (List.mem_of_find?_eq_some hfind) hholds hholds₀
  have hentry : (blockwise T c calls saves).pollData i = (clientAt c saves p.number).pollData i := by
    simp only [blockwise, callOn, hfind]
    rcases Nat.le_total p.number p₀.number with hle | hle
    · exact entry_eq h hle hnumber
    · exact (entry_eq h hle hnumber.symm).symm
  have htable : (blockwise T c calls saves).table = T := h.wellFormed.table
  exact agree_of_entry h hcalls hp hholds htable hentry heap true

/-- **What the calls read from a block that is not stored in the meantime**: its registers
at the first call. -/
theorem readsBlock_still (h : Reachable T c) {calls : List Call} (hcalls : HeldBy T calls)
    (hstill : Still calls saves i) (heap : ℕ → UInt8) :
    ReadsBlock calls (clientReader (clientAt c saves) heap) (clientAt c saves 0).register i := by
  intro p hp hholds
  have hnumber := (pollNumber_eq_iff (Nat.zero_le p.number)).mpr (hstill p hp)
  have hentry := (entry_eq h (Nat.zero_le p.number) hnumber).symm
  exact agree_of_entry h hcalls hp hholds (clientAt_reachable h saves 0).wellFormed.table hentry heap true

end States

/-! ### The inverter's values -/

/-- The block of the inverter's and the panels' registers. -/
def inverterBlock : Fin huaweiRegisters.size := ⟨2, by decide⟩

/-- The block of the energy meter's registers. -/
def meterBlock : Fin huaweiRegisters.size := ⟨4, by decide⟩

/-- The block of the battery's registers. -/
def batteryBlock : Fin huaweiRegisters.size := ⟨5, by decide⟩

/-- The meter's registers are read by one call. -/
theorem samePoll_meter (saves : ℕ → List (Save huaweiRegisters)) : SamePoll huaweiCalls saves meterBlock := by
  have hone : ∀ p ∈ huaweiCalls, ∀ p' ∈ huaweiCalls, (huaweiRegisters.block meterBlock).Holds p.address p.length →
      (huaweiRegisters.block meterBlock).Holds p'.address p'.length → p = p' := by decide
  intro p hp p' hp' hholds hholds'
  rw [hone p hp p' hp' hholds hholds']

section Values

variable {r : Reader} {reg : ℕ → UInt16} (loc : HuaweiLocals) (values : PvValues)

theorem ReadsBlock.read {i : Fin huaweiRegisters.size} (h : ReadsBlock huaweiCalls r reg i) {α : Type} [Stored α]
    (x : α) (n : ℕ) (a q : UInt16) (hp : ⟨n, a, q⟩ ∈ huaweiCalls) (hholds : (huaweiRegisters.block i).Holds a q) :
    r.read n a q true x = (registerReader reg).read n a q true x :=
  congrArg ofBytes (h ⟨n, a, q⟩ hp hholds (toBytes x))

/-- The powers of the panels are made of reads of the inverter's block. -/
theorem pvPower_of_reads (hinverter : ReadsBlock huaweiCalls r reg inverterBlock) :
    (huaweiGetValues r loc values).inverter.pv1Power = (huaweiOf reg).inverter.pv1Power ∧
      (huaweiGetValues r loc values).inverter.pv2Power = (huaweiOf reg).inverter.pv2Power := by
  rw [← huaweiGetValues_eq _ loc values]
  simp only [huaweiGetValues, huaweiInverter]
  simp (disch := decide) only [hinverter.read, and_self]

/-- The yields are made of reads of the inverter's and the battery's block. -/
theorem pvEnergy_of_reads (hinverter : ReadsBlock huaweiCalls r reg inverterBlock)
    (hbattery : ReadsBlock huaweiCalls r reg batteryBlock) :
    (huaweiGetValues r loc values).inverter.dailyPvEnergyWh = (huaweiOf reg).inverter.dailyPvEnergyWh ∧
      (huaweiGetValues r loc values).inverter.totalPvEnergyWh = (huaweiOf reg).inverter.totalPvEnergyWh := by
  rw [← huaweiGetValues_eq _ loc values]
  simp only [huaweiGetValues, huaweiInverter, huaweiBattery]
  simp (disch := decide) only [hinverter.read, hbattery.read, and_self]

/-- All values are made of reads of the blocks. -/
theorem values_of_reads (hall : ∀ i : Fin huaweiRegisters.size, ReadsBlock huaweiCalls r reg i) :
    huaweiGetValues r loc values = huaweiOf reg := by
  rw [← huaweiGetValues_eq _ loc values]
  refine huaweiGetValues_congr (fun p hp data => ?_) loc values
  obtain ⟨-, i, hi, hholds⟩ := huaweiCalls_held p hp
  exact hall ⟨i, hi⟩ p hp hholds data

end Values

/-- **Snapshots of the inverter.** In every interleaving of a call of `huawei_get_values`
with stores, what the call takes from a block comes from one poll exactly if no store of
the block falls between two of its reads from the block; then it reads the block as the
first of these reads found it. So the meter's registers always come from one poll, a
panel's power is a product of values polled together if the inverter's block is
undisturbed, and the yields are made of counters of one poll of each block if the battery's
is, too. The two polls may have been cached at different times; the yields are those of one
state of the cache, at the first read, if neither block is stored from the first read to
the last, and all values are if no block is. -/
theorem huawei_snapshot {c : PollingClient} (h : Reachable huaweiRegisters c)
    (saves : ℕ → List (Save huaweiRegisters)) (heap : ℕ → UInt8) (loc : HuaweiLocals) (values : PvValues) :
    let r := clientReader (clientAt c saves) heap
    let found := (blockwise huaweiRegisters c huaweiCalls saves).register
    let atFirst := (clientAt c saves 0).register
    let result := huaweiGetValues r loc values
    (∀ i, SamePoll huaweiCalls saves i ↔ Undisturbed huaweiCalls saves i) ∧
      (∀ i, SamePoll huaweiCalls saves i → ReadsBlock huaweiCalls r found i) ∧
      SamePoll huaweiCalls saves meterBlock ∧
      (SamePoll huaweiCalls saves inverterBlock →
        result.inverter.pv1Power = (huaweiOf found).inverter.pv1Power ∧
          result.inverter.pv2Power = (huaweiOf found).inverter.pv2Power) ∧
      (SamePoll huaweiCalls saves inverterBlock → SamePoll huaweiCalls saves batteryBlock →
        result.inverter.dailyPvEnergyWh = (huaweiOf found).inverter.dailyPvEnergyWh ∧
          result.inverter.totalPvEnergyWh = (huaweiOf found).inverter.totalPvEnergyWh) ∧
      ((∀ i, SamePoll huaweiCalls saves i) → result = huaweiOf found) ∧
      (∀ i, Still huaweiCalls saves i → ReadsBlock huaweiCalls r atFirst i) ∧
      (Still huaweiCalls saves inverterBlock → Still huaweiCalls saves batteryBlock →
        result.inverter.dailyPvEnergyWh = (huaweiOf atFirst).inverter.dailyPvEnergyWh ∧
          result.inverter.totalPvEnergyWh = (huaweiOf atFirst).inverter.totalPvEnergyWh) ∧
      ((∀ i, Still huaweiCalls saves i) → result = huaweiOf atFirst) := by
  intro r found atFirst result
  have hfound : ∀ i, SamePoll huaweiCalls saves i → ReadsBlock huaweiCalls r found i := fun i hsame =>
    readsBlock_blockwise h huaweiCalls_held hsame heap
  have hfirst : ∀ i, Still huaweiCalls saves i → ReadsBlock huaweiCalls r atFirst i := fun i hstill =>
    readsBlock_still h huaweiCalls_held hstill heap
  refine ⟨fun i => samePoll_iff huaweiCalls, hfound, samePoll_meter saves, fun hinverter => ?_,
    fun hinverter hbattery => ?_, fun hall => ?_, hfirst, fun hinverter hbattery => ?_, fun hall => ?_⟩
  · exact pvPower_of_reads loc values (hfound _ hinverter)
  · exact pvEnergy_of_reads loc values (hfound _ hinverter) (hfound _ hbattery)
  · exact values_of_reads loc values fun i => hfound i (hall i)
  · exact pvEnergy_of_reads loc values (hfirst _ hinverter) (hfirst _ hbattery)
  · exact values_of_reads loc values fun i => hfirst i (hall i)

/-- A poll of the inverter's block with a voltage and a current of the first panel. -/
def panelPoll (voltage current : UInt16) : Save huaweiRegisters where
  block := inverterBlock
  data := beWords (fun k => if k = 0 then voltage else if k = 1 then current else 0) 100
  sized := by rw [length_beWords]; decide
  mallocOk := true

/-- The panel is polled at 200 V without a current, and once more at 0 V with 10 A while
the values are collected. -/
def betweenReads (k : ℕ) : List (Save huaweiRegisters) :=
  if k = 0 then [panelPoll 2000 0] else if k = 1 then [panelPoll 0 1000] else []

theorem fresh_reachable : Reachable huaweiRegisters (.fresh huaweiRegisters fun _ => 0) := .start _

/-- The power is 2000 W, though the panel had none at either poll. -/
theorem huawei_torn :
    ¬ SamePoll huaweiCalls betweenReads inverterBlock ∧
      (huaweiGetValues (clientReader (clientAt (.fresh huaweiRegisters fun _ => 0) betweenReads) fun _ => 0) default
        default).inverter.pv1Power = 2000 := by
  constructor
  · intro h
    exact absurd (h ⟨0, 32016, 1⟩ (by decide) ⟨1, 32017, 1⟩ (by decide) (by decide) (by decide)) (by decide +kernel)
  · decide +kernel

/-- A poll of the battery's block in which every register is `x`. -/
def batteryPoll (x : UInt16) : Save huaweiRegisters where
  block := batteryBlock
  data := beWords (fun _ => x) 88
  sized := by rw [length_beWords]; decide
  mallocOk := true

/-- The battery is polled once more between the first two reads, which are of the
inverter's block: that disturbs neither block, but the cache of the first read had other
counters of the battery. -/
theorem huawei_whole :
    let saves : ℕ → List (Save huaweiRegisters) := fun k =>
      if k = 0 then [panelPoll 2000 500, batteryPoll 1] else if k = 1 then [batteryPoll 7] else []
    let r := clientReader (clientAt (.fresh huaweiRegisters fun _ => 0) saves) fun _ => 0
    let found := (blockwise huaweiRegisters (.fresh huaweiRegisters fun _ => 0) huaweiCalls saves).register
    (huaweiGetValues r default default).inverter.pv1Power = (huaweiOf found).inverter.pv1Power ∧
      (huaweiGetValues r default default).inverter.dailyPvEnergyWh = (huaweiOf found).inverter.dailyPvEnergyWh ∧
      found 37784 = 7 ∧ (clientAt (.fresh huaweiRegisters fun _ => 0) saves 0).register 37784 = 1 := by
  intro saves r found
  have hsnapshot := huawei_snapshot fresh_reachable saves (fun _ => 0) default default
  -- the only store after the first read is before the second and of the battery's block
  have hlater : ∀ k, 0 < k → ∀ s ∈ saves k, k = 1 ∧ s.block = batteryBlock := by
    intro k hk s hs
    simp only [saves, if_neg (Nat.ne_of_gt hk)] at hs
    split at hs
    · rename_i hone
      rw [List.mem_singleton.mp hs]
      exact ⟨hone, rfl⟩
    · cases hs
  have hbatteryCalls : ∀ p ∈ huaweiCalls, (huaweiRegisters.block batteryBlock).Holds p.address p.length →
      8 ≤ p.number := by decide
  have hinverter : SamePoll huaweiCalls saves inverterBlock := by
    refine (hsnapshot.1 inverterBlock).mpr fun p _ p' _ _ _ k hlo _ s hs hblock => ?_
    rw [(hlater k (by omega) s hs).2] at hblock
    exact absurd hblock (by decide)
  have hbattery : SamePoll huaweiCalls saves batteryBlock := by
    refine (hsnapshot.1 batteryBlock).mpr fun p hp p' _ hholds _ k hlo _ s hs _ => ?_
    have hone := (hlater k (by omega) s hs).1
    have height := hbatteryCalls p hp hholds
    omega
  refine ⟨(hsnapshot.2.2.2.1 hinverter).1, (hsnapshot.2.2.2.2.1 hinverter hbattery).1, ?_, ?_⟩
  · decide +kernel
  · decide +kernel

end ModbusProxy.Convert
