import ModbusProxy.Logger.Delivery

/-!
# The summary of the ring

After every sample `update_cached_values` notes in `cached_values_info` how many samples
are kept, where the oldest of them is and the times of the oldest and the newest.

## The model

The functions are those of `Logger.Ring` and `Logger.Upload`. Only the flag `uploaded` of a
slot changes after it was written, so slots are compared without it.

## What is proved

The summary is computed from the variables as `update_cached_values` leaves them
(`updateCachedValues_info`), and an upload does not touch it. So after any run that has
stored a sample it is the summary of the samples stored, of which the slots from
`oldest_ts_index` on are the last ones (`cached_values_info_of_history`).
-/

namespace ModbusProxy.Logger

open AckQueue Loop

/-- The `n` slots from `i` on, starting over at the end of the array. -/
def SolarLogger.readFrom (s : SolarLogger) (i n : ℕ) : Option (List CachedSolarValues) :=
  (List.range n).mapM fun k => s.slot? ((i + k) % maxAmountOfCachedData)

/-- How many of `k` samples the ring keeps. -/
def kept (k : ℕ) : ℕ := min k maxAmountOfCachedData

/-- `cached_values_info` is the summary of the samples `posted`. -/
structure Summarises (info : CachedSolarValuesInfo) (posted : List CachedSolarValues) : Prop where
  /-- How many are kept. -/
  num : info.numOfCachedValues = kept posted.length
  /-- Where the oldest of them is. -/
  oldestTsIndex : info.oldestTsIndex = (posted.length - kept posted.length) % maxAmountOfCachedData
  /-- When it was stored. -/
  oldestTs : (posted[posted.length - kept posted.length]?).map CachedSolarValues.ts = some info.oldestTs
  /-- When the last one was stored. -/
  newestTs : posted.getLast?.map CachedSolarValues.ts = some info.newestTs

/-! ### What computes it -/

variable {q : Queue} {posted : List CachedSolarValues} {s s' : SolarLogger} {sample : Sample}

/-- Where `update_cached_values` takes the oldest slot to be. -/
def SolarLogger.oldestIndex (s : SolarLogger) : ℕ := if s.cacheOverflow then s.cacheIndex else 0

theorem summariseFull_info (h : s.summariseFull = some s') :
    s'.cacheIndex = s.cacheIndex ∧ s'.cacheOverflow = s.cacheOverflow ∧ s'.cachedValues = s.cachedValues ∧
      ∃ oldest newest, s.slot? s.cacheIndex = some oldest ∧ s.slot? s.newestIndex = some newest ∧
        s'.cachedValuesInfo = ⟨maxAmountOfCachedData, s.cacheIndex, oldest.ts, newest.ts⟩ := by
  obtain ⟨oldest, hold, h⟩ := Option.bind_eq_some_iff.mp h
  obtain ⟨newest, hnew, h⟩ := Option.bind_eq_some_iff.mp h
  cases h
  exact ⟨rfl, rfl, rfl, oldest, newest, hold, hnew, rfl⟩

theorem summariseFirst_info (hne : s.cacheIndex ≠ 0) (h : s.summariseFirst = some s') :
    s'.cacheIndex = s.cacheIndex ∧ s'.cacheOverflow = s.cacheOverflow ∧ s'.cachedValues = s.cachedValues ∧
      ∃ oldest newest, s.slot? 0 = some oldest ∧ s.slot? s.newestIndex = some newest ∧
        s'.cachedValuesInfo = ⟨s.cacheIndex, 0, oldest.ts, newest.ts⟩ := by
  rw [SolarLogger.summariseFirst, if_pos hne] at h
  obtain ⟨oldest, hold, h⟩ := Option.bind_eq_some_iff.mp h
  obtain ⟨newest, hnew, h⟩ := Option.bind_eq_some_iff.mp h
  cases h
  refine ⟨rfl, rfl, rfl, oldest, newest, hold, ?_, rfl⟩
  rw [SolarLogger.newestIndex, if_neg hne]
  exact hnew

theorem slot?_congr (h : s'.cachedValues = s.cachedValues) (i : ℕ) : s'.slot? i = s.slot? i := by
  rw [SolarLogger.slot?, SolarLogger.slot?, h]

theorem newestIndex_congr (h : s'.cacheIndex = s.cacheIndex) : s'.newestIndex = s.newestIndex := by
  rw [SolarLogger.newestIndex, SolarLogger.newestIndex, h]

/-- The summary is that of the variables `update_cached_values` leaves, unless the ring is empty. -/
theorem updateCachedValues_info (h : updateCachedValues s sample = some s')
    (hsome : s'.cacheOverflow = false → s'.cacheIndex ≠ 0) :
    ∃ oldest newest, s'.slot? s'.oldestIndex = some oldest ∧ s'.slot? s'.newestIndex = some newest ∧
      s'.cachedValuesInfo = ⟨if s'.cacheOverflow then maxAmountOfCachedData else s'.cacheIndex, s'.oldestIndex,
        oldest.ts, newest.ts⟩ := by
  obtain ⟨slot, -, h⟩ := Option.bind_eq_some_iff.mp h
  generalize ((s.setSlot s.cacheIndex (updateCachedValue slot sample)).advance) = s₁ at h
  have h : (if s₁.cacheOverflow then s₁.summariseFull else s₁.summariseFirst) = some s' := h
  cases hover : s₁.cacheOverflow with
  | true =>
    rw [if_pos hover] at h
    obtain ⟨hcache, hflag, hvalues, oldest, newest, hold, hnew, hinfo⟩ := summariseFull_info h
    rw [SolarLogger.oldestIndex, hflag, hover, if_pos rfl, if_pos rfl, newestIndex_congr hcache, slot?_congr hvalues,
      slot?_congr hvalues, hcache]
    exact ⟨oldest, newest, hold, hnew, hinfo⟩
  | false =>
    have hne : s₁.cacheIndex ≠ 0 := by
      by_contra hzero
      rw [if_neg (by rw [hover]; decide), SolarLogger.summariseFirst, if_neg (by rw [hzero]; decide)] at h
      cases h
      exact hsome hover hzero
    rw [if_neg (by rw [hover]; decide)] at h
    obtain ⟨hcache, hflag, hvalues, oldest, newest, hold, hnew, hinfo⟩ := summariseFirst_info hne h
    rw [SolarLogger.oldestIndex, hflag, hover, if_neg Bool.false_ne_true, if_neg Bool.false_ne_true,
      newestIndex_congr hcache, slot?_congr hvalues, slot?_congr hvalues, hcache]
    exact ⟨oldest, newest, hold, hnew, hinfo⟩

/-! ### What it says -/

theorem Represents.kept_eq (h : Represents q posted s) :
    (if s.cacheOverflow then maxAmountOfCachedData else s.cacheIndex) = kept q.posted := by
  rw [h.cacheOverflow_eq, h.cacheIndex_eq, kept]
  by_cases hlap : maxAmountOfCachedData ≤ q.posted
  · rw [if_pos (decide_eq_true hlap), Nat.min_eq_right hlap]
  · have hlt : q.posted < maxAmountOfCachedData := Nat.lt_of_not_le hlap
    rw [if_neg (by rw [decide_eq_true_iff]; exact hlap), Nat.min_eq_left (Nat.le_of_lt hlt), Nat.mod_eq_of_lt hlt]

/-- The oldest slot is that of the first sample that is kept. -/
theorem Represents.oldestIndex_eq (h : Represents q posted s) :
    s.oldestIndex = (q.posted - kept q.posted) % maxAmountOfCachedData := by
  rw [SolarLogger.oldestIndex, h.cacheOverflow_eq, h.cacheIndex_eq, kept]
  by_cases hlap : maxAmountOfCachedData ≤ q.posted
  · rw [if_pos (decide_eq_true hlap), Nat.min_eq_right hlap, Nat.mod_eq_sub_mod hlap]
  · rw [if_neg (by rw [decide_eq_true_iff]; exact hlap), Nat.min_eq_left (Nat.le_of_not_le hlap), Nat.sub_self,
      Nat.zero_mod]

theorem kept_le (k : ℕ) : kept k ≤ k := Nat.min_le_left ..

theorem kept_le_maxAmount (k : ℕ) : kept k ≤ maxAmountOfCachedData := Nat.min_le_right ..

theorem kept_pos {k : ℕ} (h : 0 < k) : 0 < kept k := Nat.lt_min.mpr ⟨h, maxAmountOfCachedData_pos⟩

/-- A sample that is kept is in its slot. -/
theorem Represents.slot?_kept (h : Represents q posted s) {i : ℕ} (hi : posted.length - kept posted.length ≤ i)
    (hlt : i < posted.length) :
    (s.slot? (i % maxAmountOfCachedData)).map (CachedSolarValues.setUploaded false) = posted[i]? := by
  have hroom : posted.length ≤ i + maxAmountOfCachedData := by
    have hkept := kept_le_maxAmount posted.length
    omega
  rw [h.slot?_item (h.length_eq ▸ hlt) (h.length_eq ▸ hroom), item_eq_get hlt, List.getElem?_eq_getElem hlt,
    Option.map_some, setUploaded_setUploaded, setUploaded_self (h.fresh _ (List.get_mem ..))]
  rfl

theorem Represents.slot?_ts (h : Represents q posted s) {i : ℕ} (hi : posted.length - kept posted.length ≤ i)
    (hlt : i < posted.length) {v : CachedSolarValues} (hv : s.slot? (i % maxAmountOfCachedData) = some v) :
    posted[i]?.map CachedSolarValues.ts = some v.ts := by
  rw [← h.slot?_kept hi hlt, hv]
  rfl

/-- The summary that is taken of a ring with samples is that of the samples. -/
theorem Represents.summarises (h : Represents q posted s) (hne : posted ≠ [])
    (hinfo : ∃ oldest newest, s.slot? s.oldestIndex = some oldest ∧ s.slot? s.newestIndex = some newest ∧
      s.cachedValuesInfo = ⟨if s.cacheOverflow then maxAmountOfCachedData else s.cacheIndex, s.oldestIndex, oldest.ts,
        newest.ts⟩) : Summarises s.cachedValuesInfo posted := by
  obtain ⟨oldest, newest, hold, hnew, hinfo⟩ := hinfo
  have hpos : 0 < posted.length := List.length_pos_iff.mpr hne
  have hkept := kept_pos hpos
  have hnewest : s.newestIndex = (posted.length - 1) % maxAmountOfCachedData :=
    newestIndex_eq (by rw [h.cacheIndex_eq, h.length_eq, Nat.sub_add_cancel (h.length_eq ▸ hpos)])
  rw [h.oldestIndex_eq, ← h.length_eq] at hold
  rw [hnewest] at hnew
  rw [hinfo, h.kept_eq, h.oldestIndex_eq, ← h.length_eq]
  refine ⟨rfl, rfl, h.slot?_ts (Nat.le_refl _) (by omega) hold, ?_⟩
  rw [List.getLast?_eq_getElem?]
  exact h.slot?_ts (by omega) (by omega) hnew

/-- The slots of the last `n` samples hold them. -/
theorem Represents.readFrom (h : Represents q posted s) {n : ℕ} (hn : n ≤ posted.length)
    (hroom : n ≤ maxAmountOfCachedData) :
    ∃ slots, s.readFrom ((posted.length - n) % maxAmountOfCachedData) n = some slots ∧
      slots.map (CachedSolarValues.setUploaded false) = posted.drop (posted.length - n) := by
  refine ⟨(List.range n).map fun k => (item posted (posted.length - n + k)).setUploaded
    (decide (posted.length - n + k < q.head)), mapM_eq_map fun k hk => ?_, ?_⟩
  · have hlt := List.mem_range.mp hk
    rw [Nat.mod_add_mod]
    exact h.slot?_item (by rw [← h.length_eq]; omega) (by rw [← h.length_eq]; omega)
  · refine List.ext_getElem (by simp; omega) fun k hk hk' => ?_
    have hlt : posted.length - n + k < posted.length := by
      rw [List.length_drop] at hk'
      omega
    rw [List.getElem_map, List.getElem_map, List.getElem_range, setUploaded_setUploaded, List.getElem_drop,
      item_eq_get hlt]
    exact setUploaded_self (h.fresh _ (List.get_mem ..))

/-! ### Runs -/

variable {c : Call} {u : Upload} {uploadTimeout : UInt64}

theorem markUploaded_info {n : ℕ} (h : s.markUploaded n = some s') : s'.cachedValuesInfo = s.cachedValuesInfo := by
  induction n generalizing s' with
  | zero => cases h; rfl
  | succ n ih =>
    obtain ⟨s₁, hmark, h⟩ := Option.bind_eq_some_iff.mp h
    obtain ⟨slot, -, h⟩ := Option.bind_eq_some_iff.mp h
    cases h
    have hinfo : s₁.cachedValuesInfo = s.cachedValuesInfo := ih hmark
    exact hinfo

theorem send_info {it : Iteration Upload} (h : u.send c uploadTimeout = some it) :
    it.state.logger.cachedValuesInfo = u.logger.cachedValuesInfo := by
  obtain ⟨records, -, h⟩ := Option.bind_eq_some_iff.mp h
  split at h
  · obtain ⟨s, hmark, h⟩ := Option.bind_eq_some_iff.mp h
    have hinfo := markUploaded_info hmark
    dsimp only at h
    split at h
    · cases h; exact hinfo
    split at h
    · cases h; exact hinfo
    · obtain ⟨d, -, h⟩ := Option.bind_eq_some_iff.mp h
      cases h; exact hinfo
  · cases h; rfl

theorem iterate_info {it : Iteration Upload} (h : u.iterate c uploadTimeout = some it) :
    it.state.logger.cachedValuesInfo = u.logger.cachedValuesInfo := by
  rcases iterate_cases h with ⟨d, hsend⟩ | ⟨-, hlogger⟩
  · have hinfo := send_info hsend
    exact hinfo
  · rw [hlogger]

/-- A call leaves the summary that `update_cached_values` has taken. -/
theorem solarLoggerPostData_info {requests : List Request} (h : solarLoggerPostData s c = some (s', requests))
    (hts : c.Stores) :
    ∃ s₁, updateCachedValues s c.sample = some s₁ ∧ s'.cachedValuesInfo = s₁.cachedValuesInfo := by
  rw [solarLoggerPostData, if_neg hts] at h
  obtain ⟨s₁, hupdate, h⟩ := Option.bind_eq_some_iff.mp h
  refine ⟨s₁, hupdate, ?_⟩
  dsimp only at h
  split at h
  · obtain ⟨u, hloop, h⟩ := Option.bind_eq_some_iff.mp h
    obtain ⟨d, -, h⟩ := Option.bind_eq_some_iff.mp h
    cases h
    exact loop_keeps (P := fun u => u.logger.cachedValuesInfo = s₁.cachedValuesInfo)
      (fun u it hu hit => (iterate_info hit).trans hu) rfl hloop
  · cases h; rfl

/-- The times of the samples that the calls store. -/
def storedTs (calls : List Call) : List (BitVec 32) :=
  (calls.filter fun c => decide c.Stores).map fun c => .ofInt 32 c.sample.ts

variable {calls : List Call} {h h' : History}

theorem Delivered.posted_ts (hd : Delivered s calls q h) :
    h.posted.map CachedSolarValues.ts = storedTs calls := by
  refine (List.forall₂_eq_eq_eq ▸ List.forall₂_map_right_iff.mpr (List.forall₂_map_left_iff.mpr
    (hd.posted.imp ?_)) : storedTs calls = _).symm
  rintro c v ⟨slot, rfl⟩
  rfl

/-- A call that stores leaves a summary of the samples. -/
theorem Delivered.call_summarises (hd : Delivered s calls q h) (hc : c.Stores) (hcall : h.call c = some h') :
    Summarises h'.logger.cachedValuesInfo h'.posted := by
  obtain ⟨⟨s', requests⟩, hpost, rfl⟩ := Option.map_eq_some_iff.mp hcall
  obtain ⟨s₁, hupdate, hinfo⟩ := solarLoggerPostData_info hpost hc
  obtain ⟨slot, s₂, hslot, hupdate', hrep⟩ := updateCachedValues_represents hd.represents c.sample
  obtain rfl : s₁ = s₂ := Option.some.inj (hupdate.symm.trans hupdate')
  have hwritten : c.written h.logger = [updateCachedValue slot c.sample] := by
    rw [Call.written, if_pos hc, hslot]
    rfl
  have hsome : s₁.cacheOverflow = false → s₁.cacheIndex ≠ 0 := by
    intro hfirst hzero
    have hkept := hrep.kept_eq
    rw [hfirst, if_neg Bool.false_ne_true, hzero] at hkept
    have hpos := kept_pos (Nat.succ_pos q.posted)
    exact absurd hkept (Nat.ne_of_lt hpos)
  show Summarises s'.cachedValuesInfo (h.posted ++ c.written h.logger)
  rw [hinfo, hwritten]
  exact hrep.summarises (List.append_ne_nil_of_right_ne_nil _ (List.cons_ne_nil _ _))
    (updateCachedValues_info hupdate hsome)

theorem history_summarises {start : Start} {garbage : ℕ → CachedSolarValues}
    (hrun : history (start.init garbage) calls = some h) (hne : h.posted ≠ []) :
    Summarises h.logger.cachedValuesInfo h.posted := by
  induction calls using List.reverseRecOn generalizing h with
  | nil =>
    cases hrun
    exact absurd rfl hne
  | append_singleton calls c ih =>
    obtain ⟨q, h₁, hrun₁, hd⟩ := history_delivered start garbage calls
    rw [history_append, hrun₁, Option.bind_some] at hrun
    by_cases hc : c.Stores
    · exact hd.call_summarises hc hrun
    · obtain ⟨hcall, -⟩ := hd.call_idle hc
      cases hcall.symm.trans hrun
      exact ih hrun₁ hne

/-- `cached_values_info` and the slots at the end of the run `calls`, in terms of its samples. -/
structure RingSummary (calls : List Call) (h : History) : Prop where
  /-- The samples are those of the calls that store theirs. -/
  posted : List.Forall₂ (fun c v => ∃ slot, v = updateCachedValue slot c.sample)
    (calls.filter fun c => decide c.Stores) h.posted
  /-- `num_of_cached_values` is how many are kept. -/
  num : h.logger.cachedValuesInfo.numOfCachedValues = min h.posted.length maxAmountOfCachedData
  /-- `newest_ts` is the time of the last sample. -/
  newestTs : (storedTs calls).getLast? = some h.logger.cachedValuesInfo.newestTs
  /-- `oldest_ts` is the time of the first that is kept. -/
  oldestTs : (storedTs calls)[h.posted.length - kept h.posted.length]? = some h.logger.cachedValuesInfo.oldestTs
  /-- `oldest_ts_index` is its slot. -/
  oldestTsIndex : (h.logger.slot? h.logger.cachedValuesInfo.oldestTsIndex).map (CachedSolarValues.setUploaded false) =
    h.posted[h.posted.length - kept h.posted.length]?
  /-- The slots from there on, read cyclically, hold the samples that are kept, in their order. -/
  slots : (h.logger.readFrom h.logger.cachedValuesInfo.oldestTsIndex (kept h.posted.length)).map
    (List.map (CachedSolarValues.setUploaded false)) =
      some (h.posted.drop (h.posted.length - kept h.posted.length))

/-- After any calls of which some store their sample, whatever the database answers, the
summary of the ring is the summary of the samples stored. -/
theorem cached_values_info_of_history (start : Start) (garbage : ℕ → CachedSolarValues) (calls : List Call)
    (hstores : ∃ c ∈ calls, c.Stores) :
    ∃ h, history (start.init garbage) calls = some h ∧ RingSummary calls h := by
  obtain ⟨q, h, hrun, hd⟩ := history_delivered start garbage calls
  have hpos : 0 < h.posted.length := by
    obtain ⟨c, hmem, hc⟩ := hstores
    have hin : c ∈ calls.filter fun c => decide c.Stores := List.mem_filter.mpr ⟨hmem, decide_eq_true hc⟩
    exact hd.posted.length_eq ▸ List.length_pos_of_mem hin
  have hsum := history_summarises hrun (List.length_pos_iff.mp hpos)
  have hkept := kept_pos hpos
  obtain ⟨slots, hread, hslots⟩ := hd.represents.readFrom (kept_le h.posted.length) (kept_le_maxAmount _)
  refine ⟨h, hrun, hd.posted, hsum.num, ?_, ?_, ?_, ?_⟩
  · rw [← hd.posted_ts, List.getLast?_map]
    exact hsum.newestTs
  · rw [← hd.posted_ts, List.getElem?_map]
    exact hsum.oldestTs
  · rw [hsum.oldestTsIndex]
    exact hd.represents.slot?_kept (Nat.le_refl _) (by omega)
  · rw [hsum.oldestTsIndex, hread, Option.map_some, hslots]

/-- One call more than there are slots, ten seconds apart. Every seventh is forced, and of the
requests of a call every other one is taken. -/
def lap : List Call :=
  (List.range (maxAmountOfCachedData + 1)).map fun k =>
    ⟨loadSample (UInt16.ofNat k) (10 * k), decide (k % 7 = 0), fun i => decide (i % 2 = k % 2), fun _ => 0⟩

theorem lap_stores : ∀ c ∈ lap, c.Stores := by
  intro c hc
  obtain ⟨k, -, rfl⟩ := List.mem_map.mp hc
  simp only [Call.Stores, loadSample]
  omega

/-- What came before: some samples, and an upload that ran out of time. -/
def usedLogger : SolarLogger := { SolarLogger.initial with cacheIndex := 7, uploadIndex := 3, sendLiveMode := true }

/-- The first sample is overwritten: the second is now the oldest, and all slots are kept. -/
theorem cached_values_info_of_lap :
    ∃ h, history (Start.init (fun _ => default) (.deinitialised usedLogger)) lap = some h ∧ RingSummary lap h ∧
      h.logger.cachedValuesInfo.numOfCachedValues = 12352 ∧ h.logger.cachedValuesInfo.oldestTs = 10 ∧
      h.logger.cachedValuesInfo.newestTs = 123520 := by
  have hne : ∃ c ∈ lap, c.Stores := by
    have hlap : lap ≠ [] := by simp [lap]
    obtain ⟨c, hc⟩ := List.exists_mem_of_ne_nil lap hlap
    exact ⟨c, hc, lap_stores c hc⟩
  obtain ⟨h, hrun, hsum⟩ := cached_values_info_of_history (.deinitialised usedLogger) (fun _ => default) lap hne
  have hfilter : (lap.filter fun c => decide c.Stores) = lap :=
    List.filter_eq_self.mpr fun c hc => decide_eq_true (lap_stores c hc)
  have hlength : h.posted.length = maxAmountOfCachedData + 1 := by
    rw [← hsum.posted.length_eq, hfilter]
    simp [lap]
  have hstored : storedTs lap = (List.range (maxAmountOfCachedData + 1)).map fun k : ℕ => BitVec.ofInt 32 (10 * k) := by
    rw [storedTs, hfilter, lap, List.map_map]
    rfl
  have hmax : maxAmountOfCachedData = 12352 := rfl
  refine ⟨h, hrun, hsum, ?_, ?_, ?_⟩
  · rw [hsum.num, hlength]
    omega
  · have holdest := hsum.oldestTs
    rw [hstored, hlength, kept, Nat.min_eq_right (by omega), Nat.add_sub_cancel_left, List.getElem?_map,
      List.getElem?_range (by omega)] at holdest
    exact (Option.some.inj holdest).symm
  · have hnewest := hsum.newestTs
    rw [hstored, List.getLast?_map, List.getLast?_range, if_neg (by omega)] at hnewest
    exact (Option.some.inj hnewest).symm

end ModbusProxy.Logger
