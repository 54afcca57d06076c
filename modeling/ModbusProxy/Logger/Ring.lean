import ModbusProxy.Library.AckQueue
import ModbusProxy.Logger.Pack
import Mathlib.Data.List.GetD

/-!
# The ring of samples

`update_cached_values` writes each sample into the next slot of an array and starts over
at its end. Two indices say where it writes next and from where it uploads; when they are
equal the ring is empty or full, and only the flags of the slots tell which.

## The model

The state is that of the file's static variables. An access outside of the array, or
before it is allocated, has no result (`none`). `malloc` succeeds and leaves in the array
whatever was there.

## What is proved

The logger is a bounded queue with acknowledgements: if it represents one, then after
`update_cached_values` it represents the queue after a post (`updateCachedValues_represents`).
-/

namespace ModbusProxy.Logger

open AckQueue

/-- `MAX_AMOUNT_OF_CACHED_DATA`. -/
def maxAmountOfCachedData : ℕ := 12352

/-- `cached_solar_values_info_t`. -/
structure CachedSolarValuesInfo where
  /-- `num_of_cached_values`. -/
  numOfCachedValues : ℕ
  /-- `oldest_ts_index`. -/
  oldestTsIndex : ℕ
  /-- `oldest_ts`. -/
  oldestTs : BitVec 32
  /-- `newest_ts`. -/
  newestTs : BitVec 32

/-- The static variables of `solar_logger.c`. -/
structure SolarLogger where
  /-- `cache_index`. -/
  cacheIndex : ℕ
  /-- `cache_overflow`. -/
  cacheOverflow : Bool
  /-- `upload_index`. -/
  uploadIndex : ℕ
  /-- `cached_values`, `none` for `NULL`. -/
  cachedValues : Option (ℕ → CachedSolarValues)
  /-- `send_live_mode`. -/
  sendLiveMode : Bool
  /-- `cached_values_info`. -/
  cachedValuesInfo : CachedSolarValuesInfo
  /-- `cached_values_local` of `solar_logger_post_data`. -/
  cachedValuesLocal : UInt8

/-- The variables when the program starts. -/
def SolarLogger.initial : SolarLogger := ⟨0, false, 0, none, false, ⟨0, 0, 0, 0⟩, 0⟩

/-- `cached_values[i]`. -/
def SolarLogger.slot? (s : SolarLogger) (i : ℕ) : Option CachedSolarValues :=
  if i < maxAmountOfCachedData then s.cachedValues.map (· i) else none

/-- `cached_values[i] = v`. -/
def SolarLogger.setSlot (s : SolarLogger) (i : ℕ) (v : CachedSolarValues) : SolarLogger :=
  { s with cachedValues := s.cachedValues.map (Function.update · i v) }

/-- `solar_logger_init`, where `garbage` is what `malloc` finds in the memory. -/
def solarLoggerInit (s : SolarLogger) (garbage : ℕ → CachedSolarValues) : SolarLogger :=
  { s with
    cachedValues := some (s.cachedValues.getD garbage)
    uploadIndex := 0
    cachedValuesInfo := { s.cachedValuesInfo with numOfCachedValues := 0 } }

/-- `solar_logger_deinit`. -/
def solarLoggerDeinit (s : SolarLogger) : SolarLogger :=
  { s with
    cachedValues := none
    cacheIndex := 0
    cacheOverflow := false
    uploadIndex := 0
    sendLiveMode := false
    cachedValuesInfo := { s.cachedValuesInfo with numOfCachedValues := 0 } }

/-- How the logger can be when `solar_logger_init` is called. -/
inductive Start where
  /-- The program has just started. -/
  | fresh
  /-- After `solar_logger_deinit`. -/
  | deinitialised (s : SolarLogger)

/-- The logger after `solar_logger_init`. -/
def Start.init (garbage : ℕ → CachedSolarValues) : Start → SolarLogger
  | .fresh => solarLoggerInit .initial garbage
  | .deinitialised s => solarLoggerInit (solarLoggerDeinit s) garbage

/-! ### `update_cached_values` -/

/-- `cache_index++`, and what follows at the end of the array. -/
def SolarLogger.advance (s : SolarLogger) : SolarLogger :=
  if s.cacheIndex + 1 ≥ maxAmountOfCachedData then { s with cacheIndex := 0, cacheOverflow := true }
  else { s with cacheIndex := s.cacheIndex + 1 }

/-- `cache_index == 0 ? (MAX_AMOUNT_OF_CACHED_DATA - 1) : (cache_index - 1)`. -/
def SolarLogger.newestIndex (s : SolarLogger) : ℕ :=
  if s.cacheIndex = 0 then maxAmountOfCachedData - 1 else s.cacheIndex - 1

/-- The oldest slot is next to `upload_index`, or beyond it, and was not uploaded. -/
def Overtaken (oldestTsIndex uploadIndex : ℕ) (oldest : CachedSolarValues) : Prop :=
  (oldestTsIndex > uploadIndex ∧ ¬oldest.uploaded) ∨
    (oldestTsIndex = 0 ∧ uploadIndex = maxAmountOfCachedData - 1 ∧ ¬oldest.uploaded)

instance (oldestTsIndex uploadIndex : ℕ) (oldest : CachedSolarValues) :
    Decidable (Overtaken oldestTsIndex uploadIndex oldest) := inferInstanceAs (Decidable (_ ∨ _))

/-- The last part of `update_cached_values`, if `cache_overflow`. -/
def SolarLogger.summariseFull (s : SolarLogger) : Option SolarLogger := do
  let oldest ← s.slot? s.cacheIndex
  let newest ← s.slot? s.newestIndex
  return { s with
    uploadIndex := if Overtaken s.cacheIndex s.uploadIndex oldest then s.cacheIndex else s.uploadIndex
    cachedValuesInfo := ⟨maxAmountOfCachedData, s.cacheIndex, oldest.ts, newest.ts⟩ }

/-- The last part of `update_cached_values`, on the first lap. -/
def SolarLogger.summariseFirst (s : SolarLogger) : Option SolarLogger :=
  if s.cacheIndex ≠ 0 then do
    let oldest ← s.slot? 0
    let newest ← s.slot? (s.cacheIndex - 1)
    return { s with cachedValuesInfo := ⟨s.cacheIndex, 0, oldest.ts, newest.ts⟩ }
  else some { s with cachedValuesInfo := ⟨s.cacheIndex, 0, 0, 0⟩ }

/-- `update_cached_values`. -/
def updateCachedValues (s : SolarLogger) (sample : Sample) : Option SolarLogger := do
  let slot ← s.slot? s.cacheIndex
  let s := (s.setSlot s.cacheIndex (updateCachedValue slot sample)).advance
  if s.cacheOverflow then s.summariseFull else s.summariseFirst

/-! ### The queue of samples -/

/-- The slot with the flag set or cleared. -/
def CachedSolarValues.setUploaded (b : Bool) (v : CachedSolarValues) : CachedSolarValues := { v with uploaded := b }

/-- The sample with number `i` of those posted. -/
def item (posted : List CachedSolarValues) (i : ℕ) : CachedSolarValues := posted.getD i default

/-- The logger holds the queue `q` of the samples `posted`, each as it was written. -/
structure Represents (q : Queue) (posted : List CachedSolarValues) (s : SolarLogger) : Prop where
  /-- The queue is one. -/
  ordered : q.Ordered maxAmountOfCachedData
  /-- The samples are those of the queue. -/
  length_eq : posted.length = q.posted
  /-- They were not uploaded when they were posted. -/
  fresh : ∀ v ∈ posted, v.uploaded = false
  /-- The next sample goes where the last lap had the oldest. -/
  cacheIndex_eq : s.cacheIndex = q.posted % maxAmountOfCachedData
  /-- The head is uploaded next. -/
  uploadIndex_eq : s.uploadIndex = q.head % maxAmountOfCachedData
  /-- The array was filled once. -/
  cacheOverflow_eq : s.cacheOverflow = decide (maxAmountOfCachedData ≤ q.posted)
  /-- The slots hold the last samples, flagged if they were uploaded. -/
  slots : ∃ values, s.cachedValues = some values ∧
    Holds CachedSolarValues.setUploaded maxAmountOfCachedData q.posted q.head (item posted) values

theorem maxAmountOfCachedData_pos : 0 < maxAmountOfCachedData := by decide

theorem mod_lt (i : ℕ) : i % maxAmountOfCachedData < maxAmountOfCachedData := Nat.mod_lt _ maxAmountOfCachedData_pos

@[simp] theorem setUploaded_uploaded (b : Bool) (v : CachedSolarValues) : (v.setUploaded b).uploaded = b := rfl

@[simp] theorem setUploaded_setUploaded (b b' : Bool) (v : CachedSolarValues) :
    (v.setUploaded b).setUploaded b' = v.setUploaded b' := rfl

theorem setUploaded_self {b : Bool} {v : CachedSolarValues} (h : v.uploaded = b) : v.setUploaded b = v := by
  subst h; rfl

@[simp] theorem formatRecord_setUploaded (b : Bool) (v : CachedSolarValues) :
    formatRecord (v.setUploaded b) = formatRecord v := rfl

theorem item_append {posted : List CachedSolarValues} {i : ℕ} (h : i < posted.length) (v : CachedSolarValues) :
    item (posted ++ [v]) i = item posted i := List.getD_append _ _ _ _ h

theorem item_length (posted : List CachedSolarValues) (v : CachedSolarValues) :
    item (posted ++ [v]) posted.length = v := by simp [item]

theorem item_eq_get {posted : List CachedSolarValues} {i : ℕ} (h : i < posted.length) :
    item posted i = posted.get ⟨i, h⟩ := List.getD_eq_getElem _ _ h

theorem slot?_eq {s : SolarLogger} {values : ℕ → CachedSolarValues} (h : s.cachedValues = some values) {i : ℕ}
    (hi : i < maxAmountOfCachedData) : s.slot? i = some (values i) := by
  rw [SolarLogger.slot?, if_pos hi, h, Option.map_some]

variable {q : Queue} {posted : List CachedSolarValues} {s : SolarLogger}

theorem Represents.slot?_item (h : Represents q posted s) {i : ℕ} (hi : i < q.posted)
    (hroom : q.posted ≤ i + maxAmountOfCachedData) :
    s.slot? (i % maxAmountOfCachedData) = some ((item posted i).setUploaded (decide (i < q.head))) := by
  obtain ⟨values, hvalues, hholds⟩ := h.slots
  rw [slot?_eq hvalues (mod_lt i), hholds i hi hroom]

/-- The queue is read from four of the variables only. -/
theorem Represents.congr (h : Represents q posted s) {s' : SolarLogger} (hcache : s'.cacheIndex = s.cacheIndex)
    (hupload : s'.uploadIndex = s.uploadIndex) (hoverflow : s'.cacheOverflow = s.cacheOverflow)
    (hvalues : s'.cachedValues = s.cachedValues) : Represents q posted s' :=
  ⟨h.ordered, h.length_eq, h.fresh, hcache.trans h.cacheIndex_eq, hupload.trans h.uploadIndex_eq,
    hoverflow.trans h.cacheOverflow_eq, by rw [hvalues]; exact h.slots⟩

theorem init_represents (start : Start) (garbage : ℕ → CachedSolarValues) :
    Represents .empty [] (start.init garbage) := by
  have hfits : ¬maxAmountOfCachedData ≤ 0 := Nat.not_le.mpr maxAmountOfCachedData_pos
  cases start with
  | fresh =>
    exact ⟨.empty, rfl, (fun _ hv => by cases hv), (Nat.zero_mod _).symm, (Nat.zero_mod _).symm,
      (decide_eq_false hfits).symm, _, rfl, Holds.empty⟩
  | deinitialised s =>
    exact ⟨.empty, rfl, (fun _ hv => by cases hv), (Nat.zero_mod _).symm, (Nat.zero_mod _).symm,
      (decide_eq_false hfits).symm, _, rfl, Holds.empty⟩

/-! ### What a post does -/

theorem advance_cacheIndex (h : s.cacheIndex = q.posted % maxAmountOfCachedData) :
    s.advance.cacheIndex = (q.posted + 1) % maxAmountOfCachedData := by
  unfold SolarLogger.advance maxAmountOfCachedData at *
  split
  · simp only; omega
  · simp only; omega

theorem advance_cacheOverflow (h : s.cacheIndex = q.posted % maxAmountOfCachedData)
    (hover : s.cacheOverflow = decide (maxAmountOfCachedData ≤ q.posted)) :
    s.advance.cacheOverflow = decide (maxAmountOfCachedData ≤ q.posted + 1) := by
  unfold SolarLogger.advance maxAmountOfCachedData at *
  split
  · exact (decide_eq_true (by omega)).symm
  · rw [hover]
    exact decide_eq_decide.mpr (by omega)

theorem advance_uploadIndex (s : SolarLogger) : s.advance.uploadIndex = s.uploadIndex := by
  unfold SolarLogger.advance; split <;> rfl

theorem advance_cachedValues (s : SolarLogger) : s.advance.cachedValues = s.cachedValues := by
  unfold SolarLogger.advance; split <;> rfl

theorem newestIndex_eq {n : ℕ} (h : s.cacheIndex = (n + 1) % maxAmountOfCachedData) :
    s.newestIndex = n % maxAmountOfCachedData := by
  unfold SolarLogger.newestIndex maxAmountOfCachedData at *
  split <;> omega

/-- `upload_index` is overtaken exactly if the queue was full. -/
theorem overtaken_iff (h : q.Ordered maxAmountOfCachedData) (hlap : maxAmountOfCachedData ≤ q.posted + 1)
    {v : CachedSolarValues} (hv : v.uploaded = decide (q.posted + 1 - maxAmountOfCachedData < q.head)) :
    Overtaken ((q.posted + 1) % maxAmountOfCachedData) (q.head % maxAmountOfCachedData) v ↔
      q.Full maxAmountOfCachedData := by
  have hle := h.head_le
  have hfits := h.fits
  rw [Overtaken, Queue.Full, hv, decide_eq_true_iff]
  unfold maxAmountOfCachedData at *
  constructor
  -- the oldest sample is at the head or just after it; at the head the two indices are equal
  · rintro (⟨hbehind, hnew⟩ | ⟨hzero, hlast, hnew⟩)
    · omega
    · omega
  -- the indices are one apart, also where the second alternative has the end of the array
  · intro hfull
    omega

theorem post_head_mod (q : Queue) :
    (if q.Full maxAmountOfCachedData then (q.posted + 1) % maxAmountOfCachedData else q.head % maxAmountOfCachedData) =
      (q.post maxAmountOfCachedData).head % maxAmountOfCachedData := by
  by_cases hfull : q.Full maxAmountOfCachedData
  · rw [Queue.post_of_full hfull, if_pos hfull]
    rw [Queue.Full] at hfull
    rw [hfull, Nat.add_right_comm, Nat.add_mod_right]
  · rw [Queue.post_of_room hfull, if_neg hfull]

theorem summariseFull_eq {values : ℕ → CachedSolarValues} (hvalues : s.cachedValues = some values)
    (hcache : s.cacheIndex < maxAmountOfCachedData) (hnewest : s.newestIndex < maxAmountOfCachedData) :
    s.summariseFull = some { s with
      uploadIndex :=
        if Overtaken s.cacheIndex s.uploadIndex (values s.cacheIndex) then s.cacheIndex else s.uploadIndex
      cachedValuesInfo :=
        ⟨maxAmountOfCachedData, s.cacheIndex, (values s.cacheIndex).ts, (values s.newestIndex).ts⟩ } := by
  simp only [SolarLogger.summariseFull, slot?_eq hvalues hcache, slot?_eq hvalues hnewest, Option.bind_eq_bind,
    Option.bind_some, Option.pure_def]

theorem summariseFirst_eq {values : ℕ → CachedSolarValues} (hvalues : s.cachedValues = some values)
    (hcache : s.cacheIndex < maxAmountOfCachedData) (hne : s.cacheIndex ≠ 0) :
    s.summariseFirst = some { s with
      cachedValuesInfo := ⟨s.cacheIndex, 0, (values 0).ts, (values (s.cacheIndex - 1)).ts⟩ } := by
  have hlast : s.cacheIndex - 1 < maxAmountOfCachedData := Nat.lt_of_le_of_lt (Nat.sub_le _ _) hcache
  simp only [SolarLogger.summariseFirst, if_pos hne, slot?_eq hvalues maxAmountOfCachedData_pos,
    slot?_eq hvalues hlast, Option.bind_eq_bind, Option.bind_some, Option.pure_def]

theorem Represents.slots_append (h : Represents q posted s) (v : CachedSolarValues) :
    ∃ values, s.cachedValues = some values ∧ Holds CachedSolarValues.setUploaded maxAmountOfCachedData q.posted q.head
      (item (posted ++ [v])) values := by
  obtain ⟨values, hvalues, hholds⟩ := h.slots
  refine ⟨values, hvalues, hholds.congr fun i hi => ?_⟩
  rw [← h.length_eq] at hi
  exact (item_append hi v).symm

theorem Represents.item_posted (h : Represents q posted s) (v : CachedSolarValues) :
    item (posted ++ [v]) q.posted = v := by rw [← h.length_eq, item_length]

/-- What the variables must be after a post. -/
theorem Represents.post (h : Represents q posted s) {v : CachedSolarValues} (hnew : v.uploaded = false)
    {s' : SolarLogger} (hcache : s'.cacheIndex = (q.posted + 1) % maxAmountOfCachedData)
    (hupload : s'.uploadIndex = (q.post maxAmountOfCachedData).head % maxAmountOfCachedData)
    (hover : s'.cacheOverflow = decide (maxAmountOfCachedData ≤ q.posted + 1))
    (hvalues : s'.cachedValues = (s.setSlot s.cacheIndex v).cachedValues) :
    Represents (q.post maxAmountOfCachedData) (posted ++ [v]) s' := by
  obtain ⟨values, hs, hholds⟩ := h.slots_append v
  have hpost := hholds.post h.ordered.head_le
  rw [h.item_posted v, setUploaded_self hnew, ← h.cacheIndex_eq] at hpost
  refine ⟨h.ordered.post maxAmountOfCachedData_pos, ?_, ?_, hcache, hupload, hover, _, ?_, hpost⟩
  · rw [List.length_append, h.length_eq]
    rfl
  · intro w hw
    rcases List.mem_append.mp hw with hw | hw
    · exact h.fresh w hw
    · rw [List.mem_singleton.mp hw, hnew]
  · rw [hvalues, SolarLogger.setSlot, hs]
    rfl

/-- From the second lap on, the slot after the one that was written holds the oldest sample. -/
theorem Represents.oldest_uploaded (h : Represents q posted s) {v : CachedSolarValues} (hnew : v.uploaded = false)
    {values : ℕ → CachedSolarValues} (hvalues : s.cachedValues = some values)
    (hlap : maxAmountOfCachedData ≤ q.posted + 1) :
    (Function.update values s.cacheIndex v ((q.posted + 1) % maxAmountOfCachedData)).uploaded =
      decide (q.posted + 1 - maxAmountOfCachedData < q.head) := by
  obtain ⟨values', hs, hholds⟩ := h.slots_append v
  obtain rfl : values = values' := Option.some.inj (hvalues.symm.trans hs)
  have hwrite := hholds.write h.ordered.head_le
  rw [h.item_posted v, setUploaded_self hnew, ← h.cacheIndex_eq] at hwrite
  have hold := hwrite (q.posted + 1 - maxAmountOfCachedData) (Nat.sub_lt (Nat.succ_pos _) maxAmountOfCachedData_pos)
    (Nat.sub_add_cancel hlap).ge
  rw [Nat.mod_eq_sub_mod hlap, hold, setUploaded_uploaded]

/-- A post of the logger is a post to the queue, of the sample as it was written. -/
theorem updateCachedValues_represents (h : Represents q posted s) (sample : Sample) :
    ∃ slot s', s.slot? s.cacheIndex = some slot ∧ updateCachedValues s sample = some s' ∧
      Represents (q.post maxAmountOfCachedData) (posted ++ [updateCachedValue slot sample]) s' := by
  obtain ⟨values, hvalues, -⟩ := h.slots
  have hlt : s.cacheIndex < maxAmountOfCachedData := h.cacheIndex_eq ▸ mod_lt _
  have hslot : s.slot? s.cacheIndex = some (values s.cacheIndex) := slot?_eq hvalues hlt
  generalize hv : updateCachedValue (values s.cacheIndex) sample = v
  have hnew : v.uploaded = false := by rw [← hv]; rfl
  generalize hs₁ : (s.setSlot s.cacheIndex v).advance = s₁
  have hcache₁ : s₁.cacheIndex = (q.posted + 1) % maxAmountOfCachedData :=
    hs₁ ▸ advance_cacheIndex h.cacheIndex_eq
  have hover₁ : s₁.cacheOverflow = decide (maxAmountOfCachedData ≤ q.posted + 1) :=
    hs₁ ▸ advance_cacheOverflow h.cacheIndex_eq h.cacheOverflow_eq
  have hupload₁ : s₁.uploadIndex = q.head % maxAmountOfCachedData :=
    hs₁ ▸ (advance_uploadIndex _).trans h.uploadIndex_eq
  have hvalues₁ : s₁.cachedValues = (s.setSlot s.cacheIndex v).cachedValues := hs₁ ▸ advance_cachedValues _
  have hsome₁ : s₁.cachedValues = some (Function.update values s.cacheIndex v) := by
    rw [hvalues₁, SolarLogger.setSlot, hvalues]; rfl
  have hlt₁ : s₁.cacheIndex < maxAmountOfCachedData := hcache₁ ▸ mod_lt _
  have hupdate : updateCachedValues s sample =
      if s₁.cacheOverflow then s₁.summariseFull else s₁.summariseFirst := by
    simp only [updateCachedValues, hslot, Option.bind_eq_bind, Option.bind_some, hv, hs₁]
  by_cases hlap : maxAmountOfCachedData ≤ q.posted + 1
  · have hoverflow : s₁.cacheOverflow = true := hover₁.trans (decide_eq_true hlap)
    have hnewest : s₁.newestIndex < maxAmountOfCachedData := newestIndex_eq hcache₁ ▸ mod_lt _
    rw [hupdate, if_pos hoverflow, summariseFull_eq hsome₁ hlt₁ hnewest]
    refine ⟨_, _, hslot, rfl, ?_⟩
    rw [hv]
    refine h.post hnew hcache₁ ?_ hover₁ hvalues₁
    have hiff := overtaken_iff h.ordered hlap (h.oldest_uploaded hnew hvalues hlap)
    simp only [hcache₁, hupload₁, hiff, post_head_mod]
  · have hfirst : ¬s₁.cacheOverflow = true := by
      rw [hover₁, decide_eq_true_iff]; exact hlap
    have hne : s₁.cacheIndex ≠ 0 := by
      rw [hcache₁, Nat.mod_eq_of_lt (Nat.lt_of_not_le hlap)]; exact Nat.succ_ne_zero _
    have hroom : ¬q.Full maxAmountOfCachedData := by
      rw [Queue.Full]; omega
    rw [hupdate, if_neg hfirst, summariseFirst_eq hsome₁ hlt₁ hne]
    refine ⟨_, _, hslot, rfl, ?_⟩
    rw [hv]
    refine h.post hnew hcache₁ ?_ hover₁ hvalues₁
    rw [← post_head_mod, if_neg hroom]
    exact hupload₁

end ModbusProxy.Logger
