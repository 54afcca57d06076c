import ModbusProxy.Library.Loop
import ModbusProxy.Logger.Ring

/-!
# Uploading the samples

`solar_logger_post_data` stores a sample and, if it is forced to or enough samples have
come since the last time, uploads: it formats the samples from `upload_index` on, sends
them in chunks, and flags those of a chunk that the database has taken.

## The model

A call brings the arguments and what the calls of other functions return: the time, the
result of each `db_handler_send_solar_values` and each clock reading. An entry of
`data_strings` that has not been assigned has no value, and reading it has no result. A
request is noted with its records and its result.

## What is proved

A call is a post to the queue and an acknowledgement of what the requests that were
answered carried (`solarLoggerPostData_represents`); the loop ends.
-/

namespace ModbusProxy.Logger

open AckQueue Loop

/-- `DEBUG_POST_CHUNK_SIZE`. -/
def debugPostChunkSize : ℕ := 30

/-- `MAX_UPLOAD_TIME_US`. -/
def maxUploadTimeUs : UInt64 := 4000000

/-- A record. -/
abbrev Record := List (String × Printed)

/-- A call of `solar_logger_post_data`. -/
structure Call where
  /-- The samples and what `time` returns. -/
  sample : Sample
  /-- `force`. -/
  force : Bool
  /-- Which calls of `db_handler_send_solar_values` return `DB_HANDLER_OK`. -/
  sends : ℕ → Bool
  /-- What `get_time_in_milliseconds` returns, first before the loop and then after each request. -/
  clock : ℕ → UInt64

/-- A call of `db_handler_send_solar_values`. -/
structure Request where
  /-- The records of `data`. -/
  records : List Record
  /-- `DB_HANDLER_OK`. -/
  ok : Bool

/-- The records of the requests that were answered `DB_HANDLER_OK`. -/
def acknowledged (requests : List Request) : List Record := (requests.filter Request.ok).flatMap Request.records

/-- `data_strings`: each entry unassigned, or `NULL`, or a text. -/
abbrev DataStrings := ℕ → Option (Option Record)

/-- `data_strings[i] = text`. -/
def DataStrings.set? (d : DataStrings) (i : ℕ) (text : Option Record) : Option DataStrings :=
  if i < debugPostChunkSize then some (Function.update d i (some text)) else none

/-- `data_strings[x] = NULL` from `i` on. -/
def DataStrings.clearFrom (d : DataStrings) (i : ℕ) : DataStrings :=
  fun x => if i ≤ x ∧ x < debugPostChunkSize then some none else d x

/-- The texts that the format of a request reads, `NULL` as the empty one. -/
def DataStrings.texts (d : DataStrings) : Option (List Record) :=
  ((List.range debugPostChunkSize).mapM d).map List.reduceOption

/-- `FREE_MEM` of all entries. -/
def DataStrings.free (d : DataStrings) : Option DataStrings :=
  ((List.range debugPostChunkSize).mapM d).map fun _ => fun _ => some none

/-- The variables of the loop. -/
structure Upload where
  /-- The static variables. -/
  logger : SolarLogger
  /-- `data_strings`. -/
  dataStrings : DataStrings
  /-- `cnt`. -/
  cnt : ℕ
  /-- The requests so far. -/
  requests : List Request

/-- An index that may have passed the end of the array, once. -/
def wrapIndex (i : ℕ) : ℕ := if i ≥ maxAmountOfCachedData then i - maxAmountOfCachedData else i

/-- `uploaded = true` for the first `n` slots from `upload_index` on. -/
def SolarLogger.markUploaded (s : SolarLogger) : ℕ → Option SolarLogger
  | 0 => some s
  | n + 1 => do
    let s ← s.markUploaded n
    let slot ← s.slot? (wrapIndex (s.uploadIndex + n))
    return s.setSlot (wrapIndex (s.uploadIndex + n)) (slot.setUploaded true)

/-- The part of an iteration that sends the texts that were formatted. -/
def Upload.send (c : Call) (uploadTimeout : UInt64) (u : Upload) : Option (Iteration Upload) := do
  let records ← u.dataStrings.texts
  if c.sends u.requests.length then
    let s ← u.logger.markUploaded (u.cnt + 1)
    let s := { s with uploadIndex := wrapIndex (s.uploadIndex + (u.cnt + 1)) }
    let u := { u with logger := s, cnt := 0, requests := u.requests ++ [⟨records, true⟩] }
    if s.uploadIndex = s.cacheIndex then
      return .leave u
    else if c.clock u.requests.length ≥ uploadTimeout then
      return .leave { u with logger := { s with sendLiveMode := true } }
    else
      let dataStrings ← u.dataStrings.free
      return .again { u with dataStrings }
  else
    return .leave { u with requests := u.requests ++ [⟨records, false⟩] }

/-- The body of the loop. -/
def Upload.iterate (c : Call) (uploadTimeout : UInt64) (u : Upload) : Option (Iteration Upload) := do
  let tempUploadIndex := wrapIndex (u.logger.uploadIndex + u.cnt)
  let slot ← u.logger.slot? tempUploadIndex
  if u.logger.uploadIndex = u.logger.cacheIndex ∧ slot.uploaded then
    return .leave u
  let dataStrings ← u.dataStrings.set? u.cnt (some (formatRecord slot))
  if u.cnt = debugPostChunkSize - 1 ∨ tempUploadIndex = u.logger.newestIndex then
    let dataStrings :=
      if tempUploadIndex = u.logger.newestIndex ∧ u.cnt ≠ debugPostChunkSize - 1 then
        dataStrings.clearFrom (u.cnt + 1)
      else dataStrings
    { u with dataStrings }.send c uploadTimeout
  else
    return .again { u with dataStrings, cnt := u.cnt + 1 }

/-- `solar_logger_post_data`: the variables and the requests of the call. -/
def solarLoggerPostData (s : SolarLogger) (c : Call) : Option (SolarLogger × List Request) :=
  if c.sample.ts = -1 then some (s, [])
  else do
    let s ← updateCachedValues s c.sample
    let force := s.sendLiveMode || c.force
    let s := { s with cachedValuesLocal := s.cachedValuesLocal + 1 }
    if force ∨ s.cachedValuesLocal.toNat ≥ debugPostChunkSize then
      let u : Upload := ⟨{ s with sendLiveMode := false }, fun _ => none, 0, []⟩
      let u ← loop (Upload.iterate c (c.clock 0 + maxUploadTimeUs)) maxAmountOfCachedData u
      let _ ← u.dataStrings.free
      return ({ u.logger with cachedValuesLocal := 0 }, u.requests)
    else
      return (s, [])

/-! ### The texts -/

/-- The entries hold the texts `text` up to `n`, and `NULL` after them. -/
structure DataStrings.Complete (d : DataStrings) (n : ℕ) (text : ℕ → Record) : Prop where
  /-- The texts. -/
  text : ∀ k, k < n → d k = some (some (text k))
  /-- `NULL`. -/
  null : ∀ k, n ≤ k → k < debugPostChunkSize → d k = some none

theorem mapM_eq_map {α β : Type*} {f : α → Option β} {g : α → β} {l : List α} (h : ∀ a ∈ l, f a = some (g a)) :
    l.mapM f = some (l.map g) := by
  induction l with
  | nil => rfl
  | cons a l ih =>
    rw [List.mapM_cons, h a (List.mem_cons_self ..), ih fun b hb => h b (List.mem_cons_of_mem a hb)]
    rfl

theorem filterMap_range_of_le {α : Type*} (f : ℕ → α) {n m : ℕ} (h : n ≤ m) :
    ((List.range m).filterMap fun k => if k < n then some (f k) else none) = (List.range n).map f := by
  obtain ⟨d, rfl⟩ := Nat.exists_eq_add_of_le h
  induction d with
  | zero =>
    rw [← List.filterMap_eq_map']
    exact List.filterMap_congr fun k hk => if_pos (List.mem_range.mp hk)
  | succ d ih =>
    rw [← Nat.add_assoc, List.range_succ, List.filterMap_append, ih (Nat.le_add_right n d)]
    simp

variable {d : DataStrings} {n : ℕ} {text : ℕ → Record}

theorem DataStrings.Complete.mapM (h : d.Complete n text) :
    (List.range debugPostChunkSize).mapM d =
      some ((List.range debugPostChunkSize).map fun k => if k < n then some (text k) else none) := by
  apply mapM_eq_map
  intro k hk
  by_cases hlt : k < n
  · rw [if_pos hlt, h.text k hlt]
  · rw [if_neg hlt, h.null k (Nat.le_of_not_lt hlt) (List.mem_range.mp hk)]

theorem DataStrings.Complete.texts (h : d.Complete n text) (hn : n ≤ debugPostChunkSize) :
    d.texts = some ((List.range n).map text) := by
  rw [DataStrings.texts, h.mapM, Option.map_some, ← filterMap_range_of_le text hn]
  exact congrArg some List.filterMap_map

theorem DataStrings.Complete.free (h : d.Complete n text) : d.free = some fun _ => some none := by
  rw [DataStrings.free, h.mapM, Option.map_some]

/-! ### The flags -/

variable {q : Queue} {posted : List CachedSolarValues} {s : SolarLogger}

theorem wrapIndex_add {i k : ℕ} (hk : k ≤ maxAmountOfCachedData) :
    wrapIndex (i % maxAmountOfCachedData + k) = (i + k) % maxAmountOfCachedData := by
  unfold wrapIndex maxAmountOfCachedData at *
  split <;> omega

theorem Represents.markUploaded (h : Represents q posted s) {n : ℕ} (hn : q.head + n ≤ q.posted) :
    ∃ values, s.markUploaded n = some { s with cachedValues := some values } ∧
      Holds CachedSolarValues.setUploaded maxAmountOfCachedData q.posted (q.head + n) (item posted) values := by
  have hfits := h.ordered.fits
  induction n with
  | zero =>
    obtain ⟨values, hvalues, hholds⟩ := h.slots
    exact ⟨values, by rw [SolarLogger.markUploaded, ← hvalues], hholds⟩
  | succ n ih =>
    obtain ⟨values, hmark, hholds⟩ := ih (by omega)
    have hindex : wrapIndex (s.uploadIndex + n) = (q.head + n) % maxAmountOfCachedData := by
      rw [h.uploadIndex_eq, wrapIndex_add (by omega)]
    have hcell := hholds (q.head + n) (by omega) (by omega)
    refine ⟨_, ?_, hholds.setMark (by omega) (by omega)⟩
    simp only [SolarLogger.markUploaded, hmark, Option.bind_eq_bind, Option.bind_some, hindex,
      slot?_eq (s := { s with cachedValues := some values }) rfl (mod_lt _), hcell, setUploaded_setUploaded,
      SolarLogger.setSlot, Option.map_some, Option.pure_def]

/-- What the variables must be after an acknowledgement. -/
theorem Represents.ack (h : Represents q posted s) {n : ℕ} (hn : q.head + n ≤ q.posted)
    {values : ℕ → CachedSolarValues} (hholds : Holds CachedSolarValues.setUploaded maxAmountOfCachedData q.posted
      (q.head + n) (item posted) values) :
    Represents (q.ack n) posted
      { s with cachedValues := some values, uploadIndex := wrapIndex (s.uploadIndex + n) } := by
  have hfits := h.ordered.fits
  refine ⟨h.ordered.ack hn, h.length_eq, h.fresh, h.cacheIndex_eq, ?_, h.cacheOverflow_eq, values, rfl, hholds⟩
  simp only [h.uploadIndex_eq]
  exact wrapIndex_add (by omega)

/-- If there is room, the indices tell whether the queue is empty. -/
theorem Represents.empty_iff (h : Represents q posted s) (hroom : q.posted < q.head + maxAmountOfCachedData) :
    s.uploadIndex = s.cacheIndex ↔ q.head = q.posted := by
  have hle := h.ordered.head_le
  rw [h.uploadIndex_eq, h.cacheIndex_eq]
  exact ⟨fun heq => eq_of_mod_eq heq (by omega) hroom, fun heq => by rw [heq]⟩

/-! ### A request -/

/-- The record of item `head + k`. -/
def recordAt (q : Queue) (posted : List CachedSolarValues) (k : ℕ) : Record := formatRecord (item posted (q.head + k))

/-- The records of the `n` items at the head. -/
def records (q : Queue) (posted : List CachedSolarValues) (n : ℕ) : List Record :=
  (List.range n).map (recordAt q posted)

theorem records_add (q : Queue) (posted : List CachedSolarValues) (a b : ℕ) :
    records q posted (a + b) = records q posted a ++ records (q.ack a) posted b := by
  rw [records, records, records, List.range_add, List.map_append, List.map_map]
  refine congrArg _ (List.map_congr_left fun k _ => ?_)
  simp only [Function.comp_apply, recordAt, Queue.ack, Nat.add_assoc]

@[simp] theorem acknowledged_append (as bs : List Request) :
    acknowledged (as ++ bs) = acknowledged as ++ acknowledged bs := by
  rw [acknowledged, List.filter_append, List.flatMap_append]
  rfl

@[simp] theorem acknowledged_ok (rs : List Record) : acknowledged [⟨rs, true⟩] = rs := by simp [acknowledged]

@[simp] theorem acknowledged_error (rs : List Record) : acknowledged [⟨rs, false⟩] = [] := by simp [acknowledged]

variable {u : Upload} {c : Call} {uploadTimeout : UInt64}

/-- What sending does: a request, and nothing else if it is answered with an error. -/
theorem send_cases {it : Iteration Upload} (h : u.send c uploadTimeout = some it) :
    ∃ records, (it.state.requests = u.requests ++ [⟨records, true⟩]) ∨
      it = .leave { u with requests := u.requests ++ [⟨records, false⟩] } := by
  simp only [Upload.send, Option.bind_eq_bind, Option.bind_eq_some_iff] at h
  obtain ⟨records, -, h⟩ := h
  refine ⟨records, ?_⟩
  split at h
  · obtain ⟨s, -, h⟩ := Option.bind_eq_some_iff.mp h
    left
    split at h
    · cases h; rfl
    split at h
    · cases h; rfl
    · obtain ⟨d, -, h⟩ := Option.bind_eq_some_iff.mp h
      cases h; rfl
  · cases h
    exact .inr rfl

/-- What an iteration does: it sends, or changes none of the static variables. -/
theorem iterate_cases {it : Iteration Upload} (h : u.iterate c uploadTimeout = some it) :
    (∃ d, { u with dataStrings := d }.send c uploadTimeout = some it) ∨
      it.state.requests = u.requests ∧ it.state.logger = u.logger := by
  simp only [Upload.iterate, Option.bind_eq_bind, Option.bind_eq_some_iff] at h
  obtain ⟨slot, -, h⟩ := h
  split at h
  · cases h
    exact .inr ⟨rfl, rfl⟩
  obtain ⟨d, -, h⟩ := Option.bind_eq_some_iff.mp h
  split at h
  · exact .inl ⟨_, h⟩
  · cases h
    exact .inr ⟨rfl, rfl⟩

theorem send_error {n : ℕ} (hn : n ≤ debugPostChunkSize) {text : ℕ → Record} (hd : u.dataStrings.Complete n text)
    (hs : c.sends u.requests.length = false) :
    u.send c uploadTimeout =
      some (.leave { u with requests := u.requests ++ [⟨(List.range n).map text, false⟩] }) := by
  simp [Upload.send, hd.texts hn, hs]

/-- A request that is answered `DB_HANDLER_OK` acknowledges what it carried. Then the loop is
left if nothing is pending or the time is over. -/
theorem send_ok (uploadTimeout : UInt64) (h : Represents q posted u.logger) (hn : q.head + (u.cnt + 1) ≤ q.posted)
    (hcnt : u.cnt + 1 ≤ debugPostChunkSize) (hd : u.dataStrings.Complete (u.cnt + 1) (recordAt q posted))
    (hs : c.sends u.requests.length = true) :
    ∃ u' : Upload, Represents (q.ack (u.cnt + 1)) posted u'.logger ∧
      u'.requests = u.requests ++ [⟨records q posted (u.cnt + 1), true⟩] ∧ u'.cnt = 0 ∧
      (∃ d, u'.dataStrings.free = some d) ∧
      (q.head + (u.cnt + 1) = q.posted ∧ u'.logger.sendLiveMode = u.logger.sendLiveMode ∧
          u.send c uploadTimeout = some (.leave u') ∨
        q.head + (u.cnt + 1) < q.posted ∧ uploadTimeout ≤ c.clock (u.requests.length + 1) ∧
          u'.logger.sendLiveMode = true ∧ u.send c uploadTimeout = some (.leave u') ∨
        q.head + (u.cnt + 1) < q.posted ∧ c.clock (u.requests.length + 1) < uploadTimeout ∧
          u'.logger.sendLiveMode = u.logger.sendLiveMode ∧ u.send c uploadTimeout = some (.again u')) := by
  have hfits := h.ordered.fits
  have hle := h.ordered.head_le
  obtain ⟨values, hmark, hholds⟩ := h.markUploaded hn
  generalize hs' : ({ u.logger with
    cachedValues := some values
    uploadIndex := wrapIndex (u.logger.uploadIndex + (u.cnt + 1)) } : SolarLogger) = s'
  have hack : Represents (q.ack (u.cnt + 1)) posted s' := hs' ▸ h.ack hn hholds
  have hlive : s'.sendLiveMode = u.logger.sendLiveMode := hs' ▸ rfl
  have hempty := hack.empty_iff (by simp only [Queue.ack]; omega)
  have htexts : u.dataStrings.texts = some (records q posted (u.cnt + 1)) := hd.texts hcnt
  obtain ⟨requests', hrequests, hlength⟩ : ∃ requests',
      u.requests ++ [⟨records q posted (u.cnt + 1), true⟩] = requests' ∧ requests'.length = u.requests.length + 1 :=
    ⟨_, rfl, List.length_append⟩
  have hsend : u.send c uploadTimeout =
      if s'.uploadIndex = s'.cacheIndex then some (.leave ⟨s', u.dataStrings, 0, requests'⟩)
      else if c.clock (u.requests.length + 1) ≥ uploadTimeout then
        some (.leave ⟨{ s' with sendLiveMode := true }, u.dataStrings, 0, requests'⟩)
      else some (.again ⟨s', fun _ => some none, 0, requests'⟩) := by
    subst hs'
    simp only [Upload.send, htexts, hs, hmark, hd.free, hrequests, hlength, Option.bind_eq_bind, Option.bind_some,
      if_true, Option.pure_def]
  by_cases hall : q.head + (u.cnt + 1) = q.posted
  · rw [if_pos (hempty.mpr hall)] at hsend
    exact ⟨⟨s', u.dataStrings, 0, requests'⟩, hack, hrequests.symm, rfl, ⟨_, hd.free⟩, .inl ⟨hall, hlive, hsend⟩⟩
  rw [if_neg fun heq => hall (hempty.mp heq)] at hsend
  have hmore : q.head + (u.cnt + 1) < q.posted := Nat.lt_of_le_of_ne hn hall
  by_cases htime : c.clock (u.requests.length + 1) ≥ uploadTimeout
  · rw [if_pos htime] at hsend
    exact ⟨⟨{ s' with sendLiveMode := true }, u.dataStrings, 0, requests'⟩, hack.congr rfl rfl rfl rfl,
      hrequests.symm, rfl, ⟨_, hd.free⟩, .inr (.inl ⟨hmore, htime, rfl, hsend⟩)⟩
  · rw [if_neg htime] at hsend
    have hcleared : DataStrings.Complete (fun _ => some none) 0 (recordAt q posted) :=
      ⟨fun _ hk => absurd hk (Nat.not_lt_zero _), fun _ _ _ => rfl⟩
    exact ⟨⟨s', fun _ => some none, 0, requests'⟩, hack, hrequests.symm, rfl, ⟨_, hcleared.free⟩,
      .inr (.inr ⟨hmore, UInt64.not_le.mp htime, hlive, hsend⟩)⟩

/-! ### An iteration -/

/-- The loop is about to format the item `head + cnt`. -/
structure Uploading (q : Queue) (posted : List CachedSolarValues) (u : Upload) : Prop where
  /-- The queue. -/
  represents : Represents q posted u.logger
  /-- The entry is one of `data_strings`. -/
  cnt_lt : u.cnt < debugPostChunkSize
  /-- There is an item. -/
  pending : q.head + u.cnt < q.posted
  /-- The items before it were formatted. -/
  texts : ∀ k, k < u.cnt → u.dataStrings k = some (some (recordAt q posted k))

/-- `data_strings` after the item was formatted. -/
def Upload.formatted (q : Queue) (posted : List CachedSolarValues) (u : Upload) : DataStrings :=
  Function.update u.dataStrings u.cnt (some (some (recordAt q posted u.cnt)))

theorem Uploading.formatted_text (h : Uploading q posted u) {k : ℕ} (hk : k < u.cnt + 1) :
    u.formatted q posted k = some (some (recordAt q posted k)) := by
  rcases Nat.lt_succ_iff_lt_or_eq.mp hk with hlt | rfl
  · rw [Upload.formatted, Function.update_of_ne (Nat.ne_of_lt hlt), h.texts k hlt]
  · rw [Upload.formatted, Function.update_self]

theorem Uploading.newest_iff (h : Uploading q posted u) :
    (q.head + u.cnt) % maxAmountOfCachedData = u.logger.newestIndex ↔ q.head + u.cnt + 1 = q.posted := by
  have hpending := h.pending
  have hfits := h.represents.ordered.fits
  obtain ⟨n, hn⟩ : ∃ n, q.posted = n + 1 := ⟨q.posted - 1, by omega⟩
  have hnewest : u.logger.newestIndex = n % maxAmountOfCachedData :=
    newestIndex_eq (h.represents.cacheIndex_eq.trans (by rw [hn]))
  have hcnt : u.cnt < maxAmountOfCachedData := Nat.lt_trans h.cnt_lt (by decide)
  rw [hnewest]
  constructor
  · intro heq
    rw [eq_of_mod_eq heq (by omega) (by omega), hn]
  · intro heq
    rw [hn] at heq
    rw [Nat.succ.inj heq]

/-- The check for an empty queue fails, and the item is formatted. -/
theorem Uploading.iterate_eq (h : Uploading q posted u) : u.iterate c uploadTimeout =
    if u.cnt = debugPostChunkSize - 1 ∨ q.head + u.cnt + 1 = q.posted then
      { u with
        dataStrings :=
          if q.head + u.cnt + 1 = q.posted ∧ u.cnt ≠ debugPostChunkSize - 1 then
            (u.formatted q posted).clearFrom (u.cnt + 1)
          else u.formatted q posted }.send c uploadTimeout
    else some (.again { u with dataStrings := u.formatted q posted, cnt := u.cnt + 1 }) := by
  have hfits := h.represents.ordered.fits
  have hcnt : u.cnt ≤ maxAmountOfCachedData := Nat.le_trans (Nat.le_of_lt h.cnt_lt) (by decide)
  have hindex : wrapIndex (u.logger.uploadIndex + u.cnt) = (q.head + u.cnt) % maxAmountOfCachedData := by
    rw [h.represents.uploadIndex_eq, wrapIndex_add hcnt]
  have hslot := h.represents.slot?_item h.pending (by omega)
  -- the item is not before the head, so its flag is not set
  rw [decide_eq_false (Nat.not_lt.mpr (Nat.le_add_right q.head u.cnt))] at hslot
  have hset : u.dataStrings.set? u.cnt (some (formatRecord ((item posted (q.head + u.cnt)).setUploaded false))) =
      some (u.formatted q posted) := by
    rw [DataStrings.set?, if_pos h.cnt_lt, formatRecord_setUploaded, Upload.formatted, recordAt]
  simp only [Upload.iterate, hindex, hslot, hset, h.newest_iff, setUploaded_uploaded, Option.bind_eq_bind,
    Option.bind_some, Option.pure_def, Bool.false_eq_true, and_false, if_false]

/-- When a chunk is sent, the entries after it are `NULL`. -/
theorem Uploading.complete (h : Uploading q posted u)
    (hlast : u.cnt = debugPostChunkSize - 1 ∨ q.head + u.cnt + 1 = q.posted) :
    DataStrings.Complete
      (if q.head + u.cnt + 1 = q.posted ∧ u.cnt ≠ debugPostChunkSize - 1 then
        (u.formatted q posted).clearFrom (u.cnt + 1)
      else u.formatted q posted) (u.cnt + 1) (recordAt q posted) := by
  have hcnt := h.cnt_lt
  by_cases hchunk : u.cnt = debugPostChunkSize - 1
  -- a full chunk leaves no entry to clear
  · rw [if_neg fun hnull => hnull.2 hchunk]
    exact ⟨fun k hk => h.formatted_text hk, fun k hk hlt => by omega⟩
  · rw [if_pos ⟨hlast.resolve_left hchunk, hchunk⟩]
    refine ⟨fun k hk => ?_, fun k hk hlt => ?_⟩
    · rw [DataStrings.clearFrom, if_neg fun hnull => Nat.not_le.mpr hk hnull.1, h.formatted_text hk]
    · rw [DataStrings.clearFrom, if_pos ⟨hk, hlt⟩]

/-- The chunk ends with the item that is formatted next. -/
def Upload.Last (q : Queue) (u : Upload) : Prop := u.cnt = debugPostChunkSize - 1 ∨ q.head + u.cnt + 1 = q.posted

/-- The chunk was answered `DB_HANDLER_OK`. -/
structure Upload.Acked (q : Queue) (posted : List CachedSolarValues) (c : Call) (u u' : Upload) : Prop where
  /-- The answer. -/
  sends : c.sends u.requests.length = true
  /-- The request. -/
  requests : u'.requests = u.requests ++ [⟨records q posted (u.cnt + 1), true⟩]
  /-- The queue. -/
  represents : Represents (q.ack (u.cnt + 1)) posted u'.logger
  /-- The entries of `data_strings` are assigned. -/
  free : ∃ d, u'.dataStrings.free = some d

/-- What an iteration can do. -/
inductive Upload.Step (q : Queue) (posted : List CachedSolarValues) (c : Call) (uploadTimeout : UInt64) (u : Upload) :
    Iteration Upload → Prop where
  /-- It formats an item within a chunk. -/
  | format {u' : Upload} (hcnt : u'.cnt = u.cnt + 1) (hlogger : u'.logger = u.logger)
    (hrequests : u'.requests = u.requests) (hnext : Uploading q posted u') : Step q posted c uploadTimeout u (.again u')
  /-- The chunk is answered with an error. -/
  | error {u' : Upload} (hlast : u.Last q) (hsends : c.sends u.requests.length = false) (hlogger : u'.logger = u.logger)
    (hrequests : u'.requests = u.requests ++ [⟨records q posted (u.cnt + 1), false⟩])
    (hfree : ∃ d, u'.dataStrings.free = some d) : Step q posted c uploadTimeout u (.leave u')
  /-- Nothing is pending any more. -/
  | all {u' : Upload} (hlast : u.Last q) (hacked : u.Acked q posted c u') (hall : q.head + (u.cnt + 1) = q.posted)
    (hlive : u'.logger.sendLiveMode = u.logger.sendLiveMode) : Step q posted c uploadTimeout u (.leave u')
  /-- The time is over. -/
  | timeout {u' : Upload} (hlast : u.Last q) (hacked : u.Acked q posted c u') (hmore : q.head + (u.cnt + 1) < q.posted)
    (htime : uploadTimeout ≤ c.clock (u.requests.length + 1)) (hlive : u'.logger.sendLiveMode = true) :
    Step q posted c uploadTimeout u (.leave u')
  /-- The next chunk follows. -/
  | chunk {u' : Upload} (hlast : u.Last q) (hacked : u.Acked q posted c u') (hmore : q.head + (u.cnt + 1) < q.posted)
    (htime : c.clock (u.requests.length + 1) < uploadTimeout)
    (hlive : u'.logger.sendLiveMode = u.logger.sendLiveMode) (hcnt : u'.cnt = 0)
    (hnext : Uploading (q.ack (u.cnt + 1)) posted u') : Step q posted c uploadTimeout u (.again u')

theorem Uploading.send_step (uploadTimeout : UInt64) (c : Call) (h : Uploading q posted u) (hlast : u.Last q)
    {d : DataStrings} (hd : d.Complete (u.cnt + 1) (recordAt q posted)) :
    ∃ it, { u with dataStrings := d }.send c uploadTimeout = some it ∧ u.Step q posted c uploadTimeout it := by
  have hn : q.head + (u.cnt + 1) ≤ q.posted := h.pending
  cases hs : c.sends u.requests.length with
  | false => exact ⟨_, send_error h.cnt_lt hd hs, .error hlast hs rfl rfl ⟨_, hd.free⟩⟩
  | true =>
    obtain ⟨u', hack, hrequests, hzero, hfree, hsend⟩ :=
      send_ok (u := { u with dataStrings := d }) uploadTimeout h.represents hn h.cnt_lt hd hs
    have hacked : u.Acked q posted c u' := ⟨hs, hrequests, hack, hfree⟩
    rcases hsend with ⟨hall, hlive, hleave⟩ | ⟨hmore, htime, hlive, hleave⟩ | ⟨hmore, htime, hlive, hagain⟩
    · exact ⟨_, hleave, .all hlast hacked hall hlive⟩
    · exact ⟨_, hleave, .timeout hlast hacked hmore htime hlive⟩
    · refine ⟨_, hagain, .chunk hlast hacked hmore htime hlive hzero ⟨hack, ?_, ?_, ?_⟩⟩
      · rw [hzero]
        decide
      · rw [hzero]
        exact hmore
      · intro k hk
        rw [hzero] at hk
        exact absurd hk (Nat.not_lt_zero k)

/-- An iteration has a result. -/
theorem Uploading.step (uploadTimeout : UInt64) (c : Call) (h : Uploading q posted u) :
    ∃ it, u.iterate c uploadTimeout = some it ∧ u.Step q posted c uploadTimeout it := by
  rw [h.iterate_eq]
  by_cases hlast : u.cnt = debugPostChunkSize - 1 ∨ q.head + u.cnt + 1 = q.posted
  · rw [if_pos hlast]
    exact h.send_step uploadTimeout c hlast (h.complete hlast)
  · rw [if_neg hlast]
    rw [not_or] at hlast
    have hcnt := h.cnt_lt
    have hpending := h.pending
    refine ⟨_, rfl, .format rfl rfl rfl ⟨h.represents, ?_, ?_, fun k hk => h.formatted_text hk⟩⟩
    · show u.cnt + 1 < debugPostChunkSize
      omega
    · show q.head + (u.cnt + 1) < q.posted
      omega

/-- The invariant of the loop, from the queue `q` on: `n` items were acknowledged, and after
the one that is formatted next there are `m` more. -/
def LoopInv (q : Queue) (posted : List CachedSolarValues) (m : ℕ) (u : Upload) : Prop :=
  ∃ n, Uploading (q.ack n) posted u ∧ acknowledged u.requests = records q posted n ∧
    (q.ack n).head + u.cnt + 1 + m = q.posted

/-- What holds when the loop is left. -/
def LoopPost (q : Queue) (posted : List CachedSolarValues) (u : Upload) : Prop :=
  ∃ n, Represents (q.ack n) posted u.logger ∧ acknowledged u.requests = records q posted n ∧
    ∃ d, u.dataStrings.free = some d

/-- The items of the chunk are acknowledged. -/
theorem Upload.Acked.acknowledged {n : ℕ} {u' : Upload} (h : u.Acked (q.ack n) posted c u')
    (hacked : acknowledged u.requests = records q posted n) :
    Represents (q.ack (n + (u.cnt + 1))) posted u'.logger ∧
      Logger.acknowledged u'.requests = records q posted (n + (u.cnt + 1)) := by
  constructor
  · rw [← Queue.ack_ack]
    exact h.represents
  · rw [h.requests, acknowledged_append, acknowledged_ok, hacked, ← records_add]

/-- Every iteration formats one item more, or leaves the loop. -/
theorem iterate_inv {m : ℕ} (h : LoopInv q posted m u) :
    (∃ m' u', u.iterate c uploadTimeout = some (.again u') ∧ m' < m ∧ LoopInv q posted m' u') ∨
      ∃ u', u.iterate c uploadTimeout = some (.leave u') ∧ LoopPost q posted u' := by
  obtain ⟨n, hup, hacked, hm⟩ := h
  obtain ⟨it, hit, hstep⟩ := hup.step uploadTimeout c
  rw [hit]
  cases hstep with
  | @format u' hcnt hlogger hrequests hnext =>
    have hpending := hnext.pending
    simp only [Queue.ack] at hm hpending
    refine .inl ⟨m - 1, u', rfl, by omega, n, hnext, hrequests ▸ hacked, ?_⟩
    simp only [Queue.ack]
    omega
  | @error u' hlast hsends hlogger hrequests hfree =>
    refine .inr ⟨u', rfl, n, hlogger ▸ hup.represents, ?_, hfree⟩
    rw [hrequests, acknowledged_append, acknowledged_error, List.append_nil, hacked]
  | @all u' hlast hok hall hlive =>
    obtain ⟨hack, hacked'⟩ := hok.acknowledged hacked
    exact .inr ⟨u', rfl, _, hack, hacked', hok.free⟩
  | @timeout u' hlast hok hmore htime hlive =>
    obtain ⟨hack, hacked'⟩ := hok.acknowledged hacked
    exact .inr ⟨u', rfl, _, hack, hacked', hok.free⟩
  | @chunk u' hlast hok hmore htime hlive hcnt hnext =>
    obtain ⟨hack, hacked'⟩ := hok.acknowledged hacked
    rw [Queue.ack_ack] at hnext
    simp only [Queue.ack] at hm hmore
    refine .inl ⟨m - 1, u', rfl, by omega, _, hnext, hacked', ?_⟩
    simp only [Queue.ack, hcnt]
    omega

/-- The loop is left, whatever the answers and the clock are. -/
theorem loop_represents (c : Call) (uploadTimeout : UInt64) (h : Represents q posted s) (hpending : q.head < q.posted) :
    ∃ u, loop (Upload.iterate c uploadTimeout) maxAmountOfCachedData ⟨s, fun _ => none, 0, []⟩ = some u ∧
      LoopPost q posted u := by
  have hfits := h.ordered.fits
  have hinv : LoopInv q posted (q.posted - (q.head + 1)) ⟨s, fun _ => none, 0, []⟩ := by
    refine ⟨0, ?_, rfl, ?_⟩
    · rw [q.ack_zero]
      exact ⟨h, Nat.succ_pos _, hpending, fun k hk => absurd hk (Nat.not_lt_zero k)⟩
    · simp only [Queue.ack]
      omega
  exact loop_of_variant (fun _ _ => iterate_inv) hinv (by omega)

/-! ### A call -/

/-- A call is a post, and an acknowledgement of what the requests that were answered
`DB_HANDLER_OK` carried. -/
theorem solarLoggerPostData_represents (h : Represents q posted s) (hts : c.sample.ts ≠ -1) :
    ∃ slot s' requests n, s.slot? s.cacheIndex = some slot ∧ solarLoggerPostData s c = some (s', requests) ∧
      Represents ((q.post maxAmountOfCachedData).ack n) (posted ++ [updateCachedValue slot c.sample]) s' ∧
      acknowledged requests =
        records (q.post maxAmountOfCachedData) (posted ++ [updateCachedValue slot c.sample]) n := by
  obtain ⟨slot, s₁, hslot, hupdate, hpost⟩ := updateCachedValues_represents h c.sample
  by_cases hupload : (s₁.sendLiveMode || c.force) = true ∨ (s₁.cachedValuesLocal + 1).toNat ≥ debugPostChunkSize
  · have hstart : Represents (q.post maxAmountOfCachedData) (posted ++ [updateCachedValue slot c.sample])
        { s₁ with cachedValuesLocal := s₁.cachedValuesLocal + 1, sendLiveMode := false } :=
      hpost.congr rfl rfl rfl rfl
    obtain ⟨u, hloop, n, hack, hacked, d, hfree⟩ := loop_represents c (c.clock 0 + maxUploadTimeUs) hstart
      (Queue.head_post_lt h.ordered.head_le maxAmountOfCachedData_pos)
    refine ⟨slot, { u.logger with cachedValuesLocal := 0 }, u.requests, n, hslot, ?_, hack.congr rfl rfl rfl rfl, hacked⟩
    simp only [solarLoggerPostData, if_neg hts, hupdate, Option.bind_eq_bind, Option.bind_some, if_pos hupload, hloop,
      hfree, Option.pure_def]
  · refine ⟨slot, { s₁ with cachedValuesLocal := s₁.cachedValuesLocal + 1 }, [], 0, hslot, ?_, ?_, rfl⟩
    · simp only [solarLoggerPostData, if_neg hts, hupdate, Option.bind_eq_bind, Option.bind_some, if_neg hupload,
        Option.pure_def]
    · rw [Queue.ack_zero]
      exact hpost.congr rfl rfl rfl rfl

end ModbusProxy.Logger
