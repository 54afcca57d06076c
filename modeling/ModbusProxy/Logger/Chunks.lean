import Mathlib.Data.Set.Card
import ModbusProxy.Logger.Delivery

/-!
# The chunks of an upload

The loop of `solar_logger_post_data` formats one record in each iteration. It flushes the
records when there are `DEBUG_POST_CHUNK_SIZE` of them or none is left to format, and it
has five exits. Seen from outside it sends the pending samples in chunks.

## The model

The functions are those of `Logger.Upload`. Reading an entry of `data_strings` that has not
been assigned has no result, so a result says that there was no such read.

## What is proved

With `n` samples pending there are at most `n / DEBUG_POST_CHUNK_SIZE` requests, rounded
up; each carries the next samples, as many as a chunk has or all that are left
(`upload_chunks`).
-/

namespace ModbusProxy.Logger

open AckQueue Loop

/-- The variables when the loop of `solar_logger_post_data` is entered, if it is. -/
def uploadLoopEntry (s : SolarLogger) (c : Call) : Option SolarLogger :=
  if c.sample.ts = -1 then none
  else do
    let s ← updateCachedValues s c.sample
    let force := s.sendLiveMode || c.force
    let s := { s with cachedValuesLocal := s.cachedValuesLocal + 1 }
    if force ∨ s.cachedValuesLocal.toNat ≥ debugPostChunkSize then some { s with sendLiveMode := false } else none

/-- The variables of the loop when it is entered. -/
def Upload.entry (s : SolarLogger) : Upload := ⟨s, fun _ => none, 0, []⟩

/-- The slots that are yet to be uploaded. -/
def SolarLogger.pendingSlots (s : SolarLogger) : Set ℕ := { j | ∃ v, s.PendingAt j v }

/-- The index of the slot `k` after `upload_index`. -/
def SolarLogger.uploadIndexAfter (s : SolarLogger) (k : ℕ) : ℕ := (s.uploadIndex + k) % maxAmountOfCachedData

/-- How many records the request `i` carries if `n` samples are pending. -/
def chunkSize (n i : ℕ) : ℕ := min debugPostChunkSize (n - debugPostChunkSize * i)

/-! ### Pending slots -/

variable {q : Queue} {posted : List CachedSolarValues} {s s₁ : SolarLogger} {c : Call} {u u' : Upload}
  {uploadTimeout : UInt64}

theorem Represents.mod_of_inUploadInterval (h : Represents q posted s) (hpending : q.head < q.posted) {j : ℕ}
    (hj : j < maxAmountOfCachedData) (hin : s.InUploadInterval j) :
    ∃ k, k < q.posted - q.head ∧ (q.head + k) % maxAmountOfCachedData = j := by
  have hfits := h.ordered.fits
  rw [SolarLogger.InUploadInterval, h.uploadIndex_eq, h.cacheIndex_eq] at hin
  refine ⟨(j + maxAmountOfCachedData - q.head % maxAmountOfCachedData) % maxAmountOfCachedData, ?_⟩
  unfold maxAmountOfCachedData at *
  split at hin <;> omega

theorem Represents.uploadIndexAfter_eq (h : Represents q posted s) (k : ℕ) :
    s.uploadIndexAfter k = (q.head + k) % maxAmountOfCachedData := by
  rw [SolarLogger.uploadIndexAfter, h.uploadIndex_eq, Nat.mod_add_mod]

/-- If samples are pending, their slots are the ones from `upload_index` on. -/
theorem Represents.pendingSlots_eq (h : Represents q posted s) (hpending : q.head < q.posted) :
    s.pendingSlots = s.uploadIndexAfter '' Set.Iio (q.posted - q.head) := by
  ext j
  constructor
  · rintro ⟨v, hslot, -, hin⟩
    have hj : j < maxAmountOfCachedData := by
      by_contra hge
      rw [SolarLogger.slot?, if_neg hge] at hslot
      cases hslot
    obtain ⟨k, hk, hmod⟩ := h.mod_of_inUploadInterval hpending hj hin
    exact ⟨k, hk, (h.uploadIndexAfter_eq k).trans hmod⟩
  · rintro ⟨k, hk, rfl⟩
    rw [h.uploadIndexAfter_eq]
    exact ⟨_, h.pendingAt (Nat.le_add_right _ _) (Nat.add_lt_of_lt_sub' hk)⟩

theorem Represents.ncard_pendingSlots (h : Represents q posted s) (hpending : q.head < q.posted) :
    s.pendingSlots.ncard = q.posted - q.head := by
  have hfits := h.ordered.fits
  have hinj : Set.InjOn s.uploadIndexAfter (Set.Iio (q.posted - q.head)) := by
    intro a ha b hb heq
    rw [Set.mem_Iio] at ha hb
    rw [h.uploadIndexAfter_eq, h.uploadIndexAfter_eq] at heq
    have hab := eq_of_mod_eq heq (by omega) (by omega)
    omega
  rw [h.pendingSlots_eq hpending, hinj.ncard_image, Set.ncard_eq_toFinset_card', Set.toFinset_Iio,
    Nat.card_Iio]

/-! ### The loop -/

/-- The request `i`. -/
def requestOf (q : Queue) (posted : List CachedSolarValues) (i : ℕ) (ok : Bool) : Request :=
  ⟨records (q.ack (debugPostChunkSize * i)) posted (chunkSize (q.posted - q.head) i), ok⟩

/-- The first `r` requests, all answered `DB_HANDLER_OK`. -/
def requestsOf (q : Queue) (posted : List CachedSolarValues) (r : ℕ) : List Request :=
  (List.range r).map (requestOf q posted · true)

/-- The invariant of the loop: `r` requests were sent, and none of them ended it. -/
structure Sent (q : Queue) (posted : List CachedSolarValues) (c : Call) (uploadTimeout : UInt64) (r : ℕ) (u : Upload) :
    Prop where
  /-- The next item. -/
  uploading : Uploading (q.ack (debugPostChunkSize * r)) posted u
  /-- The requests. -/
  requests : u.requests = requestsOf q posted r
  /-- They were answered. -/
  answered : ∀ i, i < r → c.sends i = true
  /-- There was time. -/
  inTime : ∀ i, 0 < i → i ≤ r → c.clock i < uploadTimeout
  /-- Nothing was left for the next call. -/
  live : u.logger.sendLiveMode = false

/-- What the answer to the request `r`, which is the last one, has left. -/
inductive Outcome (q : Queue) (posted : List CachedSolarValues) (c : Call) (uploadTimeout : UInt64) (r : ℕ)
    (s : SolarLogger) : Prop where
  /-- It was an error. -/
  | error (hsends : c.sends r = false) (hrep : Represents (q.ack (debugPostChunkSize * r)) posted s)
  /-- Nothing is pending. -/
  | all (hsends : c.sends r = true) (hall : q.posted ≤ q.head + debugPostChunkSize * (r + 1))
    (hrep : Represents (q.ack (q.posted - q.head)) posted s)
  /-- The time was over. -/
  | timeout (hsends : c.sends r = true) (hmore : q.head + debugPostChunkSize * (r + 1) < q.posted)
    (htime : uploadTimeout ≤ c.clock (r + 1)) (hrep : Represents (q.ack (debugPostChunkSize * (r + 1))) posted s)
    (hlive : s.sendLiveMode = true)

/-- The loop was left after the request `r`. -/
structure Left (q : Queue) (posted : List CachedSolarValues) (c : Call) (uploadTimeout : UInt64) (r : ℕ) (u : Upload) :
    Prop where
  /-- There was something to send. -/
  pending : q.head + debugPostChunkSize * r < q.posted
  /-- The requests. -/
  requests : u.requests = requestsOf q posted r ++ [requestOf q posted r (c.sends r)]
  /-- All but the last were answered. -/
  answered : ∀ i, i < r → c.sends i = true
  /-- There was time before the last. -/
  inTime : ∀ i, 0 < i → i ≤ r → c.clock i < uploadTimeout
  /-- What is left. -/
  outcome : Outcome q posted c uploadTimeout r u.logger

variable {r : ℕ}

theorem length_requestsOf (q : Queue) (posted : List CachedSolarValues) (r : ℕ) :
    (requestsOf q posted r).length = r := by rw [requestsOf, List.length_map, List.length_range]

theorem requestsOf_succ (q : Queue) (posted : List CachedSolarValues) (r : ℕ) :
    requestsOf q posted (r + 1) = requestsOf q posted r ++ [requestOf q posted r true] := by
  rw [requestsOf, List.range_succ, List.map_append]
  rfl

/-- The last item of a chunk makes it a request. -/
theorem Sent.cnt_eq (h : Sent q posted c uploadTimeout r u) (hlast : u.Last (q.ack (debugPostChunkSize * r))) :
    u.cnt + 1 = chunkSize (q.posted - q.head) r := by
  have hcnt := h.uploading.cnt_lt
  have hpending := h.uploading.pending
  rw [chunkSize]
  simp only [Upload.Last, Queue.ack] at hlast hpending
  unfold debugPostChunkSize at *
  omega

theorem Sent.pending (h : Sent q posted c uploadTimeout r u) : q.head + debugPostChunkSize * r < q.posted := by
  have hpending := h.uploading.pending
  simp only [Queue.ack] at hpending
  omega

/-- A chunk that is followed by another is full. -/
theorem chunkSize_of_more {n : ℕ} (h : debugPostChunkSize * r + chunkSize n r < n) :
    debugPostChunkSize * r + chunkSize n r = debugPostChunkSize * (r + 1) := by
  rw [chunkSize] at *
  unfold debugPostChunkSize at *
  omega

/-- What a request that is answered `DB_HANDLER_OK` leaves. -/
theorem Sent.acked (h : Sent q posted c uploadTimeout r u) (hlast : u.Last (q.ack (debugPostChunkSize * r)))
    (hok : u.Acked (q.ack (debugPostChunkSize * r)) posted c u') :
    c.sends r = true ∧ u'.requests = requestsOf q posted (r + 1) ∧
      Represents (q.ack (debugPostChunkSize * r + chunkSize (q.posted - q.head) r)) posted u'.logger := by
  have hsends := hok.sends
  have hrequests := hok.requests
  have hrep := hok.represents
  rw [h.requests, length_requestsOf] at hsends
  rw [h.requests, h.cnt_eq hlast] at hrequests
  rw [h.cnt_eq hlast, Queue.ack_ack] at hrep
  exact ⟨hsends, hrequests.trans (requestsOf_succ q posted r).symm, hrep⟩

/-- An iteration sends the next request or none, or leaves the loop after it. -/
theorem Sent.iterate (h : Sent q posted c uploadTimeout r u) :
    (∃ u', u.iterate c uploadTimeout = some (.again u') ∧
        (u'.cnt = u.cnt + 1 ∧ Sent q posted c uploadTimeout r u' ∨
          u'.cnt = 0 ∧ Sent q posted c uploadTimeout (r + 1) u')) ∨
      ∃ u', u.iterate c uploadTimeout = some (.leave u') ∧ Left q posted c uploadTimeout r u' := by
  obtain ⟨it, hit, hstep⟩ := h.uploading.step uploadTimeout c
  have hlength : u.requests.length = r := by rw [h.requests, length_requestsOf]
  rw [hit]
  cases hstep with
  | @format u' hcnt hlogger hrequests hnext =>
    exact .inl ⟨u', rfl, .inl ⟨hcnt, hnext, hrequests.trans h.requests, h.answered, h.inTime, hlogger ▸ h.live⟩⟩
  | @error u' hlast hsends hlogger hrequests hfree =>
    rw [hlength] at hsends
    rw [h.cnt_eq hlast, h.requests] at hrequests
    refine .inr ⟨u', rfl, h.pending, ?_, h.answered, h.inTime, .error hsends (hlogger ▸ h.uploading.represents)⟩
    rw [hsends]
    exact hrequests
  | @all u' hlast hok hall hlive =>
    obtain ⟨hsends, hrequests, hrep⟩ := h.acked hlast hok
    have hsize := h.cnt_eq hlast
    have hfull : chunkSize (q.posted - q.head) r ≤ debugPostChunkSize := Nat.min_le_left ..
    simp only [Queue.ack] at hall
    refine .inr ⟨u', rfl, h.pending, ?_, h.answered, h.inTime, .all hsends ?_ ?_⟩
    · rw [hsends, ← requestsOf_succ]
      exact hrequests
    · rw [Nat.mul_succ]
      omega
    · rw [show q.posted - q.head = debugPostChunkSize * r + chunkSize (q.posted - q.head) r by omega]
      exact hrep
  | @timeout u' hlast hok hmore htime hlive =>
    obtain ⟨hsends, hrequests, hrep⟩ := h.acked hlast hok
    have hsize := h.cnt_eq hlast
    simp only [Queue.ack] at hmore
    have hfull := chunkSize_of_more (n := q.posted - q.head) (r := r) (by omega)
    rw [hfull] at hrep
    refine .inr ⟨u', rfl, h.pending, ?_, h.answered, h.inTime, .timeout hsends (by omega) (hlength ▸ htime) hrep hlive⟩
    rw [hsends, ← requestsOf_succ]
    exact hrequests
  | @chunk u' hlast hok hmore htime hlive hcnt hnext =>
    obtain ⟨hsends, hrequests, -⟩ := h.acked hlast hok
    have hsize := h.cnt_eq hlast
    simp only [Queue.ack] at hmore
    have hfull := chunkSize_of_more (n := q.posted - q.head) (r := r) (by omega)
    rw [Queue.ack_ack, hsize, hfull] at hnext
    refine .inl ⟨u', rfl, .inr ⟨hcnt, hnext, hrequests, fun i hi => ?_, fun i hpos hi => ?_, hlive.trans h.live⟩⟩
    · rcases Nat.lt_succ_iff_lt_or_eq.mp hi with hlt | rfl
      · exact h.answered i hlt
      · exact hsends
    · rcases Nat.le_succ_iff.mp hi with hle | rfl
      · exact h.inTime i hpos hle
      · exact hlength ▸ htime

theorem Sent.entry (c : Call) (uploadTimeout : UInt64) (h : Represents q posted s) (hpending : q.head < q.posted)
    (hlive : s.sendLiveMode = false) : Sent q posted c uploadTimeout 0 (.entry s) := by
  refine ⟨?_, rfl, fun i hi => absurd hi (Nat.not_lt_zero i), fun i hpos hi => by omega, hlive⟩
  rw [Nat.mul_zero, q.ack_zero]
  exact ⟨h, Nat.succ_pos _, hpending, fun k hk => absurd hk (Nat.not_lt_zero k)⟩

/-- The loop is left after some request. -/
theorem loop_left (c : Call) (uploadTimeout : UInt64) (h : Represents q posted s) (hpending : q.head < q.posted)
    (hlive : s.sendLiveMode = false) :
    ∃ r u, loop (Upload.iterate c uploadTimeout) maxAmountOfCachedData (.entry s) = some u ∧
      Left q posted c uploadTimeout r u := by
  have hfits := h.ordered.fits
  -- the variant is how many items follow the one that is formatted next
  have hstep : ∀ m u, (∃ r, Sent q posted c uploadTimeout r u ∧
        q.head + debugPostChunkSize * r + u.cnt + 1 + m = q.posted) →
      (∃ m' u', u.iterate c uploadTimeout = some (.again u') ∧ m' < m ∧ ∃ r, Sent q posted c uploadTimeout r u' ∧
        q.head + debugPostChunkSize * r + u'.cnt + 1 + m' = q.posted) ∨
      ∃ u', u.iterate c uploadTimeout = some (.leave u') ∧ ∃ r, Left q posted c uploadTimeout r u' := by
    rintro m u ⟨r, hsent, hm⟩
    rcases hsent.iterate with ⟨u', hagain, ⟨hcnt, hsent'⟩ | ⟨hcnt, hsent'⟩⟩ | ⟨u', hleave, hleft⟩
    · have hmore := hsent'.uploading.pending
      simp only [Queue.ack] at hmore
      exact .inl ⟨m - 1, u', hagain, by omega, r, hsent', by omega⟩
    · have hmore := hsent'.pending
      have hlt := hsent.uploading.cnt_lt
      rw [Nat.mul_succ] at hmore
      exact .inl ⟨q.posted - (q.head + debugPostChunkSize * (r + 1)) - 1, u', hagain, by rw [Nat.mul_succ]; omega,
        r + 1, hsent', by rw [Nat.mul_succ]; omega⟩
    · exact .inr ⟨u', hleave, r, hleft⟩
  have hentry : ∃ r, Sent q posted c uploadTimeout r (.entry s) ∧
      q.head + debugPostChunkSize * r + (Upload.entry s).cnt + 1 + (q.posted - q.head - 1) = q.posted :=
    ⟨0, Sent.entry c uploadTimeout h hpending hlive, by simp only [Upload.entry]; omega⟩
  obtain ⟨u, hloop, r, hleft⟩ := loop_of_variant hstep hentry (by omega : _ < maxAmountOfCachedData)
  exact ⟨r, u, hloop, hleft⟩

/-- When an iteration begins, `upload_index` has moved by a chunk for each request. -/
theorem reaches_uploadIndex (h : Represents q posted s) (hpending : q.head < q.posted) (hlive : s.sendLiveMode = false)
    (hreaches : Reaches (Upload.iterate c uploadTimeout) (.entry s) u) :
    u.logger.uploadIndex = s.uploadIndexAfter (debugPostChunkSize * u.requests.length) := by
  have hstep : ∀ u u', (∃ r, Sent q posted c uploadTimeout r u) → u.iterate c uploadTimeout = some (.again u') →
      ∃ r, Sent q posted c uploadTimeout r u' := by
    rintro u u' ⟨r, hsent⟩ hagain
    rcases hsent.iterate with ⟨u₁, hagain₁, ⟨-, hsent'⟩ | ⟨-, hsent'⟩⟩ | ⟨u₁, hleave, -⟩
    · cases hagain.symm.trans hagain₁
      exact ⟨r, hsent'⟩
    · cases hagain.symm.trans hagain₁
      exact ⟨r + 1, hsent'⟩
    · cases hagain.symm.trans hleave
  obtain ⟨r, hsent⟩ := hreaches.keeps hstep ⟨0, Sent.entry c uploadTimeout h hpending hlive⟩
  rw [hsent.requests, length_requestsOf, h.uploadIndexAfter_eq, hsent.uploading.represents.uploadIndex_eq]
  rfl

/-! ### A call -/

/-- What the loop does when it is entered with the variables `s` and left with `u`. -/
structure UploadRun (s : SolarLogger) (c : Call) (u : Upload) : Prop where
  /-- There are no more requests than chunks. -/
  attempts : u.requests.length ≤ (s.pendingSlots.ncard + (debugPostChunkSize - 1)) / debugPostChunkSize
  /-- A request carries a chunk, or what is left at the end. -/
  size : ∀ i request, u.requests[i]? = some request →
    0 < request.records.length ∧ request.records.length = chunkSize s.pendingSlots.ncard i
  /-- Its records are those of the next pending samples. -/
  carries : ∀ i request, u.requests[i]? = some request → ∀ k record, request.records[k]? = some record →
    ∃ v, s.PendingAt (s.uploadIndexAfter (debugPostChunkSize * i + k)) v ∧ record = formatRecord v
  /-- They begin at `upload_index`. -/
  uploadIndex : ∀ u', Reaches (Upload.iterate c (c.clock 0 + maxUploadTimeUs)) (.entry s) u' →
    u'.logger.uploadIndex = s.uploadIndexAfter (debugPostChunkSize * u'.requests.length)
  /-- Everything is sent if there is no error and no timeout. -/
  all : (∀ request ∈ u.requests, request.ok = true) →
    (∀ i, 0 < i → i ≤ u.requests.length → c.clock i < c.clock 0 + maxUploadTimeUs) →
    (u.requests.map fun request => request.records.length).sum = s.pendingSlots.ncard

theorem length_records (q : Queue) (posted : List CachedSolarValues) (n : ℕ) : (records q posted n).length = n := by
  rw [records, List.length_map, List.length_range]

theorem Left.getElem? (h : Left q posted c uploadTimeout r u) {i : ℕ} {request : Request}
    (hi : u.requests[i]? = some request) : i ≤ r ∧ ∃ ok, request = requestOf q posted i ok := by
  rw [h.requests] at hi
  rcases Nat.lt_or_ge i r with hlt | hge
  · rw [List.getElem?_append_left (by rw [length_requestsOf]; exact hlt), requestsOf, List.getElem?_map,
      List.getElem?_range hlt] at hi
    cases hi
    exact ⟨Nat.le_of_lt hlt, _, rfl⟩
  · rw [List.getElem?_append_right (by rw [length_requestsOf]; exact hge), length_requestsOf] at hi
    obtain ⟨hlt, rfl⟩ := List.getElem?_eq_some_iff.mp hi
    obtain rfl : i = r := by
      simp only [List.length_singleton] at hlt
      omega
    exact ⟨Nat.le_refl _, c.sends i, List.getElem_singleton _⟩

theorem Left.length (h : Left q posted c uploadTimeout r u) : u.requests.length = r + 1 := by
  rw [h.requests, List.length_append, length_requestsOf]
  rfl

/-- The sizes of `r` chunks that are followed by another add up to full ones. -/
theorem sum_requestsOf (q : Queue) (posted : List CachedSolarValues)
    (hr : q.head + debugPostChunkSize * r ≤ q.posted) :
    ((requestsOf q posted r).map fun request => request.records.length).sum = debugPostChunkSize * r := by
  induction r with
  | zero => rfl
  | succ r ih =>
    rw [Nat.mul_succ] at hr ⊢
    have hsize : chunkSize (q.posted - q.head) r = debugPostChunkSize := Nat.min_eq_left (by omega)
    rw [requestsOf_succ, List.map_append, List.sum_append, ih (by omega), List.map_singleton, List.sum_singleton,
      requestOf, length_records, hsize]

/-- Without an error and a timeout the loop is left when nothing is pending. -/
theorem Left.all (h : Left q posted c uploadTimeout r u) (hok : c.sends r = true)
    (htime : c.clock (r + 1) < uploadTimeout) : q.posted ≤ q.head + debugPostChunkSize * (r + 1) := by
  cases h.outcome with
  | error hsends => rw [hok] at hsends; cases hsends
  | all _ hall => exact hall
  | timeout _ _ hlate => exact absurd hlate (UInt64.not_le.mpr htime)

theorem Left.run (h : Represents q posted s) (hpending : q.head < q.posted) (hlive : s.sendLiveMode = false)
    (hleft : Left q posted c (c.clock 0 + maxUploadTimeUs) r u) : UploadRun s c u := by
  have hn := h.ncard_pendingSlots hpending
  have hr := hleft.pending
  have hsize : ∀ i, i ≤ r → 0 < chunkSize (q.posted - q.head) i := fun i hi => by
    have hmul := Nat.mul_le_mul_left debugPostChunkSize hi
    exact Nat.lt_min.mpr ⟨by decide, by omega⟩
  refine ⟨?_, fun i request hi => ?_, fun i request hi k record hk => ?_, ?_, fun hall htime => ?_⟩
  · rw [hleft.length, hn]
    unfold debugPostChunkSize at *
    omega
  · obtain ⟨hle, ok, rfl⟩ := hleft.getElem? hi
    rw [requestOf, length_records, hn]
    exact ⟨hsize i hle, rfl⟩
  · obtain ⟨hle, ok, rfl⟩ := hleft.getElem? hi
    have hlt := (List.getElem?_eq_some_iff.mp hk).1
    rw [requestOf, length_records] at hlt
    have hleft : k < q.posted - q.head - debugPostChunkSize * i := Nat.lt_of_lt_of_le hlt (Nat.min_le_right ..)
    rw [requestOf, records, List.getElem?_map, List.getElem?_range hlt] at hk
    cases hk
    refine ⟨_, ?_, rfl⟩
    rw [h.uploadIndexAfter_eq, ← Nat.add_assoc]
    simp only [Queue.ack]
    exact h.pendingAt (by omega) (by omega)
  · exact fun u' hreaches => reaches_uploadIndex h hpending hlive hreaches
  · have hok : c.sends r = true := hall (requestOf q posted r (c.sends r)) (by rw [hleft.requests]; simp)
    have hdone := hleft.all hok (htime (r + 1) (Nat.succ_pos r) (Nat.le_of_eq hleft.length.symm))
    rw [hleft.requests, List.map_append, List.sum_append, sum_requestsOf q posted (Nat.le_of_lt hr), hn,
      List.map_singleton, List.sum_singleton, requestOf, length_records, chunkSize]
    rw [Nat.mul_succ] at hdone
    omega

/-- A call that enters the loop has the time, and stores its sample. -/
theorem stores_of_entry (hentry : uploadLoopEntry s c = some s₁) : c.Stores := by
  intro hts
  rw [uploadLoopEntry, if_pos hts] at hentry
  cases hentry

/-- What the loop finds when it is entered. -/
theorem Delivered.entry {calls : List Call} {h : History} {start : SolarLogger} (hd : Delivered start calls q h)
    (hentry : uploadLoopEntry h.logger c = some s) :
    ∃ q posted, Represents q posted s ∧ q.head < q.posted ∧ s.sendLiveMode = false ∧
      posted.length = h.posted.length + 1 := by
  obtain ⟨slot, s₁, -, hupdate, hrep⟩ := updateCachedValues_represents hd.represents c.sample
  rw [uploadLoopEntry, if_neg (stores_of_entry hentry), hupdate, Option.bind_eq_bind, Option.bind_some] at hentry
  dsimp only at hentry
  split at hentry
  · cases hentry
    exact ⟨_, _, hrep.congr rfl rfl rfl rfl, Queue.head_post_lt hd.represents.ordered.head_le maxAmountOfCachedData_pos,
      rfl, List.length_append⟩
  · cases hentry

/-- A call that enters the loop returns what the loop leaves. -/
theorem solarLoggerPostData_of_entry (hentry : uploadLoopEntry s c = some s₁) {u : Upload}
    (hloop : loop (Upload.iterate c (c.clock 0 + maxUploadTimeUs)) maxAmountOfCachedData (.entry s₁) = some u)
    {d : DataStrings} (hfree : u.dataStrings.free = some d) :
    solarLoggerPostData s c = some ({ u.logger with cachedValuesLocal := 0 }, u.requests) := by
  have hc := stores_of_entry hentry
  rw [uploadLoopEntry, if_neg hc] at hentry
  obtain ⟨s₂, hupdate, hentry⟩ := Option.bind_eq_some_iff.mp hentry
  dsimp only at hentry
  split at hentry
  · next hupload =>
    cases hentry
    simp only [solarLoggerPostData, if_neg hc, hupdate, Option.bind_eq_bind, Option.bind_some, if_pos hupload,
      Option.pure_def]
    rw [Upload.entry] at hloop
    rw [hloop, Option.bind_some, hfree, Option.bind_some]
  · cases hentry

/-- When the loop is entered in a run: whatever the database answers and the clock says, at
least one sample is pending, the call has a result, and the loop sends the pending samples
in chunks. -/
theorem upload_chunks (start : Start) (garbage : ℕ → CachedSolarValues) (calls : List Call) (c : Call) (h : History)
    (s : SolarLogger) (hrun : history (start.init garbage) calls = some h)
    (hentry : uploadLoopEntry h.logger c = some s) :
    0 < s.pendingSlots.ncard ∧
      ∃ u, loop (Upload.iterate c (c.clock 0 + maxUploadTimeUs)) maxAmountOfCachedData (.entry s) = some u ∧
        solarLoggerPostData h.logger c = some ({ u.logger with cachedValuesLocal := 0 }, u.requests) ∧
        UploadRun s c u := by
  obtain ⟨q₀, h₀, hrun₀, hd⟩ := history_delivered start garbage calls
  obtain rfl : h = h₀ := Option.some.inj (hrun.symm.trans hrun₀)
  obtain ⟨q, posted, hrep, hpending, hlive, -⟩ := hd.entry hentry
  obtain ⟨r, u, hloop, hleft⟩ := loop_left c (c.clock 0 + maxUploadTimeUs) hrep hpending hlive
  obtain ⟨u', hloop', -, -, -, d, hfree⟩ := loop_represents c (c.clock 0 + maxUploadTimeUs) hrep hpending
  obtain rfl : u = u' := Option.some.inj (hloop.symm.trans hloop')
  refine ⟨?_, u, hloop, solarLoggerPostData_of_entry hentry hloop hfree, hleft.run hrep hpending hlive⟩
  rw [hrep.ncard_pendingSlots hpending]
  omega

/-- A run and a call after it that enters the loop, from what they compute. -/
theorem exists_of_upload {s₀ : SolarLogger} {calls : List Call} {c : Call} {α : Type}
    {f : SolarLogger × List Request → α} {x : α}
    (hcomputed : ((history s₀ calls).bind fun h =>
      (solarLoggerPostData h.logger c).map fun r => ((uploadLoopEntry h.logger c).isSome, f r)) = some (true, x)) :
    ∃ (h : History) (s s' : SolarLogger) (requests : List Request), history s₀ calls = some h ∧
      uploadLoopEntry h.logger c = some s ∧ solarLoggerPostData h.logger c = some (s', requests) ∧
      f (s', requests) = x := by
  obtain ⟨h, hrun, hcall⟩ := Option.bind_eq_some_iff.mp hcomputed
  obtain ⟨⟨s', requests⟩, hpost, hresult⟩ := Option.map_eq_some_iff.mp hcall
  obtain ⟨hentry, hx⟩ := Prod.mk.inj hresult
  obtain ⟨s, hs⟩ := Option.isSome_iff_exists.mp hentry
  exact ⟨h, s, s', requests, hrun, hs, hpost, hx⟩

/-- 31 calls that are not forced, ten seconds apart. One of them tries to upload and fails. -/
def backlog : List Call :=
  (List.range 31).map fun k =>
    ⟨loadSample (UInt16.ofNat (100 * k)) (1700000000 + 10 * k), false, fun _ => false, fun _ => 0⟩

/-- A forced call after the backlog, whose requests are taken two seconds after each other. -/
def forcedCall : Call :=
  ⟨loadSample 3100 1700000310, true, fun _ => true, fun i => UInt64.ofNat (min (2000 * i) 60000)⟩

theorem forcedCall_requests : ((history (Start.init (fun _ => default) .fresh) backlog).bind fun h =>
    (solarLoggerPostData h.logger forcedCall).map fun r =>
      ((uploadLoopEntry h.logger forcedCall).isSome, r.2.map fun request => request.records.length)) =
      some (true, [30, 2]) := by decide +kernel

/-- The backlog goes in two requests. -/
theorem upload_chunks_backlog :
    ∃ (h : History) (s s' : SolarLogger) (requests : List Request),
      history (Start.init (fun _ => default) .fresh) backlog = some h ∧ uploadLoopEntry h.logger forcedCall = some s ∧
        0 < s.pendingSlots.ncard ∧ solarLoggerPostData h.logger forcedCall = some (s', requests) ∧
        (∃ u, UploadRun s forcedCall u ∧ u.requests = requests) ∧
        (requests.map fun request => request.records.length) = [30, 2] := by
  obtain ⟨h, s, s', requests, hrun, hs, hpost, hsizes⟩ := exists_of_upload forcedCall_requests
  obtain ⟨hpos, u, -, hpost', hupload⟩ := upload_chunks .fresh _ backlog forcedCall h s hrun hs
  obtain ⟨-, rfl⟩ := Prod.mk.inj (Option.some.inj (hpost.symm.trans hpost'))
  exact ⟨h, s, s', u.requests, hrun, hs, hpos, hpost, ⟨u, hupload, rfl⟩, hsizes⟩

end ModbusProxy.Logger
