import ModbusProxy.Logger.Chunks

/-!
# The time an upload may take

`solar_logger_post_data` is to upload for `MAX_UPLOAD_TIME_US` at most, so that the thread
that polls the inverter is not held up; what is left then goes with the next call. The
deadline is the sum of a time in milliseconds and a limit in microseconds.

## The model

The functions are those of `Logger.Upload`. The clock reading `0` is that on entry of the
loop, and reading `i + 1` is when the request `i` has been answered.

## What is proved

The time budget is kept if and only if no request within the loop is answered after the
budget and before the deadline (`withinBudget_iff`).
-/

namespace ModbusProxy.Logger

open AckQueue Loop

/-- The microseconds from the entry of the loop to the clock reading `i`. -/
def Call.elapsedUs (c : Call) (i : ℕ) : ℕ := ((c.clock i).toNat - (c.clock 0).toNat) * 1000

/-- The request that is under way when the time is over is the last one; and if it was
taken by the database, then just the samples after it stay pending, and the next call goes
on with them. -/
structure StopsAfter (s : SolarLogger) (i : ℕ) (s' : SolarLogger) (requests : List Request) : Prop where
  /-- No request follows. -/
  last : requests.length = i + 1
  /-- What stays pending. -/
  pending : ∀ request, requests[i]? = some request → request.ok = true →
    debugPostChunkSize * (i + 1) < s.pendingSlots.ncard →
    s'.pendingSlots = s.uploadIndexAfter '' Set.Ico (debugPostChunkSize * (i + 1)) s.pendingSlots.ncard
  /-- The next call that stores its sample enters the loop, forced or not. -/
  live : ∀ request, requests[i]? = some request → request.ok = true →
    debugPostChunkSize * (i + 1) < s.pendingSlots.ncard →
    s'.sendLiveMode = true ∧ ∀ c' : Call, c'.Stores → (uploadLoopEntry s' c').isSome = true

/-- The loop that was entered with the variables `s` keeps its budget. -/
def WithinBudget (s : SolarLogger) (c : Call) (s' : SolarLogger) (requests : List Request) : Prop :=
  ∀ i, i < requests.length → maxUploadTimeUs.toNat ≤ c.elapsedUs (i + 1) → StopsAfter s i s' requests

/-- A reading after the budget and before the deadline that the loop goes by. -/
def Call.Late (c : Call) (i : ℕ) : Prop :=
  maxUploadTimeUs.toNat ≤ c.elapsedUs i ∧ c.clock i < c.clock 0 + maxUploadTimeUs

/-- Some request other than the last is answered late, if all requests until then are taken. -/
def Call.LateWithin (c : Call) (n : ℕ) : Prop :=
  ∃ i, debugPostChunkSize * (i + 1) < n ∧ (∀ j, j ≤ i → c.sends j = true) ∧ c.Late (i + 1)

variable {q : Queue} {posted : List CachedSolarValues} {s s' : SolarLogger} {c : Call} {u : Upload}
  {uploadTimeout : UInt64} {r : ℕ}

/-! ### The next call -/

theorem updateCachedValues_live {sample : Sample} (h : updateCachedValues s sample = some s') :
    s'.sendLiveMode = s.sendLiveMode := by
  obtain ⟨slot, -, h⟩ := Option.bind_eq_some_iff.mp h
  have hlive : ((s.setSlot s.cacheIndex (updateCachedValue slot sample)).advance).sendLiveMode = s.sendLiveMode := by
    unfold SolarLogger.advance
    split <;> rfl
  generalize ((s.setSlot s.cacheIndex (updateCachedValue slot sample)).advance) = s₁ at h hlive
  dsimp only at h
  split at h
  · obtain ⟨oldest, -, h⟩ := Option.bind_eq_some_iff.mp h
    obtain ⟨newest, -, h⟩ := Option.bind_eq_some_iff.mp h
    cases h
    exact hlive
  · rw [SolarLogger.summariseFirst] at h
    split at h
    · obtain ⟨oldest, -, h⟩ := Option.bind_eq_some_iff.mp h
      obtain ⟨newest, -, h⟩ := Option.bind_eq_some_iff.mp h
      cases h
      exact hlive
    · cases h
      exact hlive

/-- In `send_live_mode` every call that stores its sample enters the loop. -/
theorem Represents.uploadLoopEntry_isSome (h : Represents q posted s) (hlive : s.sendLiveMode = true) {c : Call}
    (hc : c.Stores) : (uploadLoopEntry s c).isSome = true := by
  obtain ⟨slot, s₁, -, hupdate, -⟩ := updateCachedValues_represents h c.sample
  have hlive₁ : s₁.sendLiveMode = true := (updateCachedValues_live hupdate).trans hlive
  rw [uploadLoopEntry, if_neg hc, hupdate, Option.bind_eq_bind, Option.bind_some]
  dsimp only
  rw [if_pos (.inl (by rw [hlive₁, Bool.true_or]))]
  rfl

/-! ### The last request -/

/-- If the loop is left after the request `r` because its time is over, it is left as it should be. -/
theorem Left.stopsAfter (h : Represents q posted s) (hpending : q.head < q.posted)
    (hleft : Left q posted c uploadTimeout r u) :
    StopsAfter s r { u.logger with cachedValuesLocal := 0 } u.requests := by
  have hn := h.ncard_pendingSlots hpending
  have hlast : u.requests[r]? = some (requestOf q posted r (c.sends r)) := by
    rw [hleft.requests, List.getElem?_append_right (by rw [length_requestsOf]), length_requestsOf, Nat.sub_self]
    rfl
  have htimeout : ∀ request, u.requests[r]? = some request → request.ok = true →
      debugPostChunkSize * (r + 1) < s.pendingSlots.ncard →
      Represents (q.ack (debugPostChunkSize * (r + 1))) posted { u.logger with cachedValuesLocal := 0 } ∧
        u.logger.sendLiveMode = true := by
    intro request hrequest hok hmore
    cases hlast.symm.trans hrequest
    cases hleft.outcome with
    | error hsends => exact absurd (hsends.symm.trans hok) Bool.false_ne_true
    | all _ hall => omega
    | timeout _ _ _ hrep hlive => exact ⟨hrep.congr rfl rfl rfl rfl, hlive⟩
  refine ⟨hleft.length, fun request hrequest hok hmore => ?_, fun request hrequest hok hmore => ?_⟩
  · obtain ⟨hrep, -⟩ := htimeout request hrequest hok hmore
    have hmore' : q.head + debugPostChunkSize * (r + 1) < q.posted := by omega
    rw [hrep.pendingSlots_eq hmore', hn]
    ext j
    simp only [Set.mem_image, Set.mem_Iio, Set.mem_Ico, hrep.uploadIndexAfter_eq, h.uploadIndexAfter_eq, Queue.ack]
    constructor
    · rintro ⟨k, hk, rfl⟩
      exact ⟨debugPostChunkSize * (r + 1) + k, by omega, by rw [Nat.add_assoc]⟩
    · rintro ⟨k, ⟨hge, hlt⟩, rfl⟩
      exact ⟨k - debugPostChunkSize * (r + 1), by omega, by congr 1; omega⟩
  · obtain ⟨hrep, hlive⟩ := htimeout request hrequest hok hmore
    exact ⟨hlive, fun c' hc' => hrep.uploadLoopEntry_isSome hlive hc'⟩

/-- A late answer is followed by another request. -/
theorem Left.late_continues (h : Represents q posted s) (hpending : q.head < q.posted)
    (hclock : Monotone fun i => (c.clock i).toNat) (hleft : Left q posted c (c.clock 0 + maxUploadTimeUs) r u) {i : ℕ}
    (hmore : debugPostChunkSize * (i + 1) < s.pendingSlots.ncard) (hsends : ∀ j, j ≤ i → c.sends j = true)
    (htime : c.clock (i + 1) < c.clock 0 + maxUploadTimeUs) : i < r := by
  rw [h.ncard_pendingSlots hpending] at hmore
  by_contra hge
  have hri : r ≤ i := Nat.le_of_not_lt hge
  have hmul : debugPostChunkSize * (r + 1) ≤ debugPostChunkSize * (i + 1) :=
    Nat.mul_le_mul_left debugPostChunkSize (Nat.succ_le_succ hri)
  cases hleft.outcome with
  | error herror => exact absurd (herror.symm.trans (hsends r hri)) Bool.false_ne_true
  | all _ hall => omega
  | timeout _ _ hover =>
    have hle : (c.clock (r + 1)).toNat ≤ (c.clock (i + 1)).toNat := hclock (Nat.succ_le_succ hri)
    rw [UInt64.le_iff_toNat_le] at hover
    rw [UInt64.lt_iff_toNat_lt] at htime
    omega

theorem Left.keeps_budget_iff (h : Represents q posted s) (hpending : q.head < q.posted)
    (hclock : Monotone fun i => (c.clock i).toNat) (hleft : Left q posted c (c.clock 0 + maxUploadTimeUs) r u) :
    WithinBudget s c { u.logger with cachedValuesLocal := 0 } u.requests ↔ ¬c.LateWithin s.pendingSlots.ncard := by
  constructor
  · rintro hbudget ⟨i, hmore, hsends, hlate, htime⟩
    have hir := hleft.late_continues h hpending hclock hmore hsends htime
    have hstops := hbudget i (by rw [hleft.length]; omega) hlate
    have hlast := hstops.last
    rw [hleft.length] at hlast
    omega
  · intro hnot i hi hover
    rw [hleft.length] at hi
    rcases Nat.lt_succ_iff_lt_or_eq.mp hi with hlt | rfl
    -- a request before the last one that is answered after the budget is late
    · refine absurd ⟨i, ?_, fun j hj => hleft.answered j (by omega), hover, hleft.inTime (i + 1) (by omega) hlt⟩ hnot
      have hmul : debugPostChunkSize * (i + 1) ≤ debugPostChunkSize * r :=
        Nat.mul_le_mul_left debugPostChunkSize hlt
      have hmore := hleft.pending
      rw [h.ncard_pendingSlots hpending]
      omega
    · exact hleft.stopsAfter h hpending

/-- Whenever the loop is entered in a run, with a clock that does not go back: the budget
is kept if and only if no request other than the last is answered after the budget but
before the deadline. -/
theorem withinBudget_iff (start : Start) (garbage : ℕ → CachedSolarValues) (calls : List Call) (c : Call) (h : History)
    (s : SolarLogger) (hrun : history (start.init garbage) calls = some h)
    (hentry : uploadLoopEntry h.logger c = some s) (hclock : Monotone fun i => (c.clock i).toNat) :
    ∃ s' requests, solarLoggerPostData h.logger c = some (s', requests) ∧
      (WithinBudget s c s' requests ↔ ¬c.LateWithin s.pendingSlots.ncard) := by
  obtain ⟨q₀, h₀, hrun₀, hd⟩ := history_delivered start garbage calls
  obtain rfl : h = h₀ := Option.some.inj (hrun.symm.trans hrun₀)
  obtain ⟨q, posted, hrep, hpending, hlive, -⟩ := hd.entry hentry
  obtain ⟨r, u, hloop, hleft⟩ := loop_left c (c.clock 0 + maxUploadTimeUs) hrep hpending hlive
  obtain ⟨u', hloop', -, -, -, d, hfree⟩ := loop_represents c (c.clock 0 + maxUploadTimeUs) hrep hpending
  obtain rfl : u = u' := Option.some.inj (hloop.symm.trans hloop')
  exact ⟨_, _, solarLoggerPostData_of_entry hentry hloop hfree, hleft.keeps_budget_iff hrep hpending hclock⟩

theorem forcedCall_monotone : Monotone fun i => (forcedCall.clock i).toNat := by
  intro i j hij
  simp only [forcedCall, UInt64.toNat_ofNat']
  rw [Nat.mod_eq_of_lt (by omega), Nat.mod_eq_of_lt (by omega)]
  omega

/-- No more samples are pending than were stored. -/
theorem ncard_pendingSlots_le {start : Start} {garbage : ℕ → CachedSolarValues} {calls : List Call} {h : History}
    (hrun : history (start.init garbage) calls = some h) (hentry : uploadLoopEntry h.logger c = some s) :
    s.pendingSlots.ncard ≤ calls.length + 1 := by
  obtain ⟨q₀, h₀, hrun₀, hd⟩ := history_delivered start garbage calls
  obtain rfl : h = h₀ := Option.some.inj (hrun.symm.trans hrun₀)
  obtain ⟨q, posted, hrep, hpending, -, hlength⟩ := hd.entry hentry
  have hstored := hd.posted.length_eq
  have hfilter := List.length_filter_le (fun c : Call => decide c.Stores) calls
  rw [hrep.ncard_pendingSlots hpending, ← hrep.length_eq, hlength]
  omega

/-- The backlog takes two requests of two seconds, and the budget is kept: the reading of four
seconds comes after the last. -/
theorem withinBudget_backlog :
    ∃ (h : History) (s s' : SolarLogger) (requests : List Request),
      history (Start.init (fun _ => default) .fresh) backlog = some h ∧ uploadLoopEntry h.logger forcedCall = some s ∧
        solarLoggerPostData h.logger forcedCall = some (s', requests) ∧ WithinBudget s forcedCall s' requests ∧
        requests.length = 2 ∧ maxUploadTimeUs.toNat ≤ forcedCall.elapsedUs 2 := by
  obtain ⟨h, s, s', requests, hrun, hs, hpost, hsizes⟩ := exists_of_upload forcedCall_requests
  obtain ⟨s₁, requests₁, hpost₁, hbudget⟩ :=
    withinBudget_iff .fresh _ backlog forcedCall h s hrun hs forcedCall_monotone
  obtain ⟨rfl, rfl⟩ := Prod.mk.inj (Option.some.inj (hpost.symm.trans hpost₁))
  refine ⟨h, s, s', requests, hrun, hs, hpost, hbudget.mpr ?_, by simpa using congrArg List.length hsizes, by decide⟩
  rintro ⟨i, hmore, -, hlate, -⟩
  have hpending := ncard_pendingSlots_le hrun hs
  have hlength : backlog.length = 31 := by simp [backlog]
  rw [show debugPostChunkSize = 30 from rfl] at hmore
  -- only the first request is followed by another, and it takes two seconds
  obtain rfl : i = 0 := by omega
  revert hlate
  decide

/-- A call whose first request takes five seconds. -/
def slowCall : Call := ⟨loadSample 3100 1700000310, true, fun _ => true, fun i => if i = 0 then 0 else 5000⟩

theorem slowCall_monotone : Monotone fun i => (slowCall.clock i).toNat := by
  intro i j hij
  by_cases hi : i = 0
  · rw [hi]
    exact Nat.zero_le _
  · have hj : j ≠ 0 := fun hj => hi (Nat.le_zero.mp (hj ▸ hij))
    simp only [slowCall, if_neg hi, if_neg hj, le_refl]

theorem slowCall_requests : ((history (Start.init (fun _ => default) .fresh) backlog).bind fun h =>
    (solarLoggerPostData h.logger slowCall).map fun r => ((uploadLoopEntry h.logger slowCall).isSome, r.2.length)) =
      some (true, 2) := by decide +kernel

/-- The second request is sent although five seconds are over. -/
theorem slow_upload_over_budget :
    ¬∀ (start : Start) (garbage : ℕ → CachedSolarValues) (calls : List Call) (c : Call) (h : History)
      (s s' : SolarLogger) (requests : List Request), history (start.init garbage) calls = some h →
      uploadLoopEntry h.logger c = some s → Monotone (fun i => (c.clock i).toNat) →
      solarLoggerPostData h.logger c = some (s', requests) → WithinBudget s c s' requests := by
  intro hall
  obtain ⟨h, s, s', requests, hrun, hs, hpost, hlength⟩ := exists_of_upload slowCall_requests
  have hbudget := hall .fresh _ backlog slowCall h s s' requests hrun hs slowCall_monotone hpost
  have hlast : requests.length = 0 + 1 := (hbudget 0 (by rw [hlength]; decide) (by decide)).last
  rw [hlength] at hlast
  cases hlast

end ModbusProxy.Logger
