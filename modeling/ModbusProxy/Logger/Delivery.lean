import ModbusProxy.Logger.Upload

/-!
# What becomes of the samples

A run of the logger is a list of calls of `solar_logger_post_data` after
`solar_logger_init`. Its history has the samples as they were written into their slots,
and the requests. The queue that the logger holds (`Represents`) is followed through the
run.

## What is proved

The requests that are answered `DB_HANDLER_OK` carry samples in the order in which they
were posted, none twice; a sample that they do not carry is pending, or was overwritten by
a later one when the ring was full (`exactly_once`).
-/

namespace ModbusProxy.Logger

open AckQueue Loop

/-- What a run has done. -/
structure History where
  /-- The static variables. -/
  logger : SolarLogger
  /-- The samples, as they were written. -/
  posted : List CachedSolarValues
  /-- The requests. -/
  requests : List Request

/-- A call with a time stores its sample. -/
def Call.Stores (c : Call) : Prop := c.sample.ts ≠ -1

instance (c : Call) : Decidable c.Stores := inferInstanceAs (Decidable (_ ≠ _))

/-- What a call writes into the slot at `cache_index`. -/
def Call.written (c : Call) (s : SolarLogger) : List CachedSolarValues :=
  if c.Stores then ((s.slot? s.cacheIndex).map (updateCachedValue · c.sample)).toList else []

/-- A call of `solar_logger_post_data`. -/
def History.call (h : History) (c : Call) : Option History :=
  (solarLoggerPostData h.logger c).map fun r => ⟨r.1, h.posted ++ c.written h.logger, h.requests ++ r.2⟩

/-- The history of the calls `calls`, from the logger `s` on. -/
def history (s : SolarLogger) (calls : List Call) : Option History := calls.foldlM History.call ⟨s, [], []⟩

/-- The index is in the interval from `upload_index` to `cache_index`, which is the whole
ring if the two are equal. -/
def SolarLogger.InUploadInterval (s : SolarLogger) (j : ℕ) : Prop :=
  if s.uploadIndex < s.cacheIndex then s.uploadIndex ≤ j ∧ j < s.cacheIndex
  else s.uploadIndex ≤ j ∨ j < s.cacheIndex

/-- Slot `j` holds `v`, which is yet to be uploaded. -/
def SolarLogger.PendingAt (s : SolarLogger) (j : ℕ) (v : CachedSolarValues) : Prop :=
  s.slot? j = some v ∧ v.uploaded = false ∧ s.InUploadInterval j

/-- The sample `i` of the run is yet to be uploaded. -/
def History.Pending (h : History) (i : ℕ) : Prop :=
  ∃ v, h.posted[i]? = some v ∧ h.logger.PendingAt (i % maxAmountOfCachedData) v

/-- A call of the run overwrote the pending sample `i` when all slots were pending. -/
def Overwritten (s : SolarLogger) (calls : List Call) (i : ℕ) : Prop :=
  ∃ before c after h, calls = before ++ c :: after ∧ c.Stores ∧ history s before = some h ∧ h.Pending i ∧
    h.logger.cacheIndex = i % maxAmountOfCachedData ∧ ∀ j, j < maxAmountOfCachedData → ∃ v, h.logger.PendingAt j v

/-! ### Pending samples -/

variable {q : Queue} {posted : List CachedSolarValues} {s : SolarLogger}

theorem Represents.inUploadInterval (h : Represents q posted s) {i : ℕ} (hhead : q.head ≤ i) (hi : i < q.posted) :
    s.InUploadInterval (i % maxAmountOfCachedData) := by
  have hfits := h.ordered.fits
  rw [SolarLogger.InUploadInterval, h.uploadIndex_eq, h.cacheIndex_eq]
  unfold maxAmountOfCachedData at *
  split <;> omega

theorem Represents.pendingAt (h : Represents q posted s) {i : ℕ} (hhead : q.head ≤ i) (hi : i < q.posted) :
    s.PendingAt (i % maxAmountOfCachedData) (item posted i) := by
  have hfits := h.ordered.fits
  have hlength : i < posted.length := h.length_eq.symm ▸ hi
  have hnew : (item posted i).uploaded = false := by
    rw [item_eq_get hlength]
    exact h.fresh _ (List.get_mem ..)
  have hslot := h.slot?_item hi (by omega)
  rw [decide_eq_false (Nat.not_lt.mpr hhead), setUploaded_self hnew] at hslot
  exact ⟨hslot, hnew, h.inUploadInterval hhead hi⟩

/-- If the queue is full, every slot is pending. -/
theorem Represents.pendingAt_of_full (h : Represents q posted s) (hfull : q.Full maxAmountOfCachedData) {j : ℕ}
    (hj : j < maxAmountOfCachedData) : ∃ v, s.PendingAt j v := by
  obtain ⟨i, hhead, hi, hmod⟩ : ∃ i, q.head ≤ i ∧ i < q.posted ∧ i % maxAmountOfCachedData = j := by
    rw [Queue.Full] at hfull
    refine ⟨q.head + (j + maxAmountOfCachedData - q.head % maxAmountOfCachedData) % maxAmountOfCachedData, ?_⟩
    unfold maxAmountOfCachedData at *
    omega
  exact ⟨item posted i, hmod ▸ h.pendingAt hhead hi⟩

/-! ### Runs -/

/-- What the run `calls` has made of the queue. -/
structure Delivered (s : SolarLogger) (calls : List Call) (q : Queue) (h : History) : Prop where
  /-- The logger holds the queue. -/
  represents : Represents q h.posted h.logger
  /-- The samples are those of the calls. -/
  posted : List.Forall₂ (fun c v => ∃ slot, v = updateCachedValue slot c.sample)
    (calls.filter fun c => decide c.Stores) h.posted
  /-- The records that were taken are those of the samples sent. -/
  sent : acknowledged h.requests = q.sent.map fun i => formatRecord (item h.posted i)
  /-- The other samples that the queue no longer has were overwritten. -/
  gone : ∀ i, i < q.head → i ∈ q.sent ∨ Overwritten s calls i

variable {calls : List Call} {c : Call} {h : History}

theorem history_append (s : SolarLogger) (calls : List Call) (c : Call) :
    history s (calls ++ [c]) = (history s calls).bind (·.call c) := by
  rw [history, List.foldlM_append]
  simp only [List.foldlM_cons, List.foldlM_nil, bind_pure]
  rfl

theorem Overwritten.append {i : ℕ} (h : Overwritten s calls i) (c : Call) : Overwritten s (calls ++ [c]) i := by
  obtain ⟨before, c', after, h, rfl, hrest⟩ := h
  exact ⟨before, c', after ++ [c], h, by simp, hrest⟩

/-- A sample that a post to the full queue drops is overwritten. -/
theorem Delivered.overwritten (hd : Delivered s calls q h) (hrun : history s calls = some h) (hc : c.Stores)
    (hfull : q.Full maxAmountOfCachedData) : Overwritten s (calls ++ [c]) q.head := by
  have hlt : q.head < q.posted := by
    rw [hfull]
    exact Nat.lt_add_of_pos_right maxAmountOfCachedData_pos
  have hlength : q.head < h.posted.length := hd.represents.length_eq.symm ▸ hlt
  have hcache : h.logger.cacheIndex = q.head % maxAmountOfCachedData := by
    rw [hd.represents.cacheIndex_eq, hfull, Nat.add_mod_right]
  refine ⟨calls, c, [], h, rfl, hc, hrun, ⟨item h.posted q.head, ?_, hd.represents.pendingAt (Nat.le_refl _) hlt⟩,
    hcache, fun j hj => hd.represents.pendingAt_of_full hfull hj⟩
  rw [item_eq_get hlength]
  exact List.getElem?_eq_getElem hlength

theorem Delivered.call_idle (hd : Delivered s calls q h) (hc : ¬c.Stores) :
    h.call c = some h ∧ Delivered s (calls ++ [c]) q h := by
  have hts : c.sample.ts = -1 := Decidable.not_not.mp hc
  constructor
  · rw [History.call, solarLoggerPostData, if_pos hts, Call.written, if_neg hc, Option.map_some, List.append_nil,
      List.append_nil]
  · refine ⟨hd.represents, ?_, hd.sent, fun i hi => (hd.gone i hi).imp_right fun h => h.append c⟩
    rw [List.filter_append, List.filter_cons_of_neg (by simpa using hc), List.filter_nil, List.append_nil]
    exact hd.posted

theorem Delivered.call_stores (hd : Delivered s calls q h) (hrun : history s calls = some h) (hc : c.Stores) :
    ∃ q' h', h.call c = some h' ∧ Delivered s (calls ++ [c]) q' h' := by
  obtain ⟨slot, s', requests, n, hslot, hcall, hrep, hacked⟩ := solarLoggerPostData_represents hd.represents hc
  have hwritten : c.written h.logger = [updateCachedValue slot c.sample] := by
    rw [Call.written, if_pos hc, hslot]
    rfl
  generalize hv : updateCachedValue slot c.sample = v at *
  refine ⟨(q.post maxAmountOfCachedData).ack n, ⟨s', h.posted ++ [v], h.requests ++ requests⟩, ?_, hrep, ?_, ?_, ?_⟩
  · rw [History.call, hcall, hwritten]
    rfl
  · rw [List.filter_append, List.filter_cons_of_pos (by simpa using hc)]
    exact List.rel_append hd.posted (.cons ⟨slot, hv.symm⟩ .nil)
  · rw [acknowledged_append, hd.sent, hacked, Queue.ack, List.map_append, List.range'_eq_map_range, List.map_map]
    refine congrArg (· ++ _) (List.map_congr_left fun i hi => ?_)
    have hlt : i < h.posted.length := by
      rw [hd.represents.length_eq]
      exact Nat.lt_of_lt_of_le (hd.represents.ordered.old i hi) hd.represents.ordered.head_le
    rw [item_append hlt]
  · intro i hi
    rcases Queue.lt_head_ack hi with hlt | hsent
    · rcases Queue.lt_head_post hlt with hold | ⟨hfull, rfl⟩
      · exact (hd.gone i hold).imp (List.mem_append_left _) fun h => h.append c
      · exact .inr (hd.overwritten hrun hc hfull)
    · exact .inl hsent

theorem history_delivered (start : Start) (garbage : ℕ → CachedSolarValues) (calls : List Call) :
    ∃ q h, history (start.init garbage) calls = some h ∧ Delivered (start.init garbage) calls q h := by
  induction calls using List.reverseRecOn with
  | nil => exact ⟨.empty, _, rfl, init_represents start garbage, .nil, rfl, fun i hi => absurd hi (Nat.not_lt_zero i)⟩
  | append_singleton calls c ih =>
    obtain ⟨q, h, hrun, hd⟩ := ih
    rw [history_append, hrun]
    by_cases hc : c.Stores
    · obtain ⟨q', h', hcall, hd'⟩ := hd.call_stores hrun hc
      exact ⟨q', h', hcall, hd'⟩
    · exact ⟨q, h, hd.call_idle hc⟩

/-- A request that is answered with an error leaves `upload_index` and the slots as they were. -/
theorem iterate_error {u : Upload} {uploadTimeout : UInt64} {it : Iteration Upload} {rs : List Record}
    (h : u.iterate c uploadTimeout = some it) (herror : it.state.requests = u.requests ++ [⟨rs, false⟩]) :
    it.state.logger = u.logger := by
  rcases iterate_cases h with ⟨d, hsend⟩ | ⟨-, hlogger⟩
  · obtain ⟨records, hok | rfl⟩ := send_cases hsend
    · have hlast := List.append_cancel_left (hok.symm.trans herror)
      cases hlast
    · rfl
  · exact hlogger

/-- Whatever is posted, whatever the database answers and whatever the clock says: the
requests that are answered `DB_HANDLER_OK` carry samples that were posted, in their order
and none twice, and a sample that they do not carry is pending or was overwritten when all
slots were pending. A request that is answered with an error changes neither `upload_index`
nor a flag. -/
theorem exactly_once (start : Start) (garbage : ℕ → CachedSolarValues) (calls : List Call) :
    ∃ h, history (start.init garbage) calls = some h ∧
      List.Forall₂ (fun c v => ∃ slot, v = updateCachedValue slot c.sample)
        (calls.filter fun c => decide c.Stores) h.posted ∧
      (∃ sent : List (Fin h.posted.length), sent.Pairwise (· < ·) ∧
        acknowledged h.requests = sent.map (fun i => formatRecord (h.posted.get i)) ∧
        ∀ i, i ∉ sent → h.Pending i ∨ Overwritten (start.init garbage) calls i) ∧
      ∀ (c : Call) (uploadTimeout : UInt64) (u : Upload) (it : Iteration Upload) (rs : List Record),
        u.iterate c uploadTimeout = some it → it.state.requests = u.requests ++ [⟨rs, false⟩] →
          it.state.logger.uploadIndex = u.logger.uploadIndex ∧ ∀ j, it.state.logger.slot? j = u.logger.slot? j := by
  obtain ⟨q, h, hrun, hd⟩ := history_delivered start garbage calls
  have hlength := hd.represents.length_eq
  have hold : ∀ i ∈ q.sent, i < h.posted.length := fun i hi => by
    rw [hlength]
    exact Nat.lt_of_lt_of_le (hd.represents.ordered.old i hi) hd.represents.ordered.head_le
  refine ⟨h, hrun, hd.posted, ⟨q.sent.pmap Fin.mk hold, ?_, ?_, ?_⟩, ?_⟩
  · exact hd.represents.ordered.sorted.pmap hold fun i hi j hj hlt => hlt
  · rw [hd.sent, List.map_pmap, ← List.pmap_eq_map hold]
    exact List.pmap_congr_left _ fun i hi hlt _ => congrArg formatRecord (item_eq_get hlt)
  · intro i hi
    have hnot : i.val ∉ q.sent := fun hmem => hi (List.mem_pmap.mpr ⟨i.val, hmem, rfl⟩)
    by_cases hlt : i.val < q.head
    · exact .inr ((hd.gone i.val hlt).resolve_left hnot)
    · refine .inl ⟨item h.posted i, ?_, hd.represents.pendingAt (Nat.le_of_not_lt hlt) (hlength ▸ i.isLt)⟩
      rw [item_eq_get i.isLt]
      exact List.getElem?_eq_getElem i.isLt
  · intro c uploadTimeout u it rs hit herror
    rw [iterate_error hit herror]
    exact ⟨rfl, fun j => rfl⟩

/-- A sample in which only the power of the load and the time are given. -/
def loadSample (slPower : UInt16) (ts : ℤ) : Sample :=
  { (default : Sample) with canEz3 := { (default : CanEz3Values) with slPower }, ts }

/-- A request fails; the next one carries both samples. -/
example : ((history (Start.init (fun _ => default) .fresh)
    [⟨loadSample 400 10, true, fun _ => false, fun _ => 0⟩, ⟨loadSample 500 20, true, fun _ => true, fun _ => 0⟩]).map
      fun h => (h.requests.map fun r => (r.records.length, r.ok), h.logger.uploadIndex)) =
    some ([(1, false), (2, true)], 2) := rfl

end ModbusProxy.Logger
