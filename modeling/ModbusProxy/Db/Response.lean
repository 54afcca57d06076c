import ModbusProxy.System

/-!
# The answer of the database

`db_handler_send_solar_values` takes the samples of a request as stored if the answer
begins with the status line of code 204. It looks at what one call of `recv` has returned,
in a buffer that has room for a terminator only if it was not filled.

## The model

The connection to the database and the request are in one flag, whether all calls up to
`recv` have succeeded. What `recv` has returned is the first segment of the answer, at most
as long as the buffer. A byte of the buffer that was neither received nor written is not
among those that may be read, so reading it has no result (`none`). At the log levels that
the program sets `LOGV` prints nothing.

## What is proved

Of which answers and first segments the function decides rightly, without reading anything
else (`decides_iff`).
-/

namespace ModbusProxy.Db

open CString ModbusProxy.System

/-- `RESPONSE_BUF_SIZE`. -/
def responseBufSize : ℕ := 256

/-- What the function returns. -/
inductive Status where
  /-- `DB_HANDLER_OK`. -/
  | ok
  /-- `DB_HANDLER_GENERAL_ERROR`. -/
  | generalError
  deriving DecidableEq

/-- `"HTTP/1.1 204"`. -/
def noContent : List UInt8 := ascii "HTTP/1.1 204"

/-- `response` after `recv`: what was received, and the terminator if there is room. -/
def received (segment : List UInt8) : List UInt8 :=
  if segment.length < responseBufSize then segment ++ [0] else segment

/-- `db_handler_send_solar_values`, where `prepared` says that everything before `recv` has
succeeded, and `segment` is what `recv` has returned. -/
def dbHandlerSendSolarValues (prepared : Bool) (segment : List UInt8) : Option Status :=
  if ¬prepared then some .generalError
  else if segment = [] then some .generalError
  else do
    let response ← trimLeadingWhitespace (received segment)
    let equal ← strncmpEq 12 response (noContent ++ [0])
    return if equal then .ok else .generalError

/-- The answer, after its leading blanks, begins with the status line. -/
def Acknowledges (response : List UInt8) : Prop := noContent <+: response.dropWhile isBlank

instance (response : List UInt8) : Decidable (Acknowledges response) := inferInstanceAs (Decidable (_ <+: _))

/-- Whatever the function reads it has received or written, and it returns `DB_HANDLER_OK` if
and only if the answer acknowledges. -/
def Decides (response : List UInt8) (n : ℕ) : Prop :=
  ∃ status, dbHandlerSendSolarValues true (response.take n) = some status ∧ (status = .ok ↔ Acknowledges response)

/-- The segment fills the buffer, begins with a blank and has no NUL. -/
def Unterminated (segment : List UInt8) : Prop :=
  segment.length = responseBufSize ∧ (∃ c ∈ segment.head?, isBlank c = true) ∧ 0 ∉ segment

/-- The segment has the blanks before the status line and all of the line. -/
def LongEnough (response : List UInt8) (n : ℕ) : Prop :=
  (response.takeWhile isBlank).length + noContent.length ≤ n

theorem noContent_zero : 0 ∉ noContent := by decide

/-! ### A segment -/

variable {segment response : List UInt8} {n : ℕ}

/-- What is compared is a text. -/
theorem compare_text {t : List UInt8} (ht : 0 ∉ t) (rest : List UInt8) :
    strncmpEq 12 (t ++ 0 :: rest) (noContent ++ [0]) = some (decide (noContent <+: t)) := by
  by_cases h : noContent <+: t
  · obtain ⟨r, rfl⟩ := h
    rw [decide_eq_true (List.prefix_append noContent r), List.append_assoc]
    exact strncmpEq_of_begins noContent_zero _ _
  · rw [decide_eq_false h]
    refine strncmpEq_of_differs noContent_zero (fun h' => h (begins_text noContent_zero h')) (fun h' => ?_) [0]
    exact noContent_zero (h'.subset (List.mem_append_right _ (List.mem_cons_self ..)))

/-- What is compared has no end, but is long enough. -/
theorem compare_long {m : List UInt8} (hm : noContent.length ≤ m.length) :
    strncmpEq 12 m (noContent ++ [0]) = some (decide (noContent <+: m)) := by
  by_cases h : noContent <+: m
  · obtain ⟨r, rfl⟩ := h
    rw [decide_eq_true (List.prefix_append noContent r)]
    exact strncmpEq_of_begins noContent_zero _ _
  · rw [decide_eq_false h]
    refine strncmpEq_of_differs noContent_zero h (fun h' => h ?_) [0]
    rw [h'.eq_of_length_le hm]

theorem received_begins (segment : List UInt8) :
    noContent <+: (received segment).dropWhile isBlank ↔ Acknowledges segment := by
  unfold received Acknowledges
  split
  · rw [dropWhile_append_singleton (show isBlank 0 = false from rfl)]
    exact ⟨begins_text noContent_zero, fun h => h.trans (List.prefix_append _ _)⟩
  · rfl

theorem compare_text_eq {t : List UInt8} (ht : 0 ∉ t) (rest r : List UInt8) :
    strncmpEq 12 (t ++ 0 :: rest) (noContent ++ [0]) = some (decide (noContent <+: t ++ 0 :: r)) := by
  rw [compare_text ht]
  exact congrArg some (decide_eq_decide.mpr ⟨fun h => h.trans (List.prefix_append t _), begins_text noContent_zero⟩)

/-- Where there is no terminator, the buffer is full. -/
theorem length_of_not_mem (hlength : segment.length ≤ responseBufSize) (h : 0 ∉ received segment) :
    received segment = segment ∧ segment.length = responseBufSize := by
  unfold received at *
  split at h
  · exact absurd (List.mem_append_right segment (List.mem_singleton.mpr rfl)) h
  · next hfull => exact ⟨if_neg hfull, Nat.le_antisymm hlength (Nat.le_of_not_lt hfull)⟩

/-- What is compared once the buffer is trimmed. -/
theorem compare_trimmed {c : UInt8} {l : List UInt8} (hblank : isBlank c = true → 0 ∈ c :: l)
    (hlong : 0 ∉ c :: l → noContent.length ≤ (c :: l).length) :
    ∃ m, trimLeadingWhitespace (c :: l) = some m ∧
      strncmpEq 12 m (noContent ++ [0]) = some (decide (noContent <+: (c :: l).dropWhile isBlank)) := by
  cases hc : isBlank c with
  | false =>
    rw [List.dropWhile_cons_of_neg (by rw [hc]; decide)]
    refine ⟨_, trim_of_not_blank hc l, ?_⟩
    by_cases hzero : 0 ∈ c :: l
    · obtain ⟨t, r, ht, heq⟩ := exists_text hzero
      rw [heq]
      exact compare_text_eq ht r r
    · exact compare_long (hlong hzero)
  | true =>
    have hzero := hblank hc
    have hnot : ¬∀ x ∈ c :: l, isBlank x = true := fun hall => absurd (hall 0 hzero) (by decide)
    obtain ⟨b, x, r, heq, hb, hx⟩ := exists_first hnot
    -- the text begins after the blanks and ends with the first NUL
    have hmem : 0 ∈ x :: r := by
      rw [heq] at hzero
      exact (List.mem_append.mp hzero).resolve_left fun h0 => absurd (hb 0 h0) (by decide)
    obtain ⟨t, r', ht, htext⟩ := exists_text hmem
    have hne : b ≠ [] := by
      rintro rfl
      cases heq
      rw [hc] at hx
      cases hx
    have hhead : ∀ a, t.head? = some a → isBlank a = false := by
      intro a ha
      cases t with
      | nil => cases ha
      | cons a' t =>
        cases ha
        cases htext
        exact hx
    obtain ⟨rest, htrim⟩ := trim_moves hne hb ht hhead r'
    rw [heq, List.dropWhile_append_of_pos hb, List.dropWhile_cons_of_neg (by rw [hx]; decide), htext]
    exact ⟨_, htrim, compare_text_eq ht rest r'⟩

theorem received_cons (c : UInt8) (l : List UInt8) : ∃ l', received (c :: l) = c :: l' := by
  unfold received
  split
  · exact ⟨l ++ [0], rfl⟩
  · exact ⟨l, rfl⟩

/-- The function decides by the segment, unless it reads beyond the buffer. -/
theorem status_of_terminated (hne : segment ≠ []) (hlength : segment.length ≤ responseBufSize)
    (hend : ¬Unterminated segment) :
    dbHandlerSendSolarValues true segment = some (if Acknowledges segment then .ok else .generalError) := by
  obtain ⟨c, l, rfl⟩ := List.exists_cons_of_ne_nil hne
  obtain ⟨l', hl'⟩ := received_cons c l
  have hbegins := received_begins (c :: l)
  have hfull := length_of_not_mem hlength
  rw [hl'] at hbegins hfull
  have hblank : isBlank c = true → 0 ∈ c :: l' := by
    intro hc
    by_contra hzero
    obtain ⟨heq, hsize⟩ := hfull hzero
    exact hend ⟨hsize, ⟨c, rfl, hc⟩, heq ▸ hzero⟩
  have hlong : 0 ∉ c :: l' → noContent.length ≤ (c :: l').length := by
    intro hzero
    obtain ⟨heq, hsize⟩ := hfull hzero
    rw [heq, hsize]
    decide
  obtain ⟨m, htrim, hcompare⟩ := compare_trimmed hblank hlong
  rw [dbHandlerSendSolarValues, if_neg (by decide), if_neg hne, hl', htrim, Option.bind_eq_bind, Option.bind_some,
    hcompare, Option.bind_eq_bind, Option.bind_some]
  simp only [decide_eq_true_iff, hbegins, Option.pure_def]

theorem status_of_unterminated (h : Unterminated segment) : dbHandlerSendSolarValues true segment = none := by
  obtain ⟨hsize, ⟨c, hhead, hc⟩, hzero⟩ := h
  have hreceived : received segment = segment := if_neg (by rw [hsize]; exact Nat.lt_irrefl _)
  cases segment with
  | nil => cases hhead
  | cons a l =>
    cases hhead
    rw [dbHandlerSendSolarValues, if_neg (by decide), if_neg (List.cons_ne_nil _ l), hreceived, trim_overruns hc hzero]
    rfl

/-! ### An answer -/

/-- A first segment acknowledges if the answer does and the segment has all of the line. -/
theorem acknowledges_take (response : List UInt8) (n : ℕ) :
    Acknowledges (response.take n) ↔ Acknowledges response ∧ LongEnough response n := by
  unfold Acknowledges LongEnough
  have hpos : 0 < noContent.length := by decide
  rw [dropWhile_take, List.prefix_take_iff]
  exact and_congr_right fun _ => by omega

/-- For every answer and every first segment of it that `recv` can return: the function
decides rightly by what it has received if and only if the segment is terminated in the
buffer, or has no blank to trim, and is long enough to tell that the answer acknowledges. -/
theorem decides_iff (response : List UInt8) (n : ℕ) (hpos : 0 < n) (hsize : n ≤ responseBufSize)
    (hn : n ≤ response.length) :
    Decides response n ↔ ¬Unterminated (response.take n) ∧ (Acknowledges response → LongEnough response n) := by
  have hlength : (response.take n).length = n := by rw [List.length_take, Nat.min_eq_left hn]
  have hne : response.take n ≠ [] := List.ne_nil_of_length_pos (by rw [hlength]; exact hpos)
  constructor
  · rintro ⟨status, hstatus, hiff⟩
    have hend : ¬Unterminated (response.take n) := fun h => by
      rw [status_of_unterminated h] at hstatus
      cases hstatus
    rw [status_of_terminated hne (by rw [hlength]; exact hsize) hend] at hstatus
    cases hstatus
    refine ⟨hend, fun hack => ?_⟩
    have hok := hiff.mpr hack
    by_contra hlong
    rw [if_neg fun h => hlong ((acknowledges_take response n).mp h).2] at hok
    cases hok
  · rintro ⟨hend, hlong⟩
    refine ⟨_, status_of_terminated hne (by rw [hlength]; exact hsize) hend, ?_⟩
    have htake := acknowledges_take response n
    by_cases hack : Acknowledges response
    · rw [if_pos (htake.mpr ⟨hack, hlong hack⟩)]
      exact iff_of_true rfl hack
    · rw [if_neg fun h => hack (htake.mp h).1]
      exact iff_of_false (by decide) hack

/-- The whole status line in one segment. -/
theorem decides_line : Decides noContent 12 ↔
    ¬Unterminated (noContent.take 12) ∧ (Acknowledges noContent → LongEnough noContent 12) :=
  decides_iff noContent 12 (by decide) (by decide) (by decide)

/-- A segment that has only a part of the line, and one of a line after blanks that fills the buffer. -/
theorem not_decides :
    (¬Decides noContent 8) ∧ ¬Decides (32 :: noContent ++ List.replicate 243 97) 256 := by
  constructor
  · rintro ⟨status, hstatus, hiff⟩
    have herror : dbHandlerSendSolarValues true (noContent.take 8) = some .generalError := by decide
    cases herror.symm.trans hstatus
    exact absurd (hiff.mpr (by decide)) (by decide)
  · rintro ⟨status, hstatus, -⟩
    have hend : Unterminated (32 :: (noContent ++ List.replicate 243 97)) := by
      refine ⟨?_, ⟨32, rfl, rfl⟩, ?_⟩
      · rw [List.length_cons, List.length_append, List.length_replicate]
        rfl
      · rw [List.mem_cons, List.mem_append, List.mem_replicate]
        rintro (h | h | ⟨-, h⟩)
        · cases h
        · exact noContent_zero h
        · cases h
    rw [← List.cons_append] at hend
    have htake : (32 :: noContent ++ List.replicate 243 97).take 256 = 32 :: noContent ++ List.replicate 243 97 :=
      List.take_of_length_le hend.1.le
    rw [htake, status_of_unterminated hend] at hstatus
    cases hstatus

end ModbusProxy.Db
