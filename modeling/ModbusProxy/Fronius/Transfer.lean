import Mathlib.Tactic

/-!
# Transfers from the inverter

`http_get` of `fronius_solar_api.c` gets a page with libcurl, which passes the body of the
answer to `write_callback` in chunks of its choosing.

## The model

A transfer is what libcurl does in one `http_get`: it calls `write_callback` with nonempty
chunks, until one of them is not taken whole, and then succeeds or fails. What `*response`
points to is the list of its bytes, `none` for the null pointer. The status code that is not
read stays what it was.

## What is proved

What a successful transfer leaves is the last chunk (`httpGet_succeeding`), so it is the body
if and only if there is exactly one, and it is the same for all ways to split a body if and
only if there is only one way (`reassembles_iff`).
-/

namespace ModbusProxy.Fronius

/-- What `http_get` and the readers return. -/
inductive Status where
  /-- `FRONIUS_OK`. -/
  | ok
  /-- `FRONIUS_ERROR`. -/
  | error
  deriving DecidableEq

/-- A chunk of a body. -/
structure Chunk where
  /-- Its bytes. -/
  bytes : List UInt8
  /-- There are some. -/
  nonempty : bytes ≠ []

/-- A call of `write_callback`. -/
structure Delivery where
  /-- What is passed. -/
  chunk : Chunk
  /-- Whether `malloc` succeeds. -/
  mallocOk : Bool

/-- What libcurl does in one `http_get`. -/
structure Transfer where
  /-- `curl_easy_init` returns a handle. -/
  init : Bool
  /-- The calls of `write_callback`, as long as all is taken. -/
  deliveries : List Delivery
  /-- The transfer succeeds if all has been taken. -/
  complete : Bool
  /-- The status code of the answer. -/
  statusCode : ℤ

/-- `write_callback`: `*data` after it, and what it returns. The pointer that was in `*data`
is overwritten. -/
def writeCallback (mallocOk : Bool) (chunk : List UInt8) (_data : Option (List UInt8)) : Option (List UInt8) × ℕ :=
  if mallocOk then (some (chunk ++ [0]), chunk.length) else (none, 0)

/-- The calls of `write_callback`: `*data` after them, and whether all was taken. -/
def deliver (data : Option (List UInt8)) : List Delivery → Option (List UInt8) × Bool
  | [] => (data, true)
  | d :: ds =>
    let taken := writeCallback d.mallocOk d.chunk.bytes data
    if taken.2 = d.chunk.bytes.length then deliver taken.1 ds else (taken.1, false)

/-- What `http_get` returns and leaves in its arguments. -/
structure Fetched where
  /-- `rc`. -/
  rc : Status
  /-- `*response`. -/
  response : Option (List UInt8)
  /-- `*status_code`. -/
  statusCode : ℤ

/-- `http_get`. -/
def httpGet (t : Transfer) (response : Option (List UInt8)) (statusCode : ℤ) : Fetched :=
  if t.init then
    let delivered := deliver response t.deliveries
    if delivered.2 && t.complete then ⟨.ok, delivered.1, t.statusCode⟩ else ⟨.error, delivered.1, statusCode⟩
  else ⟨.ok, response, statusCode⟩

/-! ### Transfers that succeed -/

/-- The transfer that delivers the given chunks and succeeds. -/
def succeeding (chunks : List Chunk) (statusCode : ℤ) : Transfer where
  init := true
  deliveries := chunks.map fun chunk => ⟨chunk, true⟩
  complete := true
  statusCode := statusCode

/-- The body that has been split into chunks. -/
def body (chunks : List Chunk) : List UInt8 := chunks.flatMap Chunk.bytes

/-- The string that is left is the body. -/
def Reassembles (chunks : List Chunk) : Prop :=
  ∀ code statusCode, httpGet (succeeding chunks code) none statusCode = ⟨.ok, some (body chunks ++ [0]), code⟩

/-- The string that is left, and so what is parsed, does not depend on how the body was split. -/
def SplitIndependent (b : List UInt8) : Prop :=
  ∀ chunks chunks', body chunks = b → body chunks' = b → ∀ code statusCode,
    httpGet (succeeding chunks code) none statusCode = httpGet (succeeding chunks' code) none statusCode

/-- One call. -/
theorem deliver_cons (chunk : Chunk) (data : Option (List UInt8)) (ds : List Delivery) :
    deliver data (⟨chunk, true⟩ :: ds) = deliver (some (chunk.bytes ++ [0])) ds := by
  rw [deliver, writeCallback, if_pos rfl]
  exact if_pos rfl

/-- All calls: the last one decides what is left. -/
theorem deliver_chunks (chunks : List Chunk) (data : Option (List UInt8)) :
    deliver data (chunks.map fun chunk => ⟨chunk, true⟩) =
      ((chunks.getLast?.map fun chunk => chunk.bytes ++ [0]).or data, true) := by
  induction chunks generalizing data with
  | nil => rfl
  | cons chunk chunks ih =>
    rw [List.map_cons, deliver_cons, ih, List.getLast?_cons]
    cases chunks.getLast? with
    | none => rfl
    | some last => rfl

/-- **What a successful transfer leaves.** -/
theorem httpGet_succeeding (chunks : List Chunk) (code statusCode : ℤ) :
    httpGet (succeeding chunks code) none statusCode =
      ⟨.ok, chunks.getLast?.map fun chunk => chunk.bytes ++ [0], code⟩ := by
  rw [httpGet, succeeding, if_pos rfl, deliver_chunks, Option.or_none]
  rfl

theorem length_body_pos {chunks : List Chunk} (h : chunks ≠ []) : 0 < (body chunks).length := by
  obtain ⟨chunk, chunks, rfl⟩ := List.exists_cons_of_ne_nil h
  rw [body, List.flatMap_cons, List.length_append]
  exact Nat.add_pos_left (List.length_pos_of_ne_nil chunk.nonempty) _

theorem reassembles_one {chunks : List Chunk} : Reassembles chunks ↔ chunks.length = 1 := by
  simp only [Reassembles, httpGet_succeeding, Fetched.mk.injEq, true_and, and_true]
  constructor
  · intro h
    have hlast := h 0 0
    rcases List.eq_nil_or_concat chunks with rfl | ⟨init, last, rfl⟩
    · cases hlast
    · -- what comes before the last chunk has no bytes, so there are no chunks in it
      rw [List.concat_eq_append] at hlast ⊢
      rw [List.getLast?_append, List.getLast?_singleton, Option.some_or, Option.map_some, Option.some.injEq,
        List.append_cancel_right_eq] at hlast
      have hlength := congrArg List.length hlast
      rw [body, List.flatMap_append, List.length_append, List.flatMap_singleton] at hlength
      have hinit : init = [] := by
        by_contra hne
        have hpos := length_body_pos hne
        rw [body] at hpos
        omega
      rw [hinit]
      rfl
  · intro h _ _
    obtain ⟨chunk, rfl⟩ := List.length_eq_one_iff.mp h
    rw [List.getLast?_singleton, Option.map_some, body, List.flatMap_singleton]

/-- A body of two bytes or more can be split. -/
theorem exists_split {b c : UInt8} {r : List UInt8} :
    body [⟨b :: c :: r, List.cons_ne_nil _ _⟩] = b :: c :: r ∧
      body [⟨[b], List.cons_ne_nil _ _⟩, ⟨c :: r, List.cons_ne_nil _ _⟩] = b :: c :: r := by
  constructor
  · rw [body, List.flatMap_singleton]
  · rw [body, List.flatMap_cons, List.flatMap_singleton, List.singleton_append]

/-- A body of at most one byte is one chunk or none. -/
theorem chunks_of_short (chunks : List Chunk) (h : (body chunks).length ≤ 1) :
    chunks.getLast?.map Chunk.bytes = if body chunks = [] then none else some (body chunks) := by
  cases chunks with
  | nil => rfl
  | cons chunk chunks =>
    have hpos := List.length_pos_of_ne_nil chunk.nonempty
    have hrest : chunks = [] := by
      by_contra hne
      have hpos' := length_body_pos hne
      rw [body, List.flatMap_cons, List.length_append, ← body] at h
      omega
    rw [hrest, body, List.flatMap_singleton, if_neg chunk.nonempty, List.getLast?_singleton, Option.map_some]

theorem splitIndependent_short {b : List UInt8} : SplitIndependent b ↔ b.length ≤ 1 := by
  simp only [SplitIndependent, httpGet_succeeding, Fetched.mk.injEq, true_and, and_true]
  constructor
  · intro h
    by_contra hlong
    obtain ⟨c, l, rfl⟩ := List.exists_cons_of_length_pos (show 0 < b.length by omega)
    obtain ⟨d, r, rfl⟩ := List.exists_cons_of_length_pos (show 0 < l.length by simp only [List.length_cons] at hlong; omega)
    have heq := h _ _ exists_split.1 exists_split.2 0 0
    have hlength := congrArg (fun o => (o.getD []).length) heq
    simp only [List.getLast?_singleton, List.getLast?_cons_cons, Option.map_some, Option.getD_some, List.length_append,
      List.length_cons, List.length_nil] at hlength
    omega
  · intro h chunks chunks' hbody hbody' _ _
    have hlast := chunks_of_short chunks (by rw [hbody]; exact h)
    have hlast' := chunks_of_short chunks' (by rw [hbody']; exact h)
    rw [hbody] at hlast
    rw [hbody'] at hlast'
    have hmap (cs : List Chunk) : (cs.getLast?.map fun chunk => chunk.bytes ++ [0]) =
        (cs.getLast?.map Chunk.bytes).map fun bytes => bytes ++ [0] := by rw [Option.map_map]; rfl
    rw [hmap, hmap, hlast, hlast']

/-- The string that a successful transfer leaves in `*response` is the whole body, terminated,
if and only if there is exactly one chunk; and what is left does not depend on how a body was
split if and only if it has at most one byte. -/
theorem reassembles_iff (chunks : List Chunk) (b : List UInt8) :
    (Reassembles chunks ↔ chunks.length = 1) ∧ (SplitIndependent b ↔ b.length ≤ 1) :=
  ⟨reassembles_one, splitIndependent_short⟩

/-- The two braces in two chunks. -/
theorem not_reassembles : ¬Reassembles [⟨[123], by decide⟩, ⟨[125], by decide⟩] := by
  intro h
  have heq := congrArg Fetched.response (h 200 0)
  exact absurd heq (by decide)

end ModbusProxy.Fronius
