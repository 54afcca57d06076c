import ModbusProxy.Library.CString
import ModbusProxy.Library.Tokens

/-!
# Requests to the web server

`handle_request` reads a request, takes the method and the path from it with `sscanf`, into
arrays of fixed size, and answers with one of four pages.

## The model

`%s` is as in the C standard: it skips white space and stores the bytes up to the next, and
a NUL. A store beyond its array is undefined (`none`), and so is what the function does
then. Memory is allocated, and `build_payload` gets the bodies of the pages with values and
with information.

## What is proved

The function stays in its arrays and answers as it should if and only if the first token has
at most seven bytes and the second at most 127 (`handles_request_iff`).
-/

namespace ModbusProxy.Http

open CString Tokens

/-- `request_uri_type`. -/
inductive RequestUriType where
  /-- `TYPE_URI_UNKNOWN`. -/
  | unknown
  /-- `TYPE_URI_ROOT`. -/
  | root
  /-- `TYPE_URI_VALUES`. -/
  | values
  /-- `TYPE_URI_INFO`. -/
  | info
  deriving DecidableEq

/-- The bodies of the pages that are read from the clients. -/
structure Bodies where
  /-- The body for `TYPE_URI_VALUES`. -/
  values : List UInt8
  /-- The body for `TYPE_URI_INFO`. -/
  info : List UInt8

/-- `body`. -/
def Bodies.body (bodies : Bodies) : RequestUriType → List UInt8
  | .values => bodies.values
  | .info => bodies.info
  | .root | .unknown => ascii "available uris:<br>/values<br>/info<br>"

/-- `status_code`. -/
def statusCode : RequestUriType → List UInt8
  | .values | .info | .root => ascii "200 OK"
  | .unknown => ascii "404 Not Found"

/-- `content_type`. -/
def contentType : RequestUriType → List UInt8
  | .values | .info => ascii "application/json"
  | .root | .unknown => ascii "text/html"

/-- `build_payload`. -/
def buildPayload (bodies : Bodies) (type : RequestUriType) : List UInt8 :=
  ascii "HTTP/1.1 " ++ statusCode type ++ ascii "\r\nContent-Type: " ++ contentType type ++
    ascii "\r\nContent-Length: " ++ ascii (toString (bodies.body type).length) ++
    ascii "\r\nConnection: close\r\nAccess-Control-Allow-Origin: *\r\nAccess-Control-Allow-Methods: GET\r\nAccess-Control-Allow-Headers: Content-Type\r\n\r\n" ++
    bodies.body type

/-- The size of `method`. -/
def methodSize : ℕ := 8

/-- The size of `url`. -/
def urlSize : ℕ := 128

/-- What `isspace` accepts. -/
def isSpace (c : UInt8) : Bool := c = 32 || (9 ≤ c && c ≤ 13)

/-- What `sscanf(buffer, "%s %s", method, url)` stores in `method` and in `url`. -/
def sscanf (buffer : List UInt8) : Option (List UInt8) × Option (List UInt8) :=
  match scanToken isSpace buffer with
  | none => (none, none)
  | some (method, rest) => (some method, (scanToken isSpace rest).map Prod.fst)

/-- How many bytes are written to an array for it. -/
def written (stored : Option (List UInt8)) : ℕ := (stored.map fun t => t.length + 1).getD 0

/-- The type of the page for a path. -/
def uriType (url : List UInt8) : RequestUriType :=
  if url = ascii "/" then .root
  else if url = ascii "/values" then .values
  else if url = ascii "/info" then .info
  else .unknown

/-- `handle_request`, of the bytes that `read` has returned, or `none` if it has failed: what
is sent, if anything is. -/
def handleRequest (bodies : Bodies) (bytesRead : Option (List UInt8)) : Option (Option (List UInt8)) :=
  match bytesRead with
  | none => some none
  | some bytes => do
    let buffer ← cstring (bytes ++ [0])
    let stored := sscanf buffer
    if written stored.1 > methodSize ∨ written stored.2 > urlSize then none
    else match stored with
      | (some method, some url) =>
        if method ≠ ascii "GET" then return none else return some (buildPayload bodies (uriType url))
      | _ => return none

/-! ### What is asked of it -/

/-- The text of the request, which a NUL ends. -/
def requestText (bytes : List UInt8) : List UInt8 := bytes.takeWhile fun c => c ≠ 0

/-- Its tokens. -/
def requestTokens (bytes : List UInt8) : List (List UInt8) := tokens isSpace (requestText bytes)

/-- The page is the one for the path. -/
structure PageFor (url : List UInt8) (type : RequestUriType) : Prop where
  /-- The values. -/
  values : type = .values ↔ url = ascii "/values"
  /-- The information. -/
  info : type = .info ↔ url = ascii "/info"
  /-- The root. -/
  root : type = .root ↔ url = ascii "/"
  /-- `404 Not Found`. -/
  unknown : type = .unknown ↔ url ≠ ascii "/values" ∧ url ≠ ascii "/info" ∧ url ≠ ascii "/"

/-- The request is parsed within the arrays, and answered as it should. -/
structure HandlesRequest (bodies : Bodies) (bytes : List UInt8) : Prop where
  /-- What is parsed is the text, and at most eight bytes are written to `method` and 128 to `url`. -/
  bounds : ∃ buffer, cstring (bytes ++ [0]) = some buffer ∧ written (sscanf buffer).1 ≤ methodSize ∧
    written (sscanf buffer).2 ≤ urlSize
  /-- There is an answer if the first token is `GET` and there is a second one. -/
  answered : ∀ url, (requestTokens bytes)[0]? = some (ascii "GET") → (requestTokens bytes)[1]? = some url →
    ∃ type, handleRequest bodies (some bytes) = some (some (buildPayload bodies type)) ∧ PageFor url type
  /-- There is none otherwise. -/
  unanswered : (requestTokens bytes)[0]? ≠ some (ascii "GET") ∨ (requestTokens bytes)[1]? = none →
    handleRequest bodies (some bytes) = some none

theorem cstring_request (bytes : List UInt8) : cstring (bytes ++ [0]) = some (requestText bytes) := by
  induction bytes with
  | nil => rfl
  | cons c bytes ih =>
    rw [List.cons_append, cstring, ih, requestText, requestText]
    by_cases hc : c = 0
    · rw [if_pos hc, List.takeWhile_cons_of_neg (by simpa using hc)]
    · rw [if_neg hc, List.takeWhile_cons_of_pos (by simpa using hc), Option.map_some]

/-- What is stored are the first two tokens. -/
theorem sscanf_eq (bytes : List UInt8) :
    sscanf (requestText bytes) = ((requestTokens bytes)[0]?, (requestTokens bytes)[1]?) := by
  rw [sscanf, requestTokens, tokens_eq (requestText bytes)]
  cases scanToken isSpace (requestText bytes) with
  | none => rfl
  | some first =>
    obtain ⟨method, rest⟩ := first
    simp only [tokens_eq rest, List.getElem?_cons_zero, List.getElem?_cons_succ]
    cases scanToken isSpace rest with
    | none => rfl
    | some second => rfl

theorem pageFor_uriType (url : List UInt8) : PageFor url (uriType url) := by
  by_cases hroot : url = ascii "/"
  · subst hroot
    exact ⟨by decide, by decide, by decide, by decide⟩
  by_cases hvalues : url = ascii "/values"
  · subst hvalues
    exact ⟨by decide, by decide, by decide, by decide⟩
  by_cases hinfo : url = ascii "/info"
  · subst hinfo
    exact ⟨by decide, by decide, by decide, by decide⟩
  rw [uriType, if_neg hroot, if_neg hvalues, if_neg hinfo]
  exact ⟨iff_of_false (by decide) hvalues, iff_of_false (by decide) hinfo, iff_of_false (by decide) hroot,
    iff_of_true rfl ⟨hvalues, hinfo, hroot⟩⟩

theorem written_le_iff {stored : Option (List UInt8)} {n : ℕ} :
    written stored ≤ n + 1 ↔ ∀ t, stored = some t → t.length ≤ n := by
  cases stored with
  | none => simp [written]
  | some t => simp [written]

/-- For every request: the arrays suffice and the answer is right if and only if the first
token has at most seven bytes and the second at most 127. -/
theorem handles_request_iff (bodies : Bodies) (bytes : List UInt8) :
    HandlesRequest bodies bytes ↔
      (∀ t, (requestTokens bytes)[0]? = some t → t.length ≤ 7) ∧
        ∀ t, (requestTokens bytes)[1]? = some t → t.length ≤ 127 := by
  have hbuffer := cstring_request bytes
  have hstored := sscanf_eq bytes
  constructor
  · rintro ⟨⟨buffer, hbuf, hmethod, hurl⟩, -, -⟩
    cases hbuffer.symm.trans hbuf
    rw [hstored] at hmethod hurl
    exact ⟨written_le_iff.mp hmethod, written_le_iff.mp hurl⟩
  · rintro ⟨hmethod, hurl⟩
    have hmethod' : written (requestTokens bytes)[0]? ≤ methodSize := written_le_iff.mpr hmethod
    have hurl' : written (requestTokens bytes)[1]? ≤ urlSize := written_le_iff.mpr hurl
    have hfits : ¬(written (requestTokens bytes)[0]? > methodSize ∨ written (requestTokens bytes)[1]? > urlSize) := by
      omega
    have hhandle : handleRequest bodies (some bytes) =
        match ((requestTokens bytes)[0]?, (requestTokens bytes)[1]?) with
        | (some method, some url) =>
          if method ≠ ascii "GET" then some none else some (some (buildPayload bodies (uriType url)))
        | _ => some none := by
      rw [handleRequest, hbuffer, Option.bind_eq_bind, Option.bind_some]
      simp only [hstored, if_neg hfits, Option.pure_def]
    refine ⟨⟨_, hbuffer, by rw [hstored]; exact hmethod', by rw [hstored]; exact hurl'⟩, fun url hget hsome => ?_,
      fun hnot => ?_⟩
    · rw [hhandle, hget, hsome]
      exact ⟨uriType url, rfl, pageFor_uriType url⟩
    · rw [hhandle]
      split
      · next method url heq =>
        obtain ⟨h0, h1⟩ := Prod.mk.inj heq
        rcases hnot with hnot | hnone
        · rw [h0] at hnot
          rw [if_pos fun heq => hnot (by rw [heq])]
        · rw [hnone] at h1
          cases h1
      · rfl

/-- A method of eight letters. -/
theorem not_handles_request : ¬∀ (bodies : Bodies) (bytes : List UInt8), bytes.length ≤ 1023 →
    HandlesRequest bodies bytes := by
  intro h
  obtain ⟨buffer, hbuffer, hmethod, -⟩ := (h ⟨[], []⟩ (ascii "PROPFIND / HTTP/1.1\r\n\r\n") (by decide)).bounds
  have htext : cstring (ascii "PROPFIND / HTTP/1.1\r\n\r\n" ++ [0]) = some (ascii "PROPFIND / HTTP/1.1\r\n\r\n") := by
    decide
  cases htext.symm.trans hbuffer
  exact absurd hmethod (by decide)

end ModbusProxy.Http
