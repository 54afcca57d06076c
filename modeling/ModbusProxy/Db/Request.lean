import ModbusProxy.Library.HttpMessage
import ModbusProxy.Logger.Delivery
import ModbusProxy.Logger.Text

/-!
# The request to the database

`db_handler_send_solar_values` prints the data that the logger hands to it into one request,
with its length in a header, on a connection of its own.

## The model

A record is printed as its text, and the data of a request is that of its records, one after
the other. The length is the one that `asprintf` has returned for them.

## What is proved

A server that reads the requests which it acknowledges, by the length in the header and as
lines of points, gets the samples that were posted, in their order and none twice, whatever
else happens in a run of the logger (`delivered_points`).
-/

namespace ModbusProxy.Db

open AckQueue CString Decimal HttpMessage LineProtocol Logger

/-! ### Requests -/

/-- `BUCKET`. -/
def bucket : List UInt8 := ascii "solarlogging"

/-- `ORG`. -/
def org : List UInt8 := ascii "kloibi"

/-- `INFLUXDB_HOST`. -/
def influxdbHost : List UInt8 := ascii "192.168.8.90"

/-- `INFLUXDB_PORT`. -/
def influxdbPort : ℕ := 8086

/-- `TOKEN`. -/
def token : List UInt8 :=
  ascii "okXO2ONiJFr0jJyCq-YkY52OXsg5bFjSDlg9UHj-KMUjtkrakaHmp1y9N20bf4z3VrDRAe0txNOYDiej9K2Eig=="

/-- What `asprintf` prints as the request. -/
def requestText (formattedValues : List UInt8) (formattedValuesLen : ℕ) : List UInt8 :=
  ascii "POST /api/v2/write?bucket=" ++ bucket ++ ascii "&org=" ++ org ++ ascii " HTTP/1.1\r\nHost: " ++ influxdbHost ++
    ascii ":" ++ natural influxdbPort ++ ascii "\r\nAuthorization: Token " ++ token ++
    ascii "\r\nContent-Type: text/plain\r\nContent-Length: " ++ natural formattedValuesLen ++ ascii "\r\n\r\n" ++
    formattedValues

/-- The message of a request. -/
def requestMessage (formattedValues : List UInt8) : Message where
  start := ascii "POST /api/v2/write?bucket=" ++ bucket ++ ascii "&org=" ++ org ++ ascii " HTTP/1.1"
  headers := [(ascii "Host", influxdbHost ++ ascii ":" ++ natural influxdbPort),
    (ascii "Authorization", ascii "Token " ++ token), (ascii "Content-Type", ascii "text/plain"),
    (ascii "Content-Length", natural formattedValues.length)]
  body := formattedValues

theorem requestText_eq (formattedValues : List UInt8) :
    requestText formattedValues formattedValues.length = (requestMessage formattedValues).text := by
  have hsplit : ascii " HTTP/1.1\r\nHost: " = ascii " HTTP/1.1" ++ [13, 10] ++ ascii "Host" ++ [58, 32] ∧
      ascii "\r\nAuthorization: Token " = [13, 10] ++ ascii "Authorization" ++ [58, 32] ++ ascii "Token " ∧
      ascii "\r\nContent-Type: text/plain\r\nContent-Length: " = [13, 10] ++ ascii "Content-Type" ++ [58, 32] ++
        ascii "text/plain" ++ [13, 10] ++ ascii "Content-Length" ++ [58, 32] ∧
      ascii "\r\n\r\n" = [13, 10, 13, 10] := by decide +kernel
  obtain ⟨hhost, htoken, hlength, hend⟩ := hsplit
  rw [requestText, requestMessage, Message.text, hhost, htoken, hlength, hend]
  simp only [linesText, headerText, List.map_cons, List.map_nil, List.cons_append, List.nil_append, List.flatMap_cons,
    List.flatMap_nil, List.append_assoc]

theorem requestMessage_wellFormed (formattedValues : List UInt8) : (requestMessage formattedValues).WellFormed where
  start := by
    have hstart : 13 ∉ (requestMessage []).start := by decide +kernel
    exact hstart
  headers := by
    have hfixed : ∀ h ∈ (requestMessage []).headers.take 3, (13 ∉ h.1 ∧ 58 ∉ h.1) ∧ 13 ∉ h.2 := by decide +kernel
    have hname : 13 ∉ ascii "Content-Length" ∧ 58 ∉ ascii "Content-Length" := by decide +kernel
    have hvalue : 13 ∉ natural formattedValues.length := fun h => absurd (isDigit_natural _ 13 h) (by decide)
    rw [← List.take_append_drop 3 (requestMessage formattedValues).headers]
    exact List.forall_mem_append.mpr ⟨hfixed, List.forall_mem_singleton.mpr ⟨hname, hvalue⟩⟩
  length := bodyLength_eq rfl

/-- The request reads as what was printed into it. -/
theorem readMessage_requestText (formattedValues : List UInt8) :
    readMessage (requestText formattedValues formattedValues.length) = some (requestMessage formattedValues, []) := by
  have h := readMessage_text (requestMessage_wellFormed formattedValues) []
  rwa [List.append_nil, ← requestText_eq] at h

/-! ### The data of a request -/

/-- The point of a record, whose last number is the timestamp. -/
def recordPointOf (r : Record) : Point where
  measurement := ascii "power_data"
  tags := [(ascii "source", ascii "grid")]
  fields := r.dropLast.map fun f => (ascii f.1, f.2.text)
  timestamp := (r.getLast?.elim [] fun f => f.2.text) ++ ascii "000000000"

/-- The text of a record, which an entry of `data_strings` points at. -/
def recordLine (r : Record) : List UInt8 := (recordPointOf r).text ++ [10]

/-- `data`. -/
def requestData (r : Logger.Request) : List UInt8 := r.records.flatMap recordLine

/-- The bytes of a request of the logger. -/
def requestBytes (r : Logger.Request) : List UInt8 := requestText (requestData r) (requestData r).length

theorem recordPointOf_formatRecord (v : CachedSolarValues) : recordPointOf (formatRecord v) = recordPoint v := by
  have hfields : recordFields = lineFields ++ [.ts] := by decide
  have hrecord : formatRecord v = (lineFields.map fun f => (f.name, v.print f)) ++ [(Field.ts.name, v.print .ts)] := by
    rw [formatRecord, hfields, List.map_append, List.map_singleton]
  rw [recordPointOf, hrecord, List.dropLast_concat, List.getLast?_concat, List.map_map, recordPoint]
  have htext (f : Field) : (v.print f).text = (v.argument f).text := (prints v f).text_eq.symm
  simp only [Function.comp_def, htext, Option.elim_some]

/-- The entry is what the format prints of the slot. -/
theorem recordLine_formatRecord (v : CachedSolarValues) : recordLine (formatRecord v) = recordText v := by
  rw [recordLine, recordPointOf_formatRecord, recordText_eq, pointsText, List.flatMap_singleton]

/-! ### What the database gets -/

/-- The points that a server reads from the bytes of a request. -/
def serverPoints (bytes : List UInt8) : Option (List Point) := do
  let message ← readMessage bytes
  readPoints message.1.body

/-- A request of records of slots reads as their points. -/
theorem serverPoints_requestBytes {r : Logger.Request} (hr : ∀ record ∈ r.records, ∃ v, record = formatRecord v) :
    serverPoints (requestBytes r) = some (r.records.map recordPointOf) := by
  have hdata : requestData r = pointsText (r.records.map recordPointOf) := by
    rw [pointsText, List.flatMap_map]
    rfl
  have hplain : ∀ p ∈ r.records.map recordPointOf, p.IsPlain := by
    intro p hp
    obtain ⟨record, hrecord, rfl⟩ := List.mem_map.mp hp
    obtain ⟨v, rfl⟩ := hr record hrecord
    rw [recordPointOf_formatRecord]
    exact recordPoint_isPlain v
  rw [serverPoints, requestBytes, readMessage_requestText, Option.bind_eq_bind, Option.bind_some]
  change readPoints (requestData r) = _
  rw [hdata, readPoints_text hplain]

/-- **The database gets the samples.** Whatever is posted, answered and measured in a run of
the logger, the requests that the database acknowledges are messages which read, one after
the other, as the points of samples that were posted, in their order and none twice. -/
theorem delivered_points (start : Start) (garbage : ℕ → CachedSolarValues) (calls : List Call) :
    ∃ h, history (start.init garbage) calls = some h ∧
      List.Forall₂ (fun c v => ∃ slot, v = updateCachedValue slot c.sample)
        (calls.filter fun c => decide c.Stores) h.posted ∧
      ∃ (sent : List (Fin h.posted.length)) (received : List (List Point)), sent.Pairwise (· < ·) ∧
        (h.requests.filter Request.ok).mapM (fun r => serverPoints (requestBytes r)) = some received ∧
        received.flatten = sent.map fun i => recordPoint (h.posted.get i) := by
  obtain ⟨q, h, hrun, hd⟩ := history_delivered start garbage calls
  have hold : ∀ i ∈ q.sent, i < h.posted.length := fun i hi => by
    rw [hd.represents.length_eq]
    exact Nat.lt_of_lt_of_le (hd.represents.ordered.old i hi) hd.represents.ordered.head_le
  have hslots : ∀ r ∈ h.requests.filter Request.ok, ∀ record ∈ r.records, ∃ v, record = formatRecord v := by
    intro r hr record hrecord
    have hmem : record ∈ acknowledged h.requests := List.mem_flatMap.mpr ⟨r, hr, hrecord⟩
    rw [hd.sent] at hmem
    obtain ⟨i, -, rfl⟩ := List.mem_map.mp hmem
    exact ⟨_, rfl⟩
  refine ⟨h, hrun, hd.posted, q.sent.pmap Fin.mk hold,
    (h.requests.filter Request.ok).map fun r => r.records.map recordPointOf, ?_, ?_, ?_⟩
  · exact hd.represents.ordered.sorted.pmap hold fun i hi j hj hlt => hlt
  · exact mapM_eq_map fun r hr => serverPoints_requestBytes (hslots r hr)
  · -- the records of all requests, one after the other
    have hflat : ((h.requests.filter Request.ok).map fun r => r.records.map recordPointOf).flatten =
        (acknowledged h.requests).map recordPointOf := by
      rw [acknowledged, List.map_flatMap, List.flatMap_def]
    rw [hflat, hd.sent, List.map_map, List.map_pmap, ← List.pmap_eq_map hold]
    refine List.pmap_congr_left _ fun i hi hlt _ => ?_
    rw [Function.comp_apply, recordPointOf_formatRecord, item_eq_get hlt]

end ModbusProxy.Db
