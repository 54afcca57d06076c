import ModbusProxy.Poll.Thread
import ModbusProxy.Wire.Server

/-!
# One connection of the polling thread

`polling_thread` sends the requests of its blocks over one connection, one after the
other, and gives up a request at the first `recv` that times out or returns something
unfit. What the device sends for a request given up stays in the stream, and the next
`recv` finds it. Nothing in a reply is compared with the request but its length and the
top bit of one byte.

## The model

A connection is the client's side, the requests that the device has received and not
yet answered, and the stream of bytes that it has sent and the client has not received,
each tagged with the block whose request it answers. The device answers in order, and
correctly (`DeviceAnswer.Correct`). The events say what happens when; an event that
cannot happen in a state leaves it as it is. The tags and `answers` are for the
statements only: no step of the client depends on them.

## What is proved

A request that comes to an end is one poll of its block (`finish_client`), so whatever
happens, a connection is a pass over the table (`connection_polls`). `attributed_of_current`: in a run in
which no `recv` delivers a chunk that the client accepts and that begins with a byte of
an earlier reply (`Current`), every payload is the data of the device's answer to that
very request, in every state (`Attributed`).
-/

namespace ModbusProxy.Wire

open Memory ModbusProxy.Poll Runs

/-! ### The device -/

/-- What a device answers to a request. -/
inductive DeviceAnswer where
  /-- The registers. -/
  | data (bytes : List UInt8)
  /-- An exception with its code. -/
  | exception (code : UInt8)

/-- A correct answer has the registers that were asked for. -/
def DeviceAnswer.Correct (request : List UInt8) : DeviceAnswer → Prop
  | .data bytes => bytes.length = 2 * (requestFields request).quantity.toNat
  | .exception _ => True

instance (request : List UInt8) : (a : DeviceAnswer) → Decidable (a.Correct request)
  | .data _ => inferInstanceAs (Decidable (_ = _))
  | .exception _ => isTrue trivial

/-- The frame of an answer: the transaction id, the unit and the function are those of
the request. -/
def DeviceAnswer.frame (request : List UInt8) : DeviceAnswer → List UInt8
  | .data bytes =>
    let length := UInt16.ofNat (3 + bytes.length)
    [hi (requestFields request).transactionId, lo (requestFields request).transactionId, 0x00, 0x00, hi length, lo length,
      (requestFields request).unitId, (requestFields request).functionCode, UInt8.ofNat bytes.length] ++ bytes
  | .exception code =>
    [hi (requestFields request).transactionId, lo (requestFields request).transactionId, 0x00, 0x00, 0x00, 0x03,
      (requestFields request).unitId, (requestFields request).functionCode ||| 0x80, code]

/-! ### The connection -/

/-- The count that `polling_thread` passes for a block, as the `uint8_t` that
`modbus_tcp_client_read_raw` takes. -/
def blockCount (b : Block) : UInt8 := b.length.toUInt8

/-- The request that `polling_thread` sends for a block. -/
def blockRequest (b : Block) : List UInt8 := sendRegisterRequest 1 b.address (blockCount b) b.functionCode

/-- A connection of a polling client to its device. -/
structure Connection where
  /-- The polling client. -/
  client : PollingClient
  /-- The index `i` of the loop over the blocks. -/
  next : ℕ
  /-- The request for block `next` was sent, and its `recv` has not returned. -/
  waiting : Bool
  /-- The blocks whose requests the device has not answered, oldest first. -/
  received : List ℕ
  /-- The bytes that no `recv` has returned, with the block whose request they answer. -/
  stream : List (ℕ × UInt8)
  /-- The answer of the device to the request for each block. -/
  answers : ℕ → Option DeviceAnswer
  /-- What `modbus_tcp_client_read_raw` copied for each block for which it returned `MODBUS_OK`. -/
  reads : List (ℕ × List UInt8)

/-- A connection just made. -/
def Connection.start (c : PollingClient) : Connection where
  client := c
  next := 0
  waiting := false
  received := []
  stream := []
  answers := fun _ => none
  reads := []

/-- What happens on a connection. -/
inductive ConnectionEvent where
  /-- The request for the next block is sent. -/
  | send
  /-- The `send` for the next block fails. -/
  | sendFails (mallocOk : Bool)
  /-- The device answers the oldest request that it has received. -/
  | answer (a : DeviceAnswer)
  /-- The `recv` times out. -/
  | timeout (mallocOk : Bool)
  /-- The `recv` returns the first `n` bytes of the stream. -/
  | deliver (n : ℕ) (mallocOk : Bool)

/-- The request for the next block comes to an end: `modbus_tcp_client_read_raw` returns
to `polling_thread`, which goes on to the next block. -/
def Connection.finish (s : Connection) (received : Option (List UInt8)) (mallocOk : Bool) : Connection :=
  let payload := modbusTcpClientReadRaw (blockCount (s.client.table.block s.next)) received
  { s with
    client := pollBlock s.client s.next payload mallocOk
    next := s.next + 1
    waiting := false
    reads := s.reads ++ (payload.map fun d => (s.next, d)).toList }

/-- A `recv` is under way and can return `n` bytes. -/
def Connection.Delivers (s : Connection) (n : ℕ) : Prop :=
  s.waiting = true ∧ 0 < n ∧ n ≤ recvBufferSize ∧ n ≤ s.stream.length

instance (s : Connection) (n : ℕ) : Decidable (s.Delivers n) := inferInstanceAs (Decidable (_ ∧ _))

/-- The connection after an event. -/
def Connection.step (s : Connection) : ConnectionEvent → Connection
  | .send =>
    if s.waiting = false ∧ s.next < s.client.numRegisters then
      { s with waiting := true, received := s.received ++ [s.next] }
    else s
  | .sendFails mallocOk =>
    if s.waiting = false ∧ s.next < s.client.numRegisters then s.finish none mallocOk else s
  | .answer a =>
    match s.received with
    | [] => s
    | i :: rest =>
      let request := blockRequest (s.client.table.block i)
      if a.Correct request then
        { s with
          received := rest
          stream := s.stream ++ (a.frame request).map fun byte => (i, byte)
          answers := Function.update s.answers i (some a) }
      else s
  | .timeout mallocOk => if s.waiting then s.finish none mallocOk else s
  | .deliver n mallocOk =>
    if s.Delivers n then
      { s.finish (some ((s.stream.take n).map Prod.snd)) mallocOk with stream := s.stream.drop n }
    else s

/-! ### Attribution -/

/-- **No reply is attributed to the wrong request.** -/
structure Attributed (s : Connection) : Prop where
  /-- What was read for a block is the data of the device's answer to that request. -/
  replied : ∀ i d, (i, d) ∈ s.reads → s.answers i = some (.data d)
  /-- It is what the cache has for that block, if it has anything. -/
  stored : ∀ i d, (i, d) ∈ s.reads → ∀ buf, (s.client.pollData i).data = some buf → buf = d

/-- A `recv` does not deliver a chunk that the client accepts and that begins with a byte
of the answer to another request. -/
def Current (s : Connection) : ConnectionEvent → Prop
  | .deliver n _ =>
    s.Delivers n → ∀ i byte, s.stream.head? = some (i, byte) →
      Accepts (blockCount (s.client.table.block s.next)) ((s.stream.take n).map Prod.snd) → i = s.next
  | _ => True

instance (s : Connection) : (e : ConnectionEvent) → Decidable (Current s e)
  | .deliver n _ =>
    decidable_of_iff (s.Delivers n → ∀ x ∈ s.stream.head?,
      Accepts (blockCount (s.client.table.block s.next)) ((s.stream.take n).map Prod.snd) → x.1 = s.next)
      ⟨fun h hdel i byte hhead => h hdel (i, byte) hhead, fun h hdel x hx => h hdel x.1 x.2 hx⟩
  | .send => isTrue trivial
  | .sendFails _ => isTrue trivial
  | .answer _ => isTrue trivial
  | .timeout _ => isTrue trivial

/-- The bytes in the stream that answer the request for the next block: all of its
answer, if the device has answered. -/
def Connection.current (s : Connection) : List (ℕ × UInt8) :=
  match s.waiting, s.answers s.next with
  | true, some a => (a.frame (blockRequest (s.client.table.block s.next))).map fun byte => (s.next, byte)
  | _, _ => []

/-- The invariant: a request is answered once and in order, and behind what is left of
earlier answers the stream has the whole answer to the current request. -/
structure Intact (T : RegisterTable) (s : Connection) : Prop where
  /-- The cache is reachable. -/
  client : Reachable T s.client
  /-- While a request is open there is a block for it. -/
  bound : s.waiting = true → s.next < T.size
  /-- No request was sent for a later block. -/
  sent : ∀ i ∈ s.received, i < s.next ∨ s.waiting = true ∧ i = s.next
  /-- The device has the requests in order. -/
  ordered : s.received.Pairwise (· < ·)
  /-- A request is not answered before its turn. -/
  turn : s.waiting = true → s.answers s.next ≠ none → s.received = []
  /-- There are no answers to requests not sent. -/
  later : ∀ i, s.next ≤ i → (i = s.next → s.waiting = false) → s.answers i = none
  /-- The requests received are not answered. -/
  unanswered : ∀ i ∈ s.received, s.answers i = none
  /-- The answers are correct. -/
  correct : ∀ i a, s.answers i = some a → a.Correct (blockRequest (T.block i))
  /-- What was read was read for an earlier block. -/
  past : ∀ i d, (i, d) ∈ s.reads → i < s.next
  /-- The stream. -/
  stream : ∃ stale : List (ℕ × UInt8), (∀ x ∈ stale, x.1 < s.next) ∧ s.stream = stale ++ s.current
  /-- The reads so far. -/
  attributed : Attributed s

theorem Intact.start {T : RegisterTable} {c : PollingClient} (hc : Reachable T c) : Intact T (.start c) where
  client := hc
  bound := fun h => by cases h
  sent := fun _ h => by cases h
  ordered := .nil
  turn := fun h => by cases h
  later := fun _ _ _ => rfl
  unanswered := fun _ h => by cases h
  correct := fun _ _ h => by cases h
  past := fun _ _ h => by cases h
  stream := ⟨[], (fun _ h => by cases h), rfl⟩
  attributed := ⟨(fun _ _ h => by cases h), (fun _ _ h => by cases h)⟩

section Step

variable {T : RegisterTable} {s : Connection}

theorem toNat_blockCount {i : ℕ} (hi : i < T.size) : (blockCount (T.block i)).toNat = (T.block i).length.toNat := by
  have := RegisterTable.length_le hi
  rw [blockCount, UInt16.toNat_toUInt8]
  omega

/-- **A request that comes to an end is one poll of its block.** -/
theorem finish_client (hc : Reachable T s.client) (hnext : s.next < T.size) (received : Option (List UInt8))
    (mallocOk : Bool) :
    ∃ e : PollEvent T, e.block = s.next ∧ e.reply.mallocOk = mallocOk ∧
      e.reply.payload = modbusTcpClientReadRaw (blockCount (T.block s.next)) received ∧
      (s.finish received mallocOk).client = pollStep s.client e := by
  obtain rfl := hc.wellFormed.table
  refine ⟨⟨⟨s.next, hnext⟩, ⟨modbusTcpClientReadRaw (blockCount (s.client.table.block s.next)) received, ?_, mallocOk⟩⟩,
    rfl, rfl, rfl, rfl⟩
  intro p hp
  rw [length_readRaw hp, toNat_blockCount hnext]

theorem finish_reads (hc : Reachable T s.client) {received : Option (List UInt8)} (mallocOk : Bool) {i : ℕ}
    {d : List UInt8} :
    (i, d) ∈ (s.finish received mallocOk).reads ↔ (i, d) ∈ s.reads ∨
      i = s.next ∧ modbusTcpClientReadRaw (blockCount (T.block s.next)) received = some d := by
  simp only [Connection.finish, hc.wellFormed.table, List.mem_append, Option.mem_toList, Option.map_eq_some_iff,
    Prod.mk.injEq]
  constructor
  · rintro (h | ⟨d', h, rfl, rfl⟩)
    · exact .inl h
    · exact .inr ⟨rfl, h⟩
  · rintro (h | ⟨rfl, h⟩)
    · exact .inl h
    · exact .inr ⟨d, h, rfl, rfl⟩

/-- What a store of a payload of the right length leaves, if it leaves anything. -/
theorem store_data {i : ℕ} (hi : i < T.size) {e : PollData} {d buf : List UInt8} {ok : Bool}
    (hd : d.length = 2 * (T.block i).length.toNat) (hbuf : (e.store d (byteLength (T.block i)) ok).data = some buf) :
    buf = d := by
  unfold PollData.store at hbuf
  cases ok with
  | false => cases hbuf
  | true =>
    simp only [if_true, Option.some.injEq] at hbuf
    rw [← hbuf, toNat_byteLength hi, ← hd, List.take_length]

/-- What the end of a request adds to the reads and to the cache. -/
theorem Intact.attributed_finish (h : Intact T s) (hnext : s.next < T.size) {received : Option (List UInt8)}
    (mallocOk : Bool)
    (hgood : ∀ d, modbusTcpClientReadRaw (blockCount (T.block s.next)) received = some d →
      s.answers s.next = some (.data d)) : Attributed (s.finish received mallocOk) := by
  obtain ⟨e, hblock, -, hpayload, hclient⟩ := finish_client h.client hnext received mallocOk
  constructor
  · intro i d hd
    rcases (finish_reads h.client mallocOk).mp hd with hold | ⟨rfl, hread⟩
    · exact h.attributed.replied i d hold
    · exact hgood d hread
  · intro i d hd buf hbuf
    rw [hclient] at hbuf
    rcases (finish_reads h.client mallocOk).mp hd with hold | ⟨rfl, hread⟩
    · have hne : i ≠ e.block := by
        have := h.past i d hold
        omega
      have hsame := congrArg BlockState.entry (state_pollStep_of_ne h.client.wellFormed.table e hne)
      simp only [PollingClient.state] at hsame
      rw [hsame] at hbuf
      exact h.attributed.stored i d hold buf hbuf
    · rw [← hpayload] at hread
      have hentry := congrArg BlockState.entry (state_pollStep h.client.wellFormed.table e)
      rw [blockStep_some hread] at hentry
      simp only [PollingClient.state, hblock] at hentry
      rw [hentry] at hbuf
      have hsized := e.reply.sized d hread
      rw [hblock] at hsized
      exact store_data hnext hsized hbuf

/-- The state after a request has come to an end, with what is left of the stream. -/
theorem Intact.finish (h : Intact T s) (hnext : s.next < T.size) (received : Option (List UInt8)) (mallocOk : Bool)
    (hgood : ∀ d, modbusTcpClientReadRaw (blockCount (T.block s.next)) received = some d →
      s.answers s.next = some (.data d)) {left : List (ℕ × UInt8)} (hleft : ∀ x ∈ left, x.1 ≤ s.next) :
    Intact T { s.finish received mallocOk with stream := left } := by
  have hattr := h.attributed_finish hnext mallocOk hgood
  obtain ⟨e, -, -, -, hclient⟩ := finish_client h.client hnext received mallocOk
  constructor
  · rw [hclient]
    exact h.client.poll e
  · exact fun hw => by cases hw
  · intro i hi
    have := h.sent i hi
    simp only [Connection.finish]
    omega
  · exact h.ordered
  · exact fun hw => by cases hw
  · intro i hi _
    simp only [Connection.finish] at hi
    exact h.later i (by omega) (by omega)
  · exact h.unanswered
  · exact h.correct
  · intro i d hd
    rcases (finish_reads h.client mallocOk).mp hd with hold | ⟨rfl, -⟩
    · exact Nat.lt_succ_of_lt (h.past i d hold)
    · exact Nat.lt_succ_self _
  · refine ⟨left, fun x hx => Nat.lt_succ_of_le (hleft x hx), ?_⟩
    simp [Connection.current, Connection.finish]
  · exact ⟨hattr.replied, hattr.stored⟩

/-! ### What the events do -/

theorem current_of_idle (hw : s.waiting = false) : s.current = [] := by
  rw [Connection.current, hw]

theorem current_of_unanswered (ha : s.answers s.next = none) : s.current = [] := by
  rw [Connection.current, ha]
  cases s.waiting <;> rfl

theorem current_of_answered {a : DeviceAnswer} (hw : s.waiting = true) (ha : s.answers s.next = some a) :
    s.current = (a.frame (blockRequest (s.client.table.block s.next))).map fun byte => (s.next, byte) := by
  rw [Connection.current, hw, ha]

/-- The open request has been answered. -/
theorem current_answer_self {rest : List ℕ} {stream : List (ℕ × UInt8)} {a : DeviceAnswer} (hw : s.waiting = true) :
    Connection.current { s with
      received := rest, stream := stream, answers := Function.update s.answers s.next (some a) } =
      (a.frame (blockRequest (s.client.table.block s.next))).map fun byte => (s.next, byte) := by
  simp [Connection.current, hw]

/-- Another request has been answered. -/
theorem current_answer_of_ne {rest : List ℕ} {stream : List (ℕ × UInt8)} {a : DeviceAnswer} {i : ℕ}
    (hi : s.next ≠ i) :
    Connection.current { s with
      received := rest, stream := stream, answers := Function.update s.answers i (some a) } = s.current := by
  simp [Connection.current, Function.update_of_ne hi]

theorem Connection.current_tag {x : ℕ × UInt8} (hx : x ∈ s.current) : x.1 = s.next := by
  cases hw : s.waiting with
  | false =>
    rw [current_of_idle hw] at hx
    cases hx
  | true =>
    cases ha : s.answers s.next with
    | none =>
      rw [current_of_unanswered ha] at hx
      cases hx
    | some a =>
      rw [current_of_answered hw ha, List.mem_map] at hx
      obtain ⟨byte, -, rfl⟩ := hx
      rfl

/-- Nothing in the stream answers a later request. -/
theorem Intact.stream_le (h : Intact T s) {x : ℕ × UInt8} (hx : x ∈ s.stream) : x.1 ≤ s.next := by
  obtain ⟨stale, hstale, heq⟩ := h.stream
  rw [heq, List.mem_append] at hx
  rcases hx with hx | hx
  · exact Nat.le_of_lt (hstale x hx)
  · exact Nat.le_of_eq (Connection.current_tag hx)

theorem Intact.send (h : Intact T s) (hw : s.waiting = false) (hnext : s.next < T.size) :
    Intact T { s with waiting := true, received := s.received ++ [s.next] } := by
  have hlt : ∀ i ∈ s.received, i < s.next := by
    intro i hi
    have := h.sent i hi
    rw [hw] at this
    simpa using this
  have hnone := h.later s.next (Nat.le_refl _) fun _ => hw
  constructor
  · exact h.client
  · exact fun _ => hnext
  · intro i hi
    rcases List.mem_append.mp hi with hi | hi
    · exact .inl (hlt i hi)
    · exact .inr ⟨rfl, List.mem_singleton.mp hi⟩
  · rw [List.pairwise_append]
    refine ⟨h.ordered, List.pairwise_singleton .., fun i hi j hj => ?_⟩
    rw [List.mem_singleton.mp hj]
    exact hlt i hi
  · exact fun _ hne => absurd hnone hne
  · intro i hi hne
    exact h.later i hi fun _ => hw
  · intro i hi
    rcases List.mem_append.mp hi with hi | hi
    · exact h.unanswered i hi
    · rw [List.mem_singleton.mp hi]
      exact hnone
  · exact h.correct
  · exact h.past
  · obtain ⟨stale, hstale, heq⟩ := h.stream
    refine ⟨stale, hstale, ?_⟩
    rw [current_of_unanswered (s := { s with waiting := true, received := s.received ++ [s.next] }) hnone]
    rwa [current_of_idle hw] at heq
  · exact ⟨h.attributed.replied, h.attributed.stored⟩

/-- While the device has requests to answer, the open one among them is not answered. -/
theorem Intact.open_unanswered (h : Intact T s) (hreceived : s.received ≠ []) (hw : s.waiting = true) :
    s.answers s.next = none :=
  by_contra fun hne => hreceived (h.turn hw hne)

theorem Intact.current_nil (h : Intact T s) (hreceived : s.received ≠ []) : s.current = [] := by
  cases hw : s.waiting with
  | false => exact current_of_idle hw
  | true => exact current_of_unanswered (h.open_unanswered hreceived hw)

theorem Attributed.answer (h : Attributed s) {i : ℕ} (hnone : s.answers i = none) (rest : List ℕ)
    (stream : List (ℕ × UInt8)) (a : DeviceAnswer) :
    Attributed { s with received := rest, stream := stream, answers := Function.update s.answers i (some a) } := by
  refine ⟨fun j d hd => ?_, h.stored⟩
  have hreplied := h.replied j d hd
  have hji : j ≠ i := by
    rintro rfl
    rw [hnone] at hreplied
    cases hreplied
  simpa only [Function.update_of_ne hji] using hreplied

/-- The answer is the current one, or adds to what is left of earlier ones. -/
theorem Intact.stream_answer (h : Intact T s) {i : ℕ} (hi : i ∈ s.received) (rest : List ℕ) (a : DeviceAnswer) :
    ∃ stale : List (ℕ × UInt8), (∀ x ∈ stale, x.1 < s.next) ∧
      (s.stream ++ (a.frame (blockRequest (T.block i))).map fun byte => (i, byte)) =
        stale ++ Connection.current { s with
          received := rest
          stream := s.stream ++ (a.frame (blockRequest (T.block i))).map fun byte => (i, byte)
          answers := Function.update s.answers i (some a) } := by
  obtain ⟨stale, hstale, heq⟩ := h.stream
  have hcur := h.current_nil (List.ne_nil_of_mem hi)
  rw [hcur, List.append_nil] at heq
  rcases h.sent i hi with hlt | ⟨hw, rfl⟩
  -- a late answer: the open request, if there is one, is still unanswered
  · refine ⟨stale ++ (a.frame (blockRequest (T.block i))).map fun byte => (i, byte), ?_, ?_⟩
    · intro x hx
      rcases List.mem_append.mp hx with hx | hx
      · exact hstale x hx
      · obtain ⟨byte, -, rfl⟩ := List.mem_map.mp hx
        exact hlt
    · rw [heq, current_answer_of_ne (Nat.ne_of_gt hlt), hcur, List.append_nil]
  · refine ⟨stale, hstale, ?_⟩
    rw [heq, current_answer_self hw, h.client.wellFormed.table]

theorem Intact.answer (h : Intact T s) {i : ℕ} {rest : List ℕ} (hreceived : s.received = i :: rest) {a : DeviceAnswer}
    (ha : a.Correct (blockRequest (T.block i))) :
    Intact T { s with
      received := rest
      stream := s.stream ++ (a.frame (blockRequest (T.block i))).map fun byte => (i, byte)
      answers := Function.update s.answers i (some a) } := by
  have hi : i ∈ s.received := by rw [hreceived]; exact List.mem_cons_self ..
  have hrest : ∀ j ∈ rest, j ∈ s.received := fun j hj => by rw [hreceived]; exact List.mem_cons_of_mem _ hj
  have hordered := h.ordered
  rw [hreceived, List.pairwise_cons] at hordered
  constructor
  · exact h.client
  · exact h.bound
  · exact fun j hj => h.sent j (hrest j hj)
  · exact hordered.2
  · intro hw hne
    by_cases hin : i = s.next
    -- the request of the open block is the last one received
    · rw [List.eq_nil_iff_forall_not_mem]
      intro j hj
      have := hordered.1 j hj
      have := h.sent j (hrest j hj)
      omega
    · simp only [Function.update_of_ne (Ne.symm hin)] at hne
      exact absurd (h.open_unanswered (List.ne_nil_of_mem hi) hw) hne
  · intro j hj hidle
    have hji : j ≠ i := by
      rintro rfl
      rcases h.sent j hi with hlt | ⟨hw, heq⟩
      · simp only at hj
        omega
      · rw [hidle heq] at hw
        cases hw
    simp only [Function.update_of_ne hji]
    exact h.later j hj hidle
  · intro j hj
    have := hordered.1 j hj
    simp only [Function.update_of_ne (show j ≠ i by omega)]
    exact h.unanswered j (hrest j hj)
  · intro j b hb
    by_cases hji : j = i
    · subst hji
      simp only [Function.update_self, Option.some.injEq] at hb
      rwa [← hb]
    · simp only [Function.update_of_ne hji] at hb
      exact h.correct j b hb
  · exact h.past
  · exact h.stream_answer hi rest a
  · exact h.attributed.answer (h.unanswered i hi) ..

/-- The length of a correct answer with data. -/
theorem length_frame_data {i : ℕ} {bytes : List UInt8}
    (hc : (DeviceAnswer.data bytes).Correct (blockRequest (T.block i))) :
    ((DeviceAnswer.data bytes).frame (blockRequest (T.block i))).length =
      minResponseMsgLength + 2 * (blockCount (T.block i)).toNat := by
  have hquantity : (requestFields (blockRequest (T.block i))).quantity = (blockCount (T.block i)).toUInt16 := by
    rw [blockRequest, sendRegisterRequest, requestFields_build]
  rw [DeviceAnswer.Correct, hquantity, UInt8.toNat_toUInt16] at hc
  have hmin : minResponseMsgLength = 9 := rfl
  simp only [DeviceAnswer.frame, List.length_append, List.length_cons, List.length_nil]
  omega

/-- A `recv` that finds the answer to its own request first: what the client accepts is
the whole answer, and what it copies is its data. -/
theorem Intact.deliver_good (h : Intact T s) {n : ℕ} (hdel : s.Delivers n) {ok : Bool} (he : Current s (.deliver n ok))
    {d : List UInt8}
    (hd : modbusTcpClientReadRaw (blockCount (T.block s.next)) (some ((s.stream.take n).map Prod.snd)) = some d) :
    s.answers s.next = some (.data d) := by
  obtain ⟨hw, hn, -, hle⟩ := id hdel
  have hnext := h.bound hw
  obtain ⟨hacc, rfl⟩ := readRaw_eq_some_iff.mp hd
  obtain ⟨stale, hstale, heq⟩ := h.stream
  -- nothing of an earlier answer is left
  have hnil : stale = [] := by
    cases stale with
    | nil => rfl
    | cons x xs =>
      have hx := he hdel x.1 x.2 (by rw [heq]; rfl) (by rwa [h.client.wellFormed.table])
      have := hstale x (List.mem_cons_self ..)
      omega
  rw [hnil, List.nil_append] at heq
  cases ha : s.answers s.next with
  | none =>
    rw [current_of_unanswered ha] at heq
    rw [heq, List.length_nil] at hle
    omega
  | some a =>
    rw [current_of_answered hw ha, h.client.wellFormed.table] at heq
    have hchunk : (s.stream.take n).map Prod.snd = (a.frame (blockRequest (T.block s.next))).take n := by
      rw [heq, List.map_take, List.map_map]
      exact congrArg (List.take n) (List.map_id _)
    rw [hchunk] at hacc ⊢
    have hlen := hacc.1
    have hpos := RegisterTable.length_pos hnext
    rw [List.length_take, toNat_blockCount hnext] at hlen
    have hmin : minResponseMsgLength = 9 := rfl
    cases a with
    | exception code =>
      simp only [DeviceAnswer.frame, List.length_cons, List.length_nil] at hlen
      omega
    | data bytes =>
      have hfull := length_frame_data (h.correct s.next _ ha)
      rw [toNat_blockCount hnext] at hfull
      rw [List.take_of_length_le (by omega)]
      rfl

/-- The invariant is kept by every event that meets the condition. -/
theorem Intact.step (h : Intact T s) (e : ConnectionEvent) (he : Current s e) : Intact T (s.step e) := by
  have htable : s.client.table = T := h.client.wellFormed.table
  cases e with
  | send =>
    simp only [Connection.step]
    split
    · rename_i hsend
      rw [PollingClient.numRegisters, htable] at hsend
      exact h.send hsend.1 hsend.2
    · exact h
  | sendFails mallocOk =>
    simp only [Connection.step]
    split
    · rename_i hsend
      rw [PollingClient.numRegisters, htable] at hsend
      exact h.finish hsend.2 none mallocOk (fun d hd => by cases hd) fun x hx => h.stream_le hx
    · exact h
  | answer a =>
    simp only [Connection.step]
    split
    · exact h
    · rename_i i rest hreceived
      simp only [htable]
      split
      · rename_i ha
        exact h.answer hreceived ha
      · exact h
  | timeout mallocOk =>
    simp only [Connection.step]
    split
    · rename_i hw
      exact h.finish (h.bound hw) none mallocOk (fun d hd => by cases hd) fun x hx => h.stream_le hx
    · exact h
  | deliver n mallocOk =>
    simp only [Connection.step]
    split
    · rename_i hdel
      exact h.finish (h.bound hdel.1) _ mallocOk (fun d hd => h.deliver_good hdel he hd)
        fun x hx => h.stream_le (List.mem_of_mem_drop hx)
    · exact h

end Step

/-! ### A connection is a pass over the table -/

/-- The client is where the polls of the blocks before the next one take it, one poll each. -/
structure Pass (T : RegisterTable) (c : PollingClient) (s : Connection) : Prop where
  /-- While a request is open there is a block for it. -/
  bound : s.waiting = true → s.next < T.size
  /-- The polls so far. -/
  polls : ∃ polls : List (PollEvent T), s.client = run pollStep c polls ∧
    polls.map (fun e => e.block.val) = List.range s.next

theorem Pass.finish {T : RegisterTable} {c : PollingClient} (hc : Reachable T c) {s : Connection} (h : Pass T c s)
    (hnext : s.next < T.size) (received : Option (List UInt8)) (mallocOk : Bool) (left : List (ℕ × UInt8)) :
    Pass T c { s.finish received mallocOk with stream := left } := by
  obtain ⟨polls, hpolls, hblocks⟩ := h.polls
  obtain ⟨e, hblock, -, -, hclient⟩ := finish_client (hpolls ▸ hc.polls polls) hnext received mallocOk
  refine ⟨fun hw => (by cases hw), polls ++ [e], ?_, ?_⟩
  · rw [run_concat, ← hpolls]
    exact hclient
  · rw [List.map_append, hblocks, List.map_singleton, hblock]
    exact List.range_succ.symm

theorem Pass.step {T : RegisterTable} {c : PollingClient} (hc : Reachable T c) {s : Connection} (h : Pass T c s)
    (e : ConnectionEvent) : Pass T c (s.step e) := by
  have htable : s.client.table = T := by
    obtain ⟨polls, hpolls, -⟩ := h.polls
    rw [hpolls]
    exact (hc.polls polls).wellFormed.table
  cases e with
  | send =>
    simp only [Connection.step]
    split
    · rename_i hsend
      rw [PollingClient.numRegisters, htable] at hsend
      exact ⟨fun _ => hsend.2, h.polls⟩
    · exact h
  | sendFails mallocOk =>
    simp only [Connection.step]
    split
    · rename_i hsend
      rw [PollingClient.numRegisters, htable] at hsend
      exact h.finish hc hsend.2 none mallocOk s.stream
    · exact h
  | answer a =>
    simp only [Connection.step]
    split
    · exact h
    · split
      · exact ⟨h.bound, h.polls⟩
      · exact h
  | timeout mallocOk =>
    simp only [Connection.step]
    split
    · rename_i hw
      exact h.finish hc (h.bound hw) none mallocOk s.stream
    · exact h
  | deliver n mallocOk =>
    simp only [Connection.step]
    split
    · rename_i hdel
      exact h.finish hc (h.bound hdel.1) _ mallocOk _
    · exact h

/-- Whatever happens on a connection, its blocks are polled one after the other, once each. -/
theorem connection_polls (T : RegisterTable) {c : PollingClient} (hc : Reachable T c) (evs : List ConnectionEvent) :
    let s := run Connection.step (.start c) evs
    ∃ polls : List (PollEvent T), s.client = run pollStep c polls ∧
      polls.map (fun e => e.block.val) = List.range s.next :=
  (run_invariant (I := Pass T c) (fun _ e h => h.step hc e)
    ⟨(fun hw => by cases hw), [], rfl, rfl⟩ evs).polls

/-! ### The attribution law -/

/-- **Attribution.** In every run of a connection in which no accepted chunk begins with a
byte of another request's answer, no reply is attributed to the wrong request, in any state. -/
theorem attributed_of_current (T : RegisterTable) (c : PollingClient) (hc : Reachable T c)
    (evs : List ConnectionEvent) (hcurrent : Guarded Connection.step Current (.start c) evs) :
    Throughout Connection.step Attributed (.start c) evs :=
  throughout_of_guarded (I := Intact T) (fun _ h => h.attributed) (fun _ e h he => h.step e he) (.start hc) hcurrent

/-- The answer to the request for block 1, which timed out, comes late. Block 6 receives it
together with its own and accepts neither. What block 7 accepts is its own answer. -/
theorem attributed_after_timeout :
    let evs : List ConnectionEvent := [.sendFails true, .send, .timeout true, .sendFails true, .sendFails true,
      .sendFails true, .sendFails true, .answer (.data [0, 1, 0, 2, 0, 3, 0, 4]), .send, .answer (.data [0, 5]),
      .deliver 28 true, .send, .answer (.data [0, 6, 0, 7, 0, 8, 0, 9]), .deliver 17 true]
    Throughout Connection.step Attributed (.start (.fresh huaweiRegisters fun _ => 0)) evs ∧
      (run Connection.step (.start (.fresh huaweiRegisters fun _ => 0)) evs).reads = [(7, [0, 6, 0, 7, 0, 8, 0, 9])] := by
  intro evs
  have hcurrent : Guarded Connection.step Current (.start (.fresh huaweiRegisters fun _ => 0)) evs := by decide +kernel
  exact ⟨attributed_of_current huaweiRegisters _ (.start _) evs hcurrent, by decide +kernel⟩

/-- A reply of 59 bytes that arrives as 42 and 17: its tail is taken for the reply to the
next request, which the device has not even answered. -/
theorem tail_taken_for_reply :
    ¬ ∀ (T : RegisterTable) (c : PollingClient), Reachable T c → ∀ evs : List ConnectionEvent,
      Throughout Connection.step Attributed (.start c) evs := by
  intro h
  have hlast := (h huaweiRegisters _ (.start fun _ => 0)
    [.send, .answer (.data (List.replicate 50 0)), .deliver 42 true, .send, .deliver 17 true]).last
  have hreplied := hlast.replied 1 (List.replicate 8 0) (by decide)
  cases hreplied

end ModbusProxy.Wire
