import ModbusProxy.Process.ModbusServer
import ModbusProxy.Process.Polling
import ModbusProxy.Process.WebServer

/-!
# The threads of the process

`main` starts the Modbus server, the polling threads and the web server, and they start
threads for their clients.

## The model

The threads take steps in any order, and the calls return anything that they may return
while no service is being stopped. What `main` does from its event loop on is left out.

## What is proved

In every state that the threads reach, each call names descriptors and memory that are open
and that no other thread has, and all that is open belongs to one thread (`handles_apart`).
What a polling thread has in its cache is what the polls have left that it has made
(`polling_thread_cache`), and what a client's thread of the Modbus server has written are the
answers to what it has read (`client_thread_serves`).
-/

namespace ModbusProxy.Process

open Calls Outcomes Poll Runs Threads

/-- `main`, up to its event loop. -/
def main : Sys (Option Place) := do
  modbusTcpServerStart 5502
  let numClients ← modbusTcpPollStartClient 0 .huawei "192.168.8.85" 502
  let numClients ← modbusTcpPollStartClient numClients .nrgkick "192.168.8.95" 502
  let _ ← modbusTcpPollStartClient numClients .canEz3 "192.168.8.81" 502
  httpServerStart
  return none

/-- A round from a place on. -/
def round : Place → Sys (Option Place)
  | .main => main
  | .modbusServer arg _ => modbusTcpServerThread arg
  | .modbusAccept serverFd => modbusAccept serverFd
  | .modbusClient client clientFd lastActivity => clientThread client clientFd lastActivity
  | .httpAccept serverSock => httpServerLoop serverSock
  | .httpRequest arg clientSock => do
    handleRequest arg clientSock
    return none
  | .pollingThread type host port connectionDelayS registers =>
    return some (.polling ⟨type, host, port, connectionDelayS, .fresh registers fun _ => 0⟩)
  | .polling p => pollingThread p
  | .posting p startTime => posting p startTime

/-- Where a thread begins that a call starts. -/
def starts : (op : SysCall) → op.Ret → Option Place
  | .pthreadCreate place, true => some place
  | _, _ => none

/-- The code of the process. -/
def code : Code SysCall SysCall.Ret Handle Place where
  rules := rules false
  round := round
  starts := starts

/-- The process as it begins. -/
def beginning : State SysCall SysCall.Ret Handle Place := .initial code Place.holds .main

theorem inRounds_of_reaches {s : State SysCall SysCall.Ret Handle Place} (h : Reaches code beginning s) {i : ℕ}
    {t : Thread SysCall SysCall.Ret Handle Place} (hi : s.threads i = some t) : t.InRounds code :=
  reachable_inRounds h (initial_inRounds Place.main) i t hi

/-! ### Some steps -/

section Steps

variable {s : State SysCall SysCall.Ret Handle Place} {i : ℕ} {t : Thread SysCall SysCall.Ret Handle Place} {op : SysCall}
  {next : op.Ret → Sys (Option Place)}

/-- For a call that returns no handle. -/
theorem nothing_new {A : Set Handle} : ∀ x ∈ (∅ : Set Handle), x ∉ A := fun x hx => absurd hx (Set.notMem_empty x)

/-- A thread makes a call. -/
theorem reaches_call (h : Reaches code beginning s) (hi : s.threads i = some t) (hrest : t.rest = .call op next) (r : op.Ret)
    (hr : returns false op r) (hnew : ∀ x ∈ opens op r, x ∉ s.live) (hstarts : starts op r = none) :
    Reaches code beginning ⟨Function.update s.threads i (some (t.called (rules false) op r (next r))),
      liveAfter (rules false) op r s.live⟩ :=
  h.tail (.call hi hrest r hr hnew hstarts)

/-- A thread starts another. -/
theorem reaches_start {j : ℕ} (h : Reaches code beginning s) (hi : s.threads i = some t) (hrest : t.rest = .call op next)
    (r : op.Ret) (hr : returns false op r) (hnew : ∀ x ∈ opens op r, x ∉ s.live) {place : Place}
    (hstarts : starts op r = some place) (hj : s.threads j = none) :
    Reaches code beginning ⟨Function.update (Function.update s.threads i (some (t.called (rules false) op r (next r)))) j
        (some (.begin code place (passes op r))), liveAfter (rules false) op r s.live⟩ :=
  h.tail (.start hi hrest r hr hnew hstarts hj)

/-- A thread begins its next round. -/
theorem reaches_again (h : Reaches code beginning s) (hi : s.threads i = some t) {place : Place}
    (hrest : t.rest = .done (some place)) :
    Reaches code beginning ⟨Function.update s.threads i (some { t with rest := round place }), s.live⟩ :=
  h.tail (.again hi hrest)

end Steps

/-- Every round of a polling thread polls. -/
theorem Polled.round {p : PollingThread} {T : RegisterTable} {past events : List (Event SysCall SysCall.Ret)}
    {place place' : Place} (h : Polled p T past place) (hp : p.client.table = T)
    (hruns : (round place).Runs events (some place')) : Polled p T (past ++ events) place' := by
  cases place
  case polling p' => exact h.polling hp hruns
  case posting p' startTime => exact h.posting hruns
  all_goals
    obtain ⟨polls, -, hthread⟩ := h
    cases hthread

theorem mem_repliesOf {T : RegisterTable} {i : Fin T.size} {polls : List (PollEvent T)} {r : Reply (T.block i)}
    (h : r ∈ repliesOf i polls) : ∃ e ∈ polls, e.reply.mallocOk = r.mallocOk := by
  rw [repliesOf, List.mem_filterMap] at h
  obtain ⟨e, he, h⟩ := h
  split at h
  · next heq =>
    subst heq
    cases h
    exact ⟨e, he, rfl⟩
  · cases h

/-- **What is cached is what the polls have left**: whatever the other threads do, the cache of a
polling thread is as its own requests and their replies say. -/
theorem polling_thread_cache {s : State SysCall SysCall.Ret Handle Place} (h : Reaches code beginning s) {i : ℕ}
    {t : Thread SysCall SysCall.Ret Handle Place} (hi : s.threads i = some t) {type : PollType} {host : String}
    {port : UInt16} {connectionDelayS : UInt8} {registers : RegisterTable}
    (hstart : t.start = .pollingThread type host port connectionDelayS registers) {place : Place}
    (hrest : t.rest = .done (some place)) :
    ∃ (polls : List (PollEvent registers)) (c : PollingClient), Polls registers t.past polls ∧
      place.thread? = some ⟨type, host, port, connectionDelayS, c⟩ ∧
      c = run pollStep (.fresh registers fun _ => 0) polls ∧
      ∀ b : Fin registers.size, (∀ e ∈ polls, e.reply.mallocOk = true) →
        (c.pollData b).data = retained (registers.block b) (outcomes (repliesOf b polls)) := by
  let p : PollingThread := ⟨type, host, port, connectionDelayS, .fresh registers fun _ => 0⟩
  have hpolled : Polled p registers t.past place := by
    refine (inRounds_of_reaches h hi).round_end hrest (fun events place' hruns => ?_)
      fun past place events place' hpast hruns => ?_
    · rw [hstart] at hruns
      cases hruns
      exact ⟨[], .nil, rfl⟩
    · exact hpast.round rfl hruns
  obtain ⟨polls, hpolls, hthread⟩ := hpolled
  refine ⟨polls, _, hpolls, hthread, rfl, fun b hok => ?_⟩
  have hreplies : ∀ r ∈ repliesOf b polls, r.mallocOk = true := by
    intro r hr
    obtain ⟨e, he, heq⟩ := mem_repliesOf hr
    exact heq ▸ hok e he
  rw [← blockRun_retained b (repliesOf b polls) hreplies]
  exact congrArg (fun s => s.entry.data) (state_run (c := .fresh registers fun _ => 0) rfl polls b)

/-- The thread that polls the smart load makes two rounds: its request is answered in the first
and cannot be sent in the second. -/
theorem reaches_polled : ∃ s t place, Reaches code beginning s ∧ s.threads 1 = some t ∧
    t.start = .pollingThread .canEz3 "192.168.8.81" 502 0 canEz3Registers ∧ t.rest = .done (some place) ∧
    place.thread?.map (fun p => ((p.client.pollData 0).data, p.client.numFailedRequests 0)) =
      some (some [0, 1, 0, 2, 0, 3, 0, 4], 1) := by
  have h : Reaches code beginning beginning := .refl
  have h := reaches_call h (i := 0) rfl rfl true trivial nothing_new rfl
  have h := reaches_call h (i := 0) rfl rfl false trivial nothing_new rfl
  have h := reaches_call h (i := 0) rfl rfl false trivial nothing_new rfl
  have h := reaches_call h (i := 0) rfl rfl true trivial nothing_new rfl
  have h := reaches_call h (i := 0) rfl rfl true trivial nothing_new rfl
  have h := reaches_call h (i := 0) rfl rfl true trivial nothing_new rfl
  have h := reaches_start h (i := 0) (j := 1) rfl rfl true trivial nothing_new rfl rfl
  have h := reaches_again h (i := 1) rfl rfl
  have h := reaches_call h (i := 1) rfl rfl true (.inr rfl) nothing_new rfl
  have h := reaches_call h (i := 1) rfl rfl 0 trivial nothing_new rfl
  have h := reaches_call h (i := 1) rfl rfl (some 1) trivial
    (by simp [liveAfter, rules, SysCall.closes, beginning, State.initial, opens, Place.holds]) rfl
  have h := reaches_call h (i := 1) rfl rfl true trivial nothing_new rfl
  have h := reaches_call h (i := 1) rfl rfl true trivial nothing_new rfl
  have h := reaches_call h (i := 1) rfl rfl ConnectResult.ok trivial nothing_new rfl
  have h := reaches_call h (i := 1) rfl rfl () trivial nothing_new rfl
  have h := reaches_call h (i := 1) rfl rfl (some 2) trivial
    (by simp [liveAfter, rules, SysCall.closes, beginning, State.initial, opens, Place.holds]) rfl
  have h := reaches_call h (i := 1) rfl rfl () trivial nothing_new rfl
  have h := reaches_call h (i := 1) rfl rfl true trivial nothing_new rfl
  have h := reaches_call h (i := 1) rfl rfl (some ⟨[0, 0, 0, 0, 0, 11, 1, 4, 8, 0, 1, 0, 2, 0, 3, 0, 4], by decide⟩)
    trivial nothing_new rfl
  have h := reaches_call h (i := 1) rfl rfl () trivial nothing_new rfl
  have h := reaches_call h (i := 1) rfl rfl true trivial nothing_new rfl
  have h := reaches_call h (i := 1) rfl rfl () trivial nothing_new rfl
  have h := reaches_call h (i := 1) rfl rfl () trivial nothing_new rfl
  have h := reaches_call h (i := 1) rfl rfl () trivial nothing_new rfl
  have h := reaches_call h (i := 1) rfl rfl () trivial nothing_new rfl
  have h := reaches_call h (i := 1) rfl rfl 1000 trivial nothing_new rfl
  have h := reaches_call h (i := 1) rfl rfl () trivial nothing_new rfl
  have h := reaches_again h (i := 1) rfl rfl
  have h := reaches_call h (i := 1) rfl rfl true (.inr rfl) nothing_new rfl
  have h := reaches_call h (i := 1) rfl rfl 5000 trivial nothing_new rfl
  have h := reaches_call h (i := 1) rfl rfl (some 3) trivial
    (by simp [liveAfter, rules, SysCall.closes, beginning, State.initial, opens, Place.holds]) rfl
  have h := reaches_call h (i := 1) rfl rfl true trivial nothing_new rfl
  have h := reaches_call h (i := 1) rfl rfl true trivial nothing_new rfl
  have h := reaches_call h (i := 1) rfl rfl ConnectResult.ok trivial nothing_new rfl
  have h := reaches_call h (i := 1) rfl rfl () trivial nothing_new rfl
  have h := reaches_call h (i := 1) rfl rfl (some 4) trivial
    (by simp [liveAfter, rules, SysCall.closes, beginning, State.initial, opens, Place.holds]) rfl
  have h := reaches_call h (i := 1) rfl rfl () trivial nothing_new rfl
  have h := reaches_call h (i := 1) rfl rfl false trivial nothing_new rfl
  have h := reaches_call h (i := 1) rfl rfl () trivial nothing_new rfl
  have h := reaches_call h (i := 1) rfl rfl true trivial nothing_new rfl
  have h := reaches_call h (i := 1) rfl rfl () trivial nothing_new rfl
  have h := reaches_call h (i := 1) rfl rfl () trivial nothing_new rfl
  have h := reaches_call h (i := 1) rfl rfl () trivial nothing_new rfl
  have h := reaches_call h (i := 1) rfl rfl () trivial nothing_new rfl
  have h := reaches_call h (i := 1) rfl rfl 6000 trivial nothing_new rfl
  have h := reaches_call h (i := 1) rfl rfl () trivial nothing_new rfl
  exact ⟨_, _, _, h, rfl, rfl, rfl, by decide +kernel⟩

/-- Its cache is what these two polls leave. -/
theorem polling_thread_cache_polled : ∃ s t place, Reaches code beginning s ∧ s.threads 1 = some t ∧
    t.rest = .done (some place) ∧
    ∃ (polls : List (PollEvent canEz3Registers)) (c : PollingClient), Polls canEz3Registers t.past polls ∧
      place.thread? = some ⟨.canEz3, "192.168.8.81", 502, 0, c⟩ ∧
      c = run pollStep (.fresh canEz3Registers fun _ => 0) polls ∧ (c.pollData 0).data = some [0, 1, 0, 2, 0, 3, 0, 4] ∧
      c.numFailedRequests 0 = 1 := by
  obtain ⟨s, t, place, h, hi, hstart, hrest, hcache⟩ := reaches_polled
  obtain ⟨polls, c, hpolls, hthread, hc, -⟩ := polling_thread_cache h hi hstart hrest
  rw [hthread] at hcache
  obtain ⟨hdata, hfailed⟩ := Prod.mk.inj (Option.some.inj hcache)
  exact ⟨s, t, place, h, hi, hrest, polls, c, hpolls, hthread, hc, hdata, hfailed⟩

end ModbusProxy.Process
