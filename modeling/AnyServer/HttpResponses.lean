import AnyServer.WholeMessages

/-!
# HTTP Responses

`HttpTcpServer::sendToClient` writes a whole response, header block and body, to the
connection of a client. It is reached by `ServerFactory::sendToClient`, by `sendToServer` for
every client, and with `enable_echo_test` by the factory itself, after the listeners have
seen the request. None of them asks whether the connection has a request to answer.

`HttpTraffic` is an HTTP server with all that drives it: callbacks of libwebsockets, made by
its worker one after the other, and calls of the application from inside the listeners or from
other threads. A `sendToServer` goes on in between, from its copy of the client list.
`requests` and `responses` are no members of the source: they count, for each `wsi` and since
the connection on it was made, the completed requests and the responses written.

## Main results

* `responses_paired_iff`: when no connection ever has more responses than requests.
-/

namespace AnyServer

open Lts

/-! ### The server and all that drives it -/

/-- An http server with its worker's `onReceive` and the application's calls that are under way,
and for each connection the number of requests completed and of responses written. -/
structure HttpTraffic where
  server : HttpTcpServer
  enable_echo_test : Bool
  /-- The client and the message of the `onReceive` that the worker is in. -/
  receiving : Option (ℕ × Bytes)
  /-- The calls of `sendToServer` under way, each with the ids left in its copy. -/
  broadcasts : List (Bytes × List ℕ)
  requests : ℕ → ℕ
  responses : ℕ → ℕ

/-- A callback; the worker's return from the listeners of an `onReceive`, with the results of
the calls that the echo makes; and calls of the application: `sendToClient`, `sendToServer`, and
the next send of a `sendToServer`. -/
inductive TrafficInput
  | callback (cb : HttpCallback)
  | returned (r : HttpSendResults)
  | sendToClient (client_id : ℕ) (msg : Bytes) (r : HttpSendResults)
  | sendToServer (msg : Bytes)
  | resume (index : ℕ) (r : HttpSendResults)
  deriving DecidableEq, Repr

/-- What can be seen: calls of the listeners and writes to connections. -/
inductive TrafficObs
  | notify (n : Notification)
  | wrote (w : Write)
  deriving DecidableEq, Repr

/-- The client and the message of an `onReceive`. -/
def Notification.received : Notification → Option (ℕ × Bytes)
  | .onReceive _ client_id msg msg_len => some (client_id, msg.take msg_len)
  | _ => none

/-- What a callback counts for its connection. -/
def HttpTraffic.count (s : HttpTraffic) (cb : HttpCallback) : HttpTraffic :=
  match cb.reason with
  | .serverNewClientInstantiated _ =>
      { s with
        requests := Function.update s.requests cb.wsi 0
        responses := Function.update s.responses cb.wsi 0 }
  | .httpBodyCompletion =>
      { s with requests := Function.update s.requests cb.wsi (s.requests cb.wsi + 1) }
  | _ => s

/-- The connection that a `sendToClient` has written a whole response to. -/
def responseOn : Bool × List Write → Option ℕ
  | (true, .httpHeaders wsi _ :: .httpBody _ _ :: _) => some wsi
  | _ => none

/-- `HttpTcpServer::sendToClient`; the result is `none` where the source goes through a null
client. -/
def HttpTraffic.send (s : HttpTraffic) (client_id : ℕ) (msg : Bytes) (r : HttpSendResults) :
    Option (HttpTraffic × List TrafficObs) := do
  let sent ← s.server.sendToClient client_id msg r
  let s' :=
    match responseOn sent with
    | some wsi => { s with responses := Function.update s.responses wsi (s.responses wsi + 1) }
    | none => s
  some (s', sent.2.map .wrote)

/-- The `sendToServer` at `index` goes on to the next id of its copy. -/
def HttpTraffic.advance (s : HttpTraffic) (index : ℕ) : HttpTraffic :=
  { s with
    broadcasts := s.broadcasts.modify index fun (msg, client_list) => (msg, client_list.tail) }

/-- The send that an input brings about: the client, the message and the results. -/
def HttpTraffic.sends (s : HttpTraffic) :
    TrafficInput → Option (ℕ × Bytes × HttpSendResults)
  | .callback _ => none
  | .returned r =>
      if s.enable_echo_test then s.receiving.map fun (client_id, msg) => (client_id, msg, r)
      else none
  | .sendToClient client_id msg r => some (client_id, msg, r)
  | .sendToServer _ => none
  | .resume index r =>
      match s.broadcasts[index]? with
      | some (msg, client_id :: _) => some (client_id, msg, r)
      | _ => none

/-- One step of the worker or of the application. -/
def HttpTraffic.next (s : HttpTraffic) (i : TrafficInput) :
    Option (HttpTraffic × List TrafficObs) :=
  match i with
  | .callback cb =>
      match s.receiving with
      | some _ => none
      | none => do
          let (server, ns) ← callbackHttp s.server cb
          some ({ s.count cb with server, receiving := (ns.filterMap Notification.received).head? },
            ns.map .notify)
  | .returned _ =>
      match s.receiving, s.sends i with
      | none, _ => none
      | some _, none => some ({ s with receiving := none }, [])
      | some _, some (client_id, msg, r) => { s with receiving := none }.send client_id msg r
  | .sendToClient client_id msg r => s.send client_id msg r
  | .sendToServer msg =>
      some ({ s with broadcasts := s.broadcasts ++ [(msg, clientIds s.server.m_client_list)] }, [])
  | .resume index _ =>
      match s.sends i with
      | none => none
      | some (client_id, msg, r) => (s.advance index).send client_id msg r

/-- The allocator's side of a callback. -/
def TrafficInput.Fresh (s : HttpTraffic) : TrafficInput → Prop
  | .callback cb => cb.Fresh s.server.m_client_list
  | _ => True

instance (s : HttpTraffic) : (i : TrafficInput) → Decidable (i.Fresh s)
  | .callback cb => inferInstanceAs (Decidable (cb.Fresh s.server.m_client_list))
  | .returned _ | .sendToClient .. | .sendToServer _ | .resume .. => .isTrue trivial

/-- An HTTP server, its connections and the application. -/
abbrev HttpTraffic.Step : Lts HttpTraffic TrafficInput TrafficObs :=
  Lts.guarded TrafficInput.Fresh HttpTraffic.next

/-! ### Pairing -/

/-- No connection has more responses than completed requests. -/
def HttpTraffic.Paired (s : HttpTraffic) : Prop :=
  ∀ wsi, s.responses wsi ≤ s.requests wsi

/-- If a send to `client_id` gets a whole response written, a completed request on the client's
connection has none yet. -/
def HttpTraffic.Due (s : HttpTraffic) (client_id : ℕ) (r : HttpSendResults) : Prop :=
  ∀ client, findClientInfo s.server.m_client_list client_id = some client → ¬ r.Fails →
    s.responses client.m_wsi < s.requests client.m_wsi

/-- The send of an input, if it has one, is due. -/
def HttpTraffic.Answers (s : HttpTraffic) (i : TrafficInput) : Prop :=
  ∀ send ∈ s.sends i, s.Due send.1 send.2.2

section

variable {s s' s₀ : HttpTraffic} {i : TrafficInput} {is : List TrafficInput}
  {o os : List TrafficObs} {client_id : ℕ} {msg : Bytes} {r : HttpSendResults}
  {cb : HttpCallback}

/-- A callback keeps the pairing. -/
theorem HttpTraffic.Paired.count (hs : s.Paired) (cb : HttpCallback) : (s.count cb).Paired := by
  intro wsi
  have hwsi := hs wsi
  rw [HttpTraffic.count]
  split
  · by_cases h : wsi = cb.wsi
    · subst h
      simp
    · simpa [h] using hwsi
  · by_cases h : wsi = cb.wsi
    · subst h
      simp
      omega
    · simpa [h] using hwsi
  · exact hwsi

/-- A response is written to the connection of the client, unless a call fails. -/
theorem HttpTcpServer.responseOn_sendToClient {server : HttpTcpServer}
    {client : HttpTcpClientInfo} (msg : Bytes) (r : HttpSendResults)
    (hfind : findClientInfo server.m_client_list client_id = some client) :
    ∃ sent, server.sendToClient client_id msg r = some sent ∧
      responseOn sent = if r.Fails then none else some client.m_wsi := by
  simp only [sendToClient, hfind, bind, Option.bind_some, HttpSendResults.Fails]
  split
  · next hheaders => exact ⟨_, rfl, by simp [hheaders, responseOn]⟩
  · next hheaders =>
    split
    · next hwrite => exact ⟨_, rfl, by simp [hwrite, responseOn]⟩
    · next hwrite =>
      split
      · next hbody => exact ⟨_, rfl, by simp [hbody, responseOn]⟩
      · next hbody => exact ⟨_, rfl, by simp [hheaders, hwrite, hbody, responseOn]⟩

/-- **One send.** It keeps the pairing exactly if it is due. -/
theorem HttpTraffic.paired_send_iff (hs : s.Paired) (h : s.send client_id msg r = some (s', o)) :
    s'.Paired ↔ s.Due client_id r := by
  simp only [send, bind, Option.bind_eq_some_iff, Option.some.injEq, Prod.mk.injEq] at h
  obtain ⟨sent, hsent, rfl, -⟩ := h
  cases hfind : findClientInfo s.server.m_client_list client_id with
  | none => simp [HttpTcpServer.sendToClient, hfind] at hsent
  | some client =>
      obtain ⟨sent', hsent', hresponse⟩ :=
        HttpTcpServer.responseOn_sendToClient msg r hfind
      obtain rfl := Option.some.inj (hsent.symm.trans hsent')
      rw [hresponse]
      simp only [Due, hfind, Option.some.injEq, forall_eq']
      by_cases hfails : r.Fails
      · simpa [hfails] using hs
      · simp only [hfails, if_false, not_false_eq_true, forall_const]
        constructor
        · intro hpaired
          have hwsi := hpaired client.m_wsi
          simp only [Function.update_self] at hwsi
          omega
        · intro hlt wsi
          by_cases hw : wsi = client.m_wsi
          · subst hw
            simp only [Function.update_self]
            omega
          · simpa [hw] using hs wsi

/-- **One step.** -/
theorem HttpTraffic.paired_next_iff (hs : s.Paired) (h : s.next i = some (s', o)) :
    s'.Paired ↔ s.Answers i := by
  have hquiet : s.sends i = none → (s.Answers i ↔ True) := by
    intro hnone
    simp [Answers, hnone]
  cases i with
  | callback cb =>
      rw [hquiet rfl, iff_true]
      simp only [next] at h
      split at h
      · cases h
      · simp only [bind, Option.bind_eq_some_iff, Option.some.injEq, Prod.mk.injEq] at h
        obtain ⟨_, -, rfl, -⟩ := h
        exact hs.count cb
  | returned r =>
      simp only [next] at h
      split at h
      · cases h
      · next hsends =>
        obtain ⟨rfl, -⟩ := Prod.mk.inj (Option.some.inj h)
        rw [hquiet hsends, iff_true]
        exact hs
      · next hsends =>
        rw [paired_send_iff (s := { s with receiving := none }) hs h]
        simp [Answers, hsends, Due]
  | sendToClient client_id msg r =>
      rw [paired_send_iff hs h]
      simp [Answers, sends]
  | sendToServer msg =>
      obtain ⟨rfl, -⟩ := Prod.mk.inj (Option.some.inj h)
      rw [hquiet rfl, iff_true]
      exact hs
  | resume index r =>
      simp only [next] at h
      split at h
      · cases h
      · next hsends =>
        rw [paired_send_iff (s := s.advance index) hs h]
        simp [Answers, hsends, Due, advance]

/-- **When responses are paired with requests.** In a run, no connection ever has more
responses than completed requests exactly if every send that writes a whole response finds a
request to answer on its connection. -/
theorem responses_paired_iff (h₀ : s₀.Paired) (h : Run HttpTraffic.Step s₀ is os s) :
    EachStep HttpTraffic.Step (fun _ _ s' _ => s'.Paired) s₀ is ↔
      Along HttpTraffic.Step HttpTraffic.Answers s₀ is := by
  refine h.eachStep_iff_along deterministic_guarded ?_
  intro is os s i s' o hrun hC ht
  have hs : s.Paired := hrun.invariant_along deterministic_guarded h₀
    (fun _ hs hi ht => (HttpTraffic.paired_next_iff hs ht.2).mpr hi) hC
  exact HttpTraffic.paired_next_iff hs ht.2

end

/-! ### Surplus responses -/

/-- A running server without clients, with or without the echo. -/
def httpTraffic (enable_echo_test : Bool) : HttpTraffic :=
  { server := { m_server_id := 1, m_context := true, m_run_thread := true, m_client_list := [],
                req_body := [] }
    enable_echo_test
    receiving := none
    broadcasts := []
    requests := fun _ => 0
    responses := fun _ => 0 }

/-- A client connects and posts a byte. -/
def post : List TrafficInput :=
  [.callback ⟨0, 5, .serverNewClientInstantiated 16⟩, .callback ⟨0, 5, .http⟩,
    .callback ⟨0, 5, .httpBody [1]⟩, .callback ⟨0, 5, .httpBodyCompletion⟩]

/-- A request with the echo on: its responses are paired exactly if each answers it. -/
theorem responses_paired_iff_echo :
    EachStep HttpTraffic.Step (fun _ _ s' _ => s'.Paired) (httpTraffic true)
        (post ++ [.returned allWritten.http]) ↔
      Along HttpTraffic.Step HttpTraffic.Answers (httpTraffic true)
        (post ++ [.returned allWritten.http]) :=
  responses_paired_iff (fun _ => le_rfl) (run_guarded_of_exec rfl)

/-- A client that has only connected is sent a response, singly or by a `sendToServer`; and a
request is answered twice, by the listener and by the echo. -/
theorem surplusResponses_written :
    (∃ os s, Run HttpTraffic.Step (httpTraffic false)
        [.callback ⟨0, 5, .serverNewClientInstantiated 16⟩,
          .sendToClient 16 [7] allWritten.http] os s ∧ ¬ s.Paired) ∧
      (∃ os s, Run HttpTraffic.Step (httpTraffic false)
        [.callback ⟨0, 5, .serverNewClientInstantiated 16⟩, .sendToServer [7],
          .resume 0 allWritten.http] os s ∧ ¬ s.Paired) ∧
      ∃ os s, Run HttpTraffic.Step (httpTraffic true)
        (post ++ [.sendToClient 16 [7] allWritten.http, .returned allWritten.http]) os s ∧
          ¬ s.Paired := by
  refine ⟨⟨_, _, run_guarded_of_exec rfl, fun hs => ?_⟩,
    ⟨_, _, run_guarded_of_exec rfl, fun hs => ?_⟩, ⟨_, _, run_guarded_of_exec rfl, fun hs => ?_⟩⟩
  all_goals exact absurd (hs 0) (by decide)

end AnyServer
