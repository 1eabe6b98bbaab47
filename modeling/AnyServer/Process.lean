import AnyServer.ClientIds
import AnyServer.Library.Directory
import AnyServer.Library.Reporting
import AnyServer.OpenSockets

/-!
# Servers Side by Side

The process has any number of servers, of any of the six classes, each with its own worker. The
workers go on in any order, and what one of them has to report it reports on its own thread,
call by call, while the others go on. The id of a client is an address. It is in use as long as
the client's object is there, so no new client of any server gets it, but the object is freed
before the disconnect is reported: meanwhile a client of another server may get the id and be
reported connected.

The static contexts of the libwebsockets servers are left out: here each server has its own.

## Main results

* `ServerWorker.Step.moves`: what a step of a worker of any class does to its clients.
* `Process.run_sound`: what the workers have told, and which ids are in use.
-/

namespace AnyServer

open Lts Session

/-! ### Workers -/

/-- The worker of a server of one of the six classes. Of the libwebsockets servers it is all
that the callbacks need. -/
inductive ServerWorker
  | inetTcp (w : EpollWorker)
  | unixTcp (w : EpollWorker)
  | inetUdp (w : UdpWorker)
  | unixUdp (w : UdpWorker)
  | http (server : HttpTcpServer)
  | webSocket (server : WebSocketTcpServer)

/-- An input of a worker, by the class of its server. -/
inductive WorkerInput
  | epoll (i : EpollInput)
  | udp (i : UdpInput)
  | http (i : ServerInput HttpCallback)
  | webSocket (i : ServerInput WebSocketCallback)

/-- The server that a worker works for. -/
def ServerWorker.server : ServerWorker → BaseServerImpl
  | .inetTcp w => .inetTcp w.server
  | .unixTcp w => .unixTcp w.server
  | .inetUdp w => .inetUdp w.server
  | .unixUdp w => .unixUdp w.server
  | .http server => .http server
  | .webSocket server => .webSocket server

/-- What a worker of any class does, with the notifications that it makes. -/
inductive ServerWorker.Step (debug : Bool) : Lts ServerWorker WorkerInput Notification
  | inetTcp {w w' : EpollWorker} {i : EpollInput} {o : List EpollObs}
      (ht : InetDomainSocketTcpServer.Step w i w' o) :
      Step debug (.inetTcp w) (.epoll i) (.inetTcp w') (o.flatMap EpollObs.notification)
  | unixTcp {w w' : EpollWorker} {i : EpollInput} {o : List EpollObs}
      (ht : UnixDomainSocketTcpServer.Step w i w' o) :
      Step debug (.unixTcp w) (.epoll i) (.unixTcp w') (o.flatMap EpollObs.notification)
  | inetUdp {w w' : UdpWorker} {i : UdpInput} {o : List UdpObs}
      (ht : InetDomainSocketUdpServer.Step debug w i w' o) :
      Step debug (.inetUdp w) (.udp i) (.inetUdp w') (o.flatMap UdpObs.notification)
  | unixUdp {w w' : UdpWorker} {i : UdpInput} {o : List UdpObs}
      (ht : UnixDomainSocketUdpServer.Step debug w i w' o) :
      Step debug (.unixUdp w) (.udp i) (.unixUdp w') (o.flatMap UdpObs.notification)
  | http {server server' : HttpTcpServer} {i : ServerInput HttpCallback}
      {o : List Notification} (ht : HttpTcpServer.Driven server i server' o) :
      Step debug (.http server) (.http i) (.http server') o
  | webSocket {server server' : WebSocketTcpServer} {i : ServerInput WebSocketCallback}
      {o : List Notification} (ht : WebSocketTcpServer.Driven server i server' o) :
      Step debug (.webSocket server) (.webSocket i) (.webSocket server') o

/-- What a step of a worker does to the ids registered, and what it reports of it: nothing; a new
client; a message of a client; the removal of a client, or of none; or all that the UDP servers
make of a datagram, after which the registry is as it was. -/
inductive Moves (server_id : ℕ) (ids : List ℕ) : List Notification → List ℕ → Prop
  | quiet : Moves server_id ids [] ids
  | connected {client_id : ℕ} (h0 : client_id ≠ 0) (hnew : client_id ∉ ids) :
      Moves server_id ids [.onClientConnected server_id client_id] (ids ++ [client_id])
  | received {n : Notification} {client_id : ℕ} {msg : Bytes} (hid : n.server_id = server_id)
      (hn : n.event = .data client_id msg) (hmem : client_id ∈ ids) : Moves server_id ids [n] ids
  | disconnected {client_id : ℕ} (h : client_id = 0 ∨ client_id ∈ ids) :
      Moves server_id ids [.onClientDisconnected server_id client_id] (ids.erase client_id)
  | datagram {client_id msg_len : ℕ} {msg : Bytes} (h0 : client_id ≠ 0)
      (hnew : client_id ∉ ids) :
      Moves server_id ids
        [.onClientConnected server_id client_id, .onReceive server_id client_id msg msg_len,
          .onClientDisconnected server_id client_id] ids

section

variable {server_id : ℕ} {ids ids' : List ℕ} {o : List Notification} {debug : Bool}
  {w w' w₀ : ServerWorker} {i : WorkerInput}

/-- Removal by fd. -/
theorem moves_removeClientInfoFd {C : Type} [IsTcpClientInfo C] {l : List C} {fd : ℤ}
    (hnd : (clientIds l).Nodup) (h0 : 0 ∉ clientIds l) :
    Moves server_id (clientIds l)
      [.onClientDisconnected server_id (removeClientInfoFd l fd).2]
      (clientIds (removeClientInfoFd l fd).1) := by
  rw [clientIds_removeClientInfoFd hnd h0]
  refine .disconnected ?_
  by_cases h : fd ∈ clientFds l
  · exact .inr ((removeClientInfoFd_mem_iff h0).mpr h)
  · rw [removeClientInfoFd_absent h]
    exact .inl rfl

/-- A message of the client found by its fd. -/
theorem moves_findClientInfoFd {C : Type} [IsTcpClientInfo C] {l : List C} {fd : ℤ} {client : C}
    {n : Notification} {msg : Bytes} (hc : findClientInfoFd l fd = some client)
    (hid : n.server_id = server_id) (hn : n.event = .data (getClientId client) msg) :
    Moves server_id (clientIds l) [n] (clientIds l) :=
  .received hid hn (List.mem_map_of_mem (Keyed.mem_of_find hc))

/-- A step of an epoll worker reports what it does to its client list. -/
theorem EpollWorker.Step.moves {kind : EpollKind} {w w' : EpollWorker} {i : EpollInput}
    {o : List EpollObs} (ht : EpollWorker.Step kind w i w' o)
    (hnd : (clientIds w.server.m_client_list).Nodup)
    (h0 : 0 ∉ clientIds w.server.m_client_list) :
    Moves w.server.m_server_id (clientIds w.server.m_client_list)
      (o.flatMap EpollObs.notification) (clientIds w'.server.m_client_list) := by
  cases ht with
  | store b | entry _ | enter _ _ | leave _ _ | wait _ _ _ | again _ => exact .quiet
  | handle sys hpc hl hs =>
      cases handleEvent_effect hs with
      | accepted hfd =>
          obtain ⟨hne, hnew⟩ := hl.client_id hfd
          rw [clientIds_concat]
          exact .connected hne hnew
      | disconnected hfd hread => exact moves_removeClientInfoFd hnd h0
      | received bs client hfd hread hbs hc => exact moves_findClientInfoFd hc rfl rfl

/-- So does a step of a datagram worker. -/
theorem UdpWorker.Step.moves {kind : UdpKind} {debug : Bool} {w w' : UdpWorker} {i : UdpInput}
    {o : List UdpObs} (ht : UdpWorker.Step kind debug w i w' o) :
    Moves w.server.m_server_id (clientIds w.server.m_client_list)
      (o.flatMap UdpObs.notification) (clientIds w'.server.m_client_list) := by
  cases ht.effect with
  | stored _ | entered _ | again _ _ | left _ _ => exact .quiet
  | pass hpc hl hcomm =>
      obtain ⟨hserver, hns⟩ := communication_notifications hl hcomm
      obtain ⟨-, hne, hnew⟩ := hl
      rw [hserver, hns]
      exact .datagram hne hnew

/-- So does a callback of the HTTP server. -/
theorem HttpTcpServer.driven_moves {server server' : HttpTcpServer}
    {i : ServerInput HttpCallback} {o : List Notification}
    (ht : HttpTcpServer.Driven server i server' o)
    (hnd : (clientIds server.m_client_list).Nodup) (h0 : 0 ∉ clientIds server.m_client_list) :
    Moves server.m_server_id (clientIds server.m_client_list) o
      (clientIds server'.m_client_list) := by
  cases i with
  | store b =>
      obtain ⟨rfl, rfl⟩ := ht
      exact .quiet
  | callback cb =>
      obtain ⟨hfresh, ht⟩ := ht
      rcases callbackHttp_cases ht with ⟨-, he⟩ | ⟨-, rfl, rfl⟩
      · cases he with
        | connected m_client_id hr =>
            obtain ⟨hne, hnew⟩ := hfresh m_client_id (by rw [hr]; rfl)
            rw [clientIds_concat]
            exact .connected hne hnew
        | closed hr => exact moves_removeClientInfoFd hnd h0
        | completion client hr hc => exact moves_findClientInfoFd hc rfl rfl
        | request hr | body b hr | silent hr => exact .quiet
      · exact .quiet

/-- So does a callback of the WebSocket server. -/
theorem WebSocketTcpServer.driven_moves {server server' : WebSocketTcpServer}
    {i : ServerInput WebSocketCallback} {o : List Notification}
    (ht : WebSocketTcpServer.Driven server i server' o)
    (hnd : (clientIds server.m_client_list).Nodup) (h0 : 0 ∉ clientIds server.m_client_list) :
    Moves server.m_server_id (clientIds server.m_client_list) o
      (clientIds server'.m_client_list) := by
  cases i with
  | store b =>
      obtain ⟨rfl, rfl⟩ := ht
      exact .quiet
  | callback cb =>
      obtain ⟨hfresh, ht⟩ := ht
      rcases callbackWebSocket_cases ht with ⟨-, he⟩ | ⟨-, rfl, rfl⟩
      · cases he with
        | connected m_client_id uri m_protocol hr hp =>
            obtain ⟨hne, hnew⟩ := hfresh m_client_id (by rw [hr]; rfl)
            rw [clientIds_concat]
            exact .connected hne hnew
        | closed hr => exact moves_removeClientInfoFd hnd h0
        | received msg client hr hc => exact moves_findClientInfoFd hc rfl rfl
        | silent hc hn => exact .quiet
      · exact .quiet

/-- **A step of any worker.** -/
theorem ServerWorker.Step.moves (ht : ServerWorker.Step debug w i w' o)
    (hnd : w.server.clientIds.Nodup) (h0 : 0 ∉ w.server.clientIds) :
    Moves w.server.getId w.server.clientIds o w'.server.clientIds := by
  cases ht with
  | inetTcp ht | unixTcp ht => exact ht.moves hnd h0
  | inetUdp ht | unixUdp ht => exact ht.moves
  | http ht => exact HttpTcpServer.driven_moves ht hnd h0
  | webSocket ht => exact WebSocketTcpServer.driven_moves ht hnd h0

/-- No step changes the server's id. -/
theorem ServerWorker.Step.getId (ht : ServerWorker.Step debug w i w' o) :
    w'.server.getId = w.server.getId := by
  cases ht with
  | inetTcp ht | unixTcp ht => exact ht.server_id.1
  | inetUdp ht | unixUdp ht => exact ht.server_id.1
  | @http server server' i o ht =>
      cases i with
      | store b =>
          obtain ⟨rfl, -⟩ := ht
          rfl
      | callback cb => exact (callbackHttp_server_id ht.2).1
  | @webSocket server server' i o ht =>
      cases i with
      | store b =>
          obtain ⟨rfl, -⟩ := ht
          rfl
      | callback cb => exact (callbackWebSocket_server_id ht.2).1

/-- Stores to the run flag leave a server one outcome for each input. -/
theorem deterministic_withStores {S CB : Type} {T : Lts S CB Notification}
    {store : S → Bool → S} (hT : Deterministic T) : Deterministic (withStores T store) := by
  intro s i s₁ o₁ s₂ o₂ h₁ h₂
  cases i with
  | callback cb => exact hT h₁ h₂
  | store b =>
      obtain ⟨rfl, rfl⟩ := h₁
      obtain ⟨rfl, rfl⟩ := h₂
      exact ⟨rfl, rfl⟩

/-- Every worker has one outcome for each input. -/
theorem ServerWorker.deterministic_step : Deterministic (ServerWorker.Step debug) := by
  intro w i w₁ o₁ w₂ o₂ h₁ h₂
  cases h₁ with
  | inetTcp h | unixTcp h =>
      cases h₂ with
      | _ h' =>
          obtain ⟨rfl, rfl⟩ := EpollWorker.deterministic_step h h'
          exact ⟨rfl, rfl⟩
  | inetUdp h | unixUdp h =>
      cases h₂ with
      | _ h' =>
          obtain ⟨rfl, rfl⟩ := deterministic_guarded h h'
          exact ⟨rfl, rfl⟩
  | http h | webSocket h =>
      cases h₂ with
      | _ h' =>
          obtain ⟨rfl, rfl⟩ := deterministic_withStores deterministic_guarded h h'
          exact ⟨rfl, rfl⟩

/-! ### What a worker has told -/

/-- The log of a worker is a sound one, and what it leaves open are the ids registered. -/
structure Told (log : List (Event ℕ Bytes)) (ids : List ℕ) : Prop where
  tells : Directory.Tells 0 log
  perm : (outstanding log).Perm ids

variable {log : List (Event ℕ Bytes)} {client_id : ℕ} {d : Bytes}

/-- The clients that were told of are distinct. -/
theorem Told.nodup (h : Told log ids) : ids.Nodup :=
  h.perm.nodup_iff.mp h.tells.fresh.nodup_outstanding

/-- None of them is the null client. -/
theorem Told.zero_notMem (h : Told log ids) : 0 ∉ ids :=
  fun hmem => h.tells.nobody_notMem (h.perm.mem_iff.mpr hmem)

/-- A new client is told of from its connect on. -/
theorem Told.opened (h : Told log ids) (h0 : client_id ≠ 0) (hnew : client_id ∉ ids) :
    Told (log ++ [.opened client_id]) (ids ++ [client_id]) where
  tells := by
    refine Directory.tells_concat.mpr ⟨h.tells, ?_, by simp⟩
    rintro _ ⟨⟩
    exact ⟨h0, fun hmem => hnew (h.perm.mem_iff.mp hmem)⟩
  perm := by
    rw [outstanding_concat]
    exact (h.perm.cons client_id).trans (List.perm_append_singleton client_id ids).symm

/-- A message tells of nobody new. -/
theorem Told.data (h : Told log ids) : Told (log ++ [.data client_id d]) ids where
  tells := Directory.tells_concat.mpr ⟨h.tells, by simp, by simp⟩
  perm := by
    rw [outstanding_concat]
    exact h.perm

/-- A client that leaves, if it is one, is not among them any more. -/
theorem Told.closed (h : Told log ids) (hid : client_id = 0 ∨ client_id ∈ ids) :
    Told (log ++ [.closed client_id]) (ids.erase client_id) where
  tells := by
    refine Directory.tells_concat.mpr ⟨h.tells, by simp, ?_⟩
    rintro _ ⟨⟩
    exact hid.imp_right h.perm.mem_iff.mpr
  perm := by
    rw [outstanding_concat]
    exact h.perm.erase client_id

/-- The reports of one step keep up with the client list. -/
theorem Told.moves (h : Told log ids) (hm : Moves server_id ids o ids') :
    Told (log ++ o.map Notification.event) ids' := by
  cases hm with
  | quiet => simpa using h
  | connected h0 hnew => exact h.opened h0 hnew
  | @received n client_id msg hid hn hmem =>
      rw [List.map_singleton, hn]
      exact h.data
  | disconnected hid => exact h.closed hid
  | @datagram client_id msg_len msg h0 hnew =>
      have hdata : Told (log ++ [.opened client_id] ++ [.data client_id (msg.take msg_len)])
          (ids ++ [client_id]) := (h.opened h0 hnew).data
      have hclosed := hdata.closed
        (.inr (List.mem_append_right ids (List.mem_singleton_self client_id)))
      rw [List.erase_append_right _ hnew, List.erase_cons_head, List.append_nil, List.append_assoc,
        List.append_assoc] at hclosed
      exact hclosed

/-- They all bear the server's own id. -/
theorem Moves.server_id_eq (hm : Moves server_id ids o ids') :
    ∀ n ∈ o, n.server_id = server_id := by
  cases hm with
  | received hid hn hmem => simpa using hid
  | quiet | connected h0 hnew | disconnected h | datagram h0 hnew => simp [Notification.server_id]

/-- A worker that has begun without clients, by its server and its log. -/
structure ServerWorker.Log (w₀ : ServerWorker) (ns : List Notification) (w : ServerWorker) :
    Prop where
  getId : w.server.getId = w₀.server.getId
  told : Told (ns.map Notification.event) w.server.clientIds
  server_id : ∀ n ∈ ns, n.server_id = w₀.server.getId

end

/-! ### The process -/

/-- The workers of the servers, by their positions in `m_servers`, and what each of them has
still to report. -/
abbrev Process (n : ℕ) := Reporting (Fin n) ServerWorker Notification

/-- The ids of clients that are there while this is being reported. -/
def Notification.inUse : Notification → List ℕ
  | .onClientConnected _ client_id => [client_id]
  | .onClientDisconnected _ _ => []
  | .onReceive _ client_id _ _ => [client_id]
  | .onReceiveProtocol _ client_id _ _ _ => [client_id]

section

variable {n : ℕ} {s s' s₀ : Process n} {debug : Bool} {k k' : Fin n} {client_id server_id : ℕ}
  {is : List (Fin n × Reporting.Input WorkerInput)} {i : Fin n × Reporting.Input WorkerInput}
  {os o : List (Fin n × Notification)}

/-- The ids that clients of the server at position `k` have: those registered, and in the UDP
servers the one of the sender whose datagram is being reported. -/
def Process.inUse (s : Process n) (k : Fin n) : List ℕ :=
  (s.components k).server.clientIds ++ (s.pending k).flatMap Notification.inUse

/-- The allocator's side: the object of a new client gets an address that no client has. -/
def Process.Fresh (s : Process n) (ns : List Notification) : Prop :=
  ∀ server_id client_id, .onClientConnected server_id client_id ∈ ns →
    ∀ k, client_id ∉ s.inUse k

/-- A store to `m_run_thread` by another thread. -/
def WorkerInput.IsStore (i : WorkerInput) : Prop :=
  ∃ b, i = .epoll (.store b) ∨ i = .udp (.store b) ∨ i = .http (.store b) ∨
    i = .webSocket (.store b)

/-- The workers of several servers, each reporting what its steps come to later on. -/
abbrev Process.Step (debug : Bool) :
    Lts (Process n) (Fin n × Reporting.Input WorkerInput) (Fin n × Notification) :=
  Reporting.Step (fun _ => ServerWorker.Step debug) WorkerInput.IsStore Process.Fresh

/-- The process has one outcome for each input. -/
theorem Process.deterministic_step : Deterministic (Process.Step (n := n) debug) :=
  Reporting.deterministic_step fun _ => ServerWorker.deterministic_step

/-! ### Ids in use -/

/-- A message uses the client it is from. -/
theorem Notification.inUse_of_data {n : Notification} {msg : Bytes}
    (h : n.event = .data client_id msg) : n.inUse = [client_id] := by
  cases n with
  | onClientConnected _ _ | onClientDisconnected _ _ => cases h
  | onReceive _ client_id' _ _ | onReceiveProtocol _ client_id' _ _ _ =>
      obtain ⟨rfl, -⟩ := Event.data.inj h
      rfl

/-- An id comes into use with the report of its client. -/
theorem Moves.inUse {ids ids' : List ℕ} {ns : List Notification}
    (hm : Moves server_id ids ns ids')
    (h : client_id ∈ ids' ∨ client_id ∈ ns.flatMap Notification.inUse) :
    client_id ∈ ids ∨ .onClientConnected server_id client_id ∈ ns := by
  cases hm with
  | quiet => simpa using h
  | connected h0 hnew => simpa [Notification.inUse] using h
  | received hid hn hmem =>
      rw [List.flatMap_singleton, Notification.inUse_of_data hn, List.mem_singleton] at h
      rcases h with h | rfl
      · exact .inl h
      · exact .inl hmem
  | disconnected hid =>
      rw [List.flatMap_singleton, Notification.inUse] at h
      exact .inl (List.mem_of_mem_erase (h.resolve_right List.not_mem_nil))
  | datagram h0 hnew =>
      simp only [List.flatMap_cons, List.flatMap_nil, Notification.inUse, List.mem_append,
        List.mem_singleton, List.not_mem_nil, or_false, or_self] at h
      rcases h with h | rfl
      · exact .inl h
      · exact .inr List.mem_cons_self

/-- No two servers have a client with one id. -/
def Process.Apart (s : Process n) : Prop :=
  ∀ k k' client_id, client_id ∈ s.inUse k → client_id ∈ s.inUse k' → k = k'

/-- What each worker has told, and which ids are in use. -/
structure Process.Sound (s₀ : Process n) (os : List (Fin n × Notification)) (s : Process n) :
    Prop where
  log : ∀ k, ServerWorker.Log (s₀.components k) (Reporting.sublog k os ++ s.pending k)
    (s.components k)
  apart : s.Apart

/-- What a worker has done brings into use the ids of the clients that it is going to report. -/
theorem Process.inUse_work {w : ServerWorker} {ns : List Notification}
    (hm : Moves server_id (s.components k').server.clientIds ns w.server.clientIds)
    (h : client_id ∈ Process.inUse
      { components := Function.update s.components k' w
        pending := Function.update s.pending k' (s.pending k' ++ ns) } k) :
    client_id ∈ s.inUse k ∨ k = k' ∧ .onClientConnected server_id client_id ∈ ns := by
  by_cases hk : k = k'
  · subst hk
    simp only [inUse, Function.update_self, List.flatMap_append, List.mem_append] at h ⊢
    have hnew : client_id ∈ w.server.clientIds ∨ client_id ∈ ns.flatMap Notification.inUse →
        client_id ∈ (s.components k).server.clientIds ∨ _ := hm.inUse
    grind
  · simp only [inUse, Function.update_of_ne hk] at h
    exact .inl h

/-- Reporting what is pending brings no client into use. -/
theorem Process.inUse_report {x : Notification} {rest : List Notification}
    (hx : s.pending k' = x :: rest)
    (h : client_id ∈ Process.inUse { s with pending := Function.update s.pending k' rest } k) :
    client_id ∈ s.inUse k := by
  by_cases hk : k = k'
  · subst hk
    simp only [inUse, Function.update_self, hx, List.flatMap_cons, List.mem_append] at h ⊢
    exact h.imp_right .inr
  · simpa only [inUse, Function.update_of_ne hk] using h

/-- A step brings ids into use at its own server only, and these were not in use anywhere. -/
theorem Process.Apart.step (h : s.Apart)
    (hlog : ∀ k, Told ((Reporting.sublog k os ++ s.pending k).map Notification.event)
      (s.components k).server.clientIds) (ht : Process.Step debug s i s' o) : s'.Apart := by
  cases ht with
  | @work _ k₀ j w ns hwait hfresh hw =>
      have hm := hw.moves (hlog k₀).nodup (hlog k₀).zero_notMem
      intro k k' client_id hk hk'
      rcases Process.inUse_work hm hk with hold | ⟨rfl, hnew⟩
      · rcases Process.inUse_work hm hk' with hold' | ⟨rfl, hnew⟩
        · exact h k k' client_id hold hold'
        · exact absurd hold (hfresh _ client_id hnew k)
      · rcases Process.inUse_work hm hk' with hold' | ⟨rfl, -⟩
        · exact absurd hold' (hfresh _ client_id hnew k')
        · rfl
  | report hx =>
      exact fun k k' client_id hk hk' => h k k' client_id (Process.inUse_report hx hk)
        (Process.inUse_report hx hk')

end

end AnyServer
