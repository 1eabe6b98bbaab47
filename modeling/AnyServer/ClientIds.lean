import AnyServer.Disconnects
import AnyServer.Sending
import AnyServer.ServerIds
import AnyServer.ServerLoops

/-!
# Client Ids over Time

The id of a client is the address of its `m_client_id`. The object is freed when the client is
removed, so the next client may get the same address, and with it the id of a client that has
gone. What the allocator does promise is that a new object shares its address with no object
that is live; in the workers this is the guard on every new client's id.

`ServerRun` are the runs of a server of any of the six classes, with what it has reported. The
clients reported connected and not disconnected since are those registered (`Registered`), so
an id can come again only after a disconnect under it.

## Main results

* `serverRun_registered`: the ids reported open are the ids registered.
* `clientIds_recycled_late`: between two clients with one id there is a disconnect, after which
  nothing is sent under the id until a client connects under it again.
-/

namespace AnyServer

open Lts Session

/-! ### The runs of a server -/

/-- A run of a server from the time it has no clients, with the notifications it has made. The
socket servers' workers and the callbacks of the libwebsockets servers are interleaved with
stores of other threads to `m_run_thread`. -/
inductive ServerRun : BaseServerImpl → List Notification → Prop
  | inetTcp {w₀ w : EpollWorker} {is : List EpollInput} {os : List EpollObs} (h₀ : w₀.Initial)
      (h : Run InetDomainSocketTcpServer.Step w₀ is os w) :
      ServerRun (.inetTcp w.server) (os.flatMap EpollObs.notification)
  | unixTcp {w₀ w : EpollWorker} {is : List EpollInput} {os : List EpollObs} (h₀ : w₀.Initial)
      (h : Run UnixDomainSocketTcpServer.Step w₀ is os w) :
      ServerRun (.unixTcp w.server) (os.flatMap EpollObs.notification)
  | inetUdp {debug : Bool} {w₀ w : UdpWorker} {is : List UdpInput} {os : List UdpObs}
      (h₀ : w₀.Initial .inet) (h : Run (InetDomainSocketUdpServer.Step debug) w₀ is os w) :
      ServerRun (.inetUdp w.server) (os.flatMap UdpObs.notification)
  | unixUdp {debug : Bool} {w₀ w : UdpWorker} {is : List UdpInput} {os : List UdpObs}
      (h₀ : w₀.Initial .unix) (h : Run (UnixDomainSocketUdpServer.Step debug) w₀ is os w) :
      ServerRun (.unixUdp w.server) (os.flatMap UdpObs.notification)
  | http {server₀ server : HttpTcpServer} {is : List (ServerInput HttpCallback)}
      {ns : List Notification} (h₀ : server₀.m_client_list = [])
      (h : Run HttpTcpServer.Driven server₀ is ns server) : ServerRun (.http server) ns
  | webSocket {server₀ server : WebSocketTcpServer} {is : List (ServerInput WebSocketCallback)}
      {ns : List Notification} (h₀ : server₀.m_client_list = [])
      (h : Run WebSocketTcpServer.Driven server₀ is ns server) :
      ServerRun (.webSocket server) ns

/-- What an attempt to send hands to a connection. -/
def Attempt.writes (a : Attempt) : List Write :=
  match a.outcome with
  | some (_, writes) => writes
  | none => []

/-! ### The ids reported and the ids registered -/

/-- The ids registered are those that the log has open, and no new client has got one of
them. -/
structure Registered (log : List (Event ℕ Bytes)) (ids : List ℕ) : Prop where
  fresh : OpensFresh log
  perm : (outstanding log).Perm ids
  zero_notMem : 0 ∉ ids

section Registered

variable {log : List (Event ℕ Bytes)} {ids : List ℕ} {id : ℕ}

/-- Before any connection nobody is registered. -/
theorem Registered.nil : Registered [] [] :=
  ⟨opensFresh_nil, .nil, List.not_mem_nil⟩

/-- The ids in use at one time are distinct. -/
theorem Registered.nodup (h : Registered log ids) : ids.Nodup :=
  h.perm.nodup_iff.mp h.fresh.nodup_outstanding

/-- A client with an id that no other client has. -/
theorem Registered.opened (h : Registered log ids) (h0 : id ≠ 0) (hnew : id ∉ ids) :
    Registered (log ++ [.opened id]) (ids ++ [id]) := by
  refine ⟨opensFresh_concat.mpr ⟨h.fresh, ?_⟩, ?_, ?_⟩
  · intro id' he
    obtain rfl : id = id' := by simpa using he
    rwa [h.perm.mem_iff]
  · rw [outstanding_concat]
    exact (h.perm.cons id).trans (List.perm_append_singleton id ids).symm
  · rw [List.mem_append, List.mem_singleton, not_or]
    exact ⟨h.zero_notMem, h0.symm⟩

/-- A message changes nobody's registration. -/
theorem Registered.data (h : Registered log ids) (id : ℕ) (d : Bytes) :
    Registered (log ++ [.data id d]) ids := by
  refine ⟨opensFresh_concat.mpr ⟨h.fresh, by simp⟩, ?_, h.zero_notMem⟩
  rw [outstanding_concat]
  exact h.perm

/-- A removal, which reports an id that is registered or the value for not found. -/
theorem Registered.closed (h : Registered log ids) (id : ℕ) :
    Registered (log ++ [.closed id]) (ids.erase id) := by
  refine ⟨opensFresh_concat.mpr ⟨h.fresh, by simp⟩, ?_, ?_⟩
  · rw [outstanding_concat]
    exact h.perm.erase id
  · exact fun hmem => h.zero_notMem (List.mem_of_mem_erase hmem)

/-- Removal by fd, whether it finds a client or not. -/
theorem Registered.removeClientInfoFd {C : Type} [IsTcpClientInfo C] {l : List C} {fd : ℤ}
    (h : Registered log (clientIds l)) :
    Registered (log ++ [.closed (removeClientInfoFd l fd).2])
      (clientIds (removeClientInfoFd l fd).1) := by
  rw [clientIds_removeClientInfoFd h.nodup h.zero_notMem]
  exact h.closed _

/-- Each callback of libwebsockets keeps the log and the client list in step. -/
theorem LwsServer.Step.registered {C : Type} [IsTcpClientInfo C] {server server' : LwsServer C}
    {i : LwsInput C} {o : List (Event ℕ Bytes)} (ht : LwsServer.Step server i server' o)
    (h : Registered log (clientIds server.m_client_list)) :
    Registered (log ++ o) (clientIds server'.m_client_list) := by
  cases ht with
  | store m_run_thread | idle hg hi => simpa using h
  | announce hg h0 hnew => simpa using h.opened h0 hnew
  | close hg => exact h.removeClientInfoFd
  | other hg ho =>
      induction o using List.reverseRecOn with
      | nil => simpa using h
      | append_singleton o e ih =>
          obtain ⟨id, d, rfl⟩ := ho e (by simp)
          rw [← List.append_assoc]
          exact (ih fun e he => ho e (by simp [he])).data _ d

/-- So does every run that starts with no clients. -/
theorem LwsServer.run_registered {C : Type} [IsTcpClientInfo C] {server₀ server : LwsServer C}
    {is : List (LwsInput C)} {os : List (Event ℕ Bytes)} (h₀ : server₀.m_client_list = [])
    (h : Run LwsServer.Step server₀ is os server) :
    Registered os (clientIds server.m_client_list) := by
  refine h.invariant (P := fun _ log s => Registered log (clientIds s.m_client_list)) ?_
    fun _ ih ht => ht.registered ih
  rw [h₀]
  exact .nil

/-- Each step of the epoll loop keeps the log and the client list in step. -/
theorem EpollWorker.Step.registered {kind : EpollKind} {w w' : EpollWorker} {i : EpollInput}
    {o : List EpollObs} (ht : EpollWorker.Step kind w i w' o)
    (h : Registered log (clientIds w.server.m_client_list)) :
    Registered (log ++ (o.flatMap EpollObs.notification).map Notification.event)
      (clientIds w'.server.m_client_list) := by
  cases ht with
  | store b | entry _ | enter _ _ | leave _ _ | wait _ _ _ | again _ => simpa using h
  | handle sys hpc hl hs =>
      cases handleEvent_effect hs with
      | accepted hfd =>
          obtain ⟨h0, hnew⟩ := hl.client_id hfd
          rw [clientIds_concat]
          exact h.opened h0 hnew
      | disconnected hfd hread => exact h.removeClientInfoFd
      | received bs client hfd hread hbs hc => exact h.data _ _

/-- A pass of the loop forgets the client that it has made. -/
theorem UdpWorker.Step.registered {kind : UdpKind} {debug : Bool} {w w' : UdpWorker}
    {i : UdpInput} {o : List UdpObs} (ht : UdpWorker.Step kind debug w i w' o)
    (h : Registered log (clientIds w.server.m_client_list)) :
    Registered (log ++ (o.flatMap UdpObs.notification).map Notification.event)
      (clientIds w'.server.m_client_list) := by
  cases ht.effect with
  | stored _ | entered _ | again _ _ | left _ _ => simpa using h
  | @pass r _ _ hpc hl hcomm =>
      obtain ⟨hserver, hns⟩ := communication_notifications hl hcomm
      obtain ⟨-, h0, hnew⟩ := hl
      rw [hserver, hns]
      have hpass := ((h.opened h0 hnew).data r.m_client_id
        ((w.recvfrom r.recvfrom).buffer.take ((w.recvfrom r.recvfrom).readn % 2 ^ 32).toNat)).closed
          r.m_client_id
      have hids : (clientIds w.server.m_client_list ++ [r.m_client_id]).erase r.m_client_id =
          clientIds w.server.m_client_list := by
        rw [List.erase_append_right _ hnew, List.erase_cons_head, List.append_nil]
      rw [hids, List.append_assoc, List.append_assoc] at hpass
      exact hpass

/-- **The ids reported open are the ids registered**, in every run of every server. -/
theorem serverRun_registered {server : BaseServerImpl} {ns : List Notification}
    (h : ServerRun server ns) :
    Registered (ns.map Notification.event) server.clientIds := by
  cases h with
  | inetTcp h₀ h | unixTcp h₀ h =>
      refine h.invariant (P := fun _ os w =>
        Registered ((os.flatMap EpollObs.notification).map Notification.event)
          (clientIds w.server.m_client_list)) ?_ fun _ ih ht => ?_
      · rw [h₀.client_list]
        exact .nil
      · rw [List.flatMap_append, List.map_append]
        exact ht.registered ih
  | inetUdp h₀ h | unixUdp h₀ h =>
      refine h.invariant (P := fun _ os w =>
        Registered ((os.flatMap UdpObs.notification).map Notification.event)
          (clientIds w.server.m_client_list)) ?_ fun _ ih ht => ?_
      · rw [h₀.client_list]
        exact .nil
      · rw [List.flatMap_append, List.map_append]
        exact ht.registered ih
  | http h₀ h =>
      exact LwsServer.run_registered h₀
        (h.simulate _ _ _ fun h => HttpTcpServer.driven_simulates h)
  | webSocket h₀ h =>
      exact LwsServer.run_registered h₀
        (h.simulate _ _ _ fun h => WebSocketTcpServer.driven_simulates h)

end Registered

/-! ### Notifications carry the id of the server -/

section

variable {server : BaseServerImpl} {ns : List Notification}

/-- Only `onClientConnected` opens an id. -/
theorem Notification.eq_of_event_opened {n : Notification} {client_id : ℕ}
    (h : n.event = .opened client_id) : n = .onClientConnected n.server_id client_id := by
  cases n with
  | onClientConnected server_id client_id' =>
      obtain rfl : client_id' = client_id := by simpa [Notification.event] using h
      rfl
  | onClientDisconnected _ _ | onReceive _ _ _ _ | onReceiveProtocol _ _ _ _ _ => cases h

/-- Only `onClientDisconnected` closes an id. -/
theorem Notification.eq_of_event_closed {n : Notification} {client_id : ℕ}
    (h : n.event = .closed client_id) : n = .onClientDisconnected n.server_id client_id := by
  cases n with
  | onClientDisconnected server_id client_id' =>
      obtain rfl : client_id' = client_id := by simpa [Notification.event] using h
      rfl
  | onClientConnected _ _ | onReceive _ _ _ _ | onReceiveProtocol _ _ _ _ _ => cases h

/-- A store between callbacks does not touch the server's id. -/
theorem withStores_const {S CB : Type} {T : Lts S CB Notification} {store : S → Bool → S}
    {f : S → ℕ} (hstore : ∀ s b, f (store s b) = f s)
    (hT : ∀ {s cb s' o}, T s cb s' o → f s' = f s ∧ ∀ n ∈ o, n.server_id = f s)
    {s₀ s : S} {is : List (ServerInput CB)} (h : Run (withStores T store) s₀ is ns s) :
    ∀ n ∈ ns, n.server_id = f s := by
  have hconst := h.const (f := f) (Q := fun id n => n.server_id = id) fun {s i s' o} ht => by
    cases i with
    | callback cb => exact hT ht
    | store b =>
        obtain ⟨rfl, rfl⟩ := ht
        exact ⟨hstore s b, by simp⟩
  rw [hconst.1]
  exact hconst.2

/-- A run of a server reports under the server's id only. -/
theorem serverRun_server_id (h : ServerRun server ns) :
    ∀ n ∈ ns, n.server_id = server.getId := by
  cases h with
  | inetTcp h₀ h | unixTcp h₀ h =>
      have hconst := h.const (f := fun w => w.server.m_server_id)
        (Q := fun id x => ∀ conn n, x = .notify conn n → n.server_id = id)
        EpollWorker.Step.server_id
      intro n hn
      obtain ⟨x, hx, hxn⟩ := List.mem_flatMap.mp hn
      cases x with
      | read conn bs => cases hxn
      | notify conn m =>
          obtain rfl : n = m := by simpa [EpollObs.notification] using hxn
          exact (hconst.2 _ hx conn n rfl).trans hconst.1.symm
  | inetUdp h₀ h | unixUdp h₀ h =>
      have hconst := h.const (f := fun w => w.server.m_server_id)
        (Q := fun id x => ∀ n, x = .notify n → n.server_id = id) UdpWorker.Step.server_id
      intro n hn
      obtain ⟨x, hx, hxn⟩ := List.mem_flatMap.mp hn
      cases x with
      | notify m =>
          obtain rfl : n = m := by simpa [UdpObs.notification] using hxn
          exact (hconst.2 _ hx n rfl).trans hconst.1.symm
      | registered sender m_sockaddr | replied sender w => cases hxn
  | http h₀ h =>
      have h : Run (withStores HttpTcpServer.Step _) _ _ ns _ := h
      refine withStores_const (f := HttpTcpServer.m_server_id) ?_ ?_ h
      · exact fun _ _ => rfl
      · exact fun ht => callbackHttp_server_id ht.2
  | webSocket h₀ h =>
      have h : Run (withStores WebSocketTcpServer.Step _) _ _ ns _ := h
      refine withStores_const (f := WebSocketTcpServer.m_server_id) ?_ ?_ h
      · exact fun _ _ => rfl
      · exact fun ht => callbackWebSocket_server_id ht.2

/-! ### When an id comes again -/

/-- Nothing is handed to a client that is not registered. -/
theorem attempt_writes {overload : Overload} {client_id : ℕ} {msg : Bytes} {r : SendResults}
    (h : client_id ∉ server.clientIds) :
    (server.attempt overload client_id msg r).writes = [] := by
  cases overload with
  | plain =>
      simp only [BaseServerImpl.attempt, BaseServerImpl.sendToClient_eq_none_iff.mpr h,
        Attempt.writes]
  | protocol protocol =>
      simp only [BaseServerImpl.attempt, BaseServerImpl.sendToClientProtocol_of_notMem h,
        Attempt.writes]

/-- What the factory hands over when it is told to send to a client of `server`. -/
theorem sendToClient_writes {s s' : Sending} {o : List Attempt} {client_id : ℕ} {msg : Bytes}
    {r : SendResults}
    (hroute : s.m_servers.find? (fun server' => server.getId == server'.getId) = some server)
    (h : client_id ∉ server.clientIds)
    (hs : s.next (.sendToClient server.getId client_id msg r) = some (s', o)) :
    ∀ a ∈ o, a.writes = [] := by
  simp only [Sending.next, hroute] at hs
  split at hs
  · obtain ⟨-, rfl⟩ := Prod.mk.inj (Option.some.inj hs)
    intro a ha
    rw [List.mem_singleton.mp ha]
    exact attempt_writes h
  · cases hs

/-- **When a client's id comes again.** In every run of a server, a client gets the id of an
earlier one only after a disconnect under that id; and after a disconnect nothing is sent under
the id until a client connects under it again. -/
theorem clientIds_recycled_late (h : ServerRun server ns) :
    (∀ pre mid post client_id,
      ns = pre ++ .onClientConnected server.getId client_id ::
        (mid ++ .onClientConnected server.getId client_id :: post) →
      .onClientDisconnected server.getId client_id ∈ mid) ∧
    ∀ pre post client_id,
      ns = pre ++ .onClientDisconnected server.getId client_id :: post →
      .onClientConnected server.getId client_id ∉ post →
      ∀ (s s' : Sending) (msg : Bytes) (r : SendResults) (o : List Attempt),
        s.m_servers.find? (fun server' => server.getId == server'.getId) = some server →
        s.next (.sendToClient server.getId client_id msg r) = some (s', o) →
        ∀ a ∈ o, a.writes = [] := by
  have hreg := serverRun_registered h
  have hid := serverRun_server_id h
  constructor
  · intro pre mid post client_id hns
    have hfresh := hreg.fresh
    rw [hns] at hfresh
    simp only [List.map_append, List.map_cons, Notification.event] at hfresh
    obtain ⟨n, hn, hclosed⟩ := List.mem_map.mp hfresh.closed_between
    have hserver : n.server_id = server.getId := hid n (by simp [hns, hn])
    rw [Notification.eq_of_event_closed hclosed, hserver] at hn
    exact hn
  · intro pre post client_id hns hpost s s' msg r o hroute hs
    refine sendToClient_writes hroute ?_ hs
    have hfresh := hreg.fresh
    have hperm := hreg.perm
    rw [hns] at hfresh hperm
    simp only [List.map_append, List.map_cons, Notification.event] at hfresh hperm
    rw [← hperm.mem_iff]
    refine hfresh.notMem_outstanding_of_closed fun hopened => ?_
    obtain ⟨n, hn, hopened⟩ := List.mem_map.mp hopened
    have hserver : n.server_id = server.getId := hid n (by simp [hns, hn])
    rw [Notification.eq_of_event_opened hopened, hserver] at hn
    exact hpost hn

end

/-! ### An id that comes again -/

/-- The websocket server's first client has gone, and the second is allocated where it was. -/
def clientAfterClient : List WebSocketCallback :=
  oneSession ++ [⟨1, 5, .established 16 [47, 97]⟩]

/-- A factory with one server. -/
def factoryOf (server : BaseServerImpl) : Sending :=
  { m_servers := [server], call := .idle }

/-- Two clients of which the first goes, and then another one that is allocated where it was. -/
def overlappingClients : List WebSocketCallback :=
  [⟨0, 5, .established 16 [47, 97]⟩, ⟨1, 6, .established 32 [47, 97]⟩, ⟨0, 5, .closed⟩,
    ⟨2, 5, .established 16 [47, 98]⟩]

/-- Between the two clients with one id the first is reported disconnected; until the second one
comes, nothing is sent under the id. -/
theorem clientIds_recycled_late_overlappingClients :
    .onClientDisconnected 2 16 ∈
        [Notification.onClientConnected 2 32, .onClientDisconnected 2 16] ∧
      ∃ server, Run WebSocketTcpServer.Step webSocketServer (overlappingClients.take 3)
          [.onClientConnected 2 16, .onClientConnected 2 32, .onClientDisconnected 2 16] server ∧
        ∀ s' o, (factoryOf (.webSocket server)).next (.sendToClient 2 16 [7] allWritten) =
          some (s', o) → ∀ a ∈ o, a.writes = [] := by
  have hall : Run WebSocketTcpServer.Step webSocketServer overlappingClients
      [.onClientConnected 2 16, .onClientConnected 2 32, .onClientDisconnected 2 16,
        .onClientConnected 2 16] _ := run_guarded_of_exec rfl
  have hgone : Run WebSocketTcpServer.Step webSocketServer (overlappingClients.take 3)
      [.onClientConnected 2 16, .onClientConnected 2 32, .onClientDisconnected 2 16] _ :=
    run_guarded_of_exec rfl
  refine ⟨?_, _, hgone, fun s' o hsend => ?_⟩
  · exact (clientIds_recycled_late (.webSocket rfl (run_withStores hall))).1 [] _ [] 16 rfl
  · exact (clientIds_recycled_late (.webSocket rfl (run_withStores hgone))).2
      [.onClientConnected 2 16, .onClientConnected 2 32] [] 16 rfl (by simp) _ s' [7] allWritten o
      rfl hsend

/-- The second client gets the id of the first, which has been reported disconnected, and what
is sent under the id goes to the second client's connection. -/
theorem clientId_recycled :
    ∃ server, ServerRun (.webSocket server)
        [.onClientConnected 2 16, .onClientDisconnected 2 16, .onClientConnected 2 16] ∧
      (factoryOf (.webSocket server)).next (.sendToClient 2 16 [7] allWritten) =
        some (factoryOf (.webSocket server),
          [⟨.plain, 16, true, some (true, [.lwsWrite 1 [7]])⟩]) := by
  have hrun : ∃ server, Run WebSocketTcpServer.Step webSocketServer clientAfterClient
      [.onClientConnected 2 16, .onClientDisconnected 2 16, .onClientConnected 2 16] server ∧
      (factoryOf (.webSocket server)).next (.sendToClient 2 16 [7] allWritten) =
        some (factoryOf (.webSocket server),
          [⟨.plain, 16, true, some (true, [.lwsWrite 1 [7]])⟩]) :=
    ⟨_, run_guarded_of_exec rfl, rfl⟩
  obtain ⟨server, hrun, hsend⟩ := hrun
  exact ⟨server, .webSocket rfl (run_withStores hrun), hsend⟩

end AnyServer
