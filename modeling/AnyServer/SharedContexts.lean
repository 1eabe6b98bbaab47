import AnyServer.AnyServerImpl
import AnyServer.ServerIds

/-!
# Contexts That Servers Share

The two libwebsockets classes keep their context in a static member: every `init` creates a
context with a port and a user pointer of its own, and stores it over that of the server
before. After the `init`s of a configuration, `m_context` is the context of the last server of
the class, and it is this one that every worker of the class services and that every
callback takes its server from. The configuration file that comes with the source says of both
types that such a server "can work only for single instance".

A context is known by the position of the server that has created it: its port and its user
pointer are those of that server. `SharedContexts.next` interleaves the workers; what they
do with a context is observed as `Serviced`, with the server that the callback works for.

## Main results

* `initContexts_spec`: what the `init`s leave in `m_context`.
* `events_belong_iff`: with which configurations all events belong to the server that they
  happen on.
-/

namespace AnyServer

open Lts

/-! ### After the `init`s -/

/-- The type of a server in the configuration. -/
def ServerKind.kinds : ServerKind → ServerKinds
  | .inetDomainSocketTcpServer | .inetDomainSocketUdpServer => .INETDS
  | .unixDomainSocketTcpServer | .unixDomainSocketUdpServer => .UNIXDS
  | .httpTcpServer => .HTTP
  | .webSocketTcpServer => .WEBSOCKET

/-- The class of a server. -/
def BaseServerImpl.kind : BaseServerImpl → ServerKind
  | .inetTcp _ => .inetDomainSocketTcpServer
  | .unixTcp _ => .unixDomainSocketTcpServer
  | .inetUdp _ => .inetDomainSocketUdpServer
  | .unixUdp _ => .unixDomainSocketUdpServer
  | .http _ => .httpTcpServer
  | .webSocket _ => .webSocketTcpServer

/-- The static `m_context` of each class after the `init`s of the servers from position `k`
on. -/
def initContexts (sys : ℕ → InitResults) :
    ℕ → List ServerSettings → (ServerKind → Option ℕ) → ServerKind → Option ℕ
  | _, [], m_context => m_context
  | k, server :: servers, m_context =>
      initContexts sys (k + 1) servers
        (match server.storesContext (sys k) with
        | some created => Function.update m_context server.kind (if created then some k else none)
        | none => m_context)

/-- The servers with the static members of their classes: `m_context`, and the `req_body` of
the HTTP callback. -/
structure SharedContexts where
  m_servers : List BaseServerImpl
  m_context : ServerKind → Option ℕ
  req_body : Bytes

/-- A factory after its `init`, which has made the calls with the results `sys`. -/
def ServerFactory.contexts (hash : Bytes → ℕ) (sys : ℕ → InitResults) (factory : ServerFactory) :
    SharedContexts :=
  { m_servers := factory.m_servers.map (·.construct hash)
    m_context := initContexts sys 0 factory.m_servers fun _ => none
    req_body := [] }

/-! ### The workers -/

/-- A callback that `lws_service` makes. -/
inductive LwsCallback
  | http (cb : HttpCallback)
  | webSocket (cb : WebSocketCallback)
  deriving DecidableEq, Repr

/-- The id of the client object that the callback allocates. -/
def LwsCallback.newClientId : LwsCallback → Option ℕ
  | .http cb => cb.reason.newClientId
  | .webSocket cb => cb.reason.newClientId

/-- A step of the worker of the server at `k`: its first statement, or a callback for a
connection of the context that it services. -/
inductive ContextsInput
  | entry (k : ℕ)
  | service (k : ℕ) (cb : LwsCallback)
  deriving DecidableEq, Repr

/-- A callback: the worker that makes it, the context whose connection it is about, the server
that it works for, and what is reported. -/
structure Serviced where
  worker : ℕ
  context : ℕ
  server : ℕ
  newClientId : Option ℕ
  notifications : List Notification
  deriving DecidableEq, Repr

/-- `__http_thread__` and `__websocket_thread__` up to the loop. -/
def SharedContexts.entry (s : SharedContexts) (k : ℕ) : Option SharedContexts :=
  match s.m_servers[k]? with
  | some (.http server) =>
      some { s with m_servers := s.m_servers.set k (.http { server with m_run_thread := true }) }
  | some (.webSocket server) =>
      some { s with
        m_servers := s.m_servers.set k (.webSocket { server with m_run_thread := true }) }
  | _ => none

/-- A turn of `__http_thread__`: `lws_service(m_context)`, and in it a callback, for the server
`lws_context_user(m_context)`. -/
def SharedContexts.serviceHttp (s : SharedContexts) (k : ℕ) (worker : HttpTcpServer)
    (cb : HttpCallback) : Option (SharedContexts × List Serviced) :=
  if worker.m_run_thread = false then none
  else do
    let context ← s.m_context .httpTcpServer
    match s.m_servers[context]? with
    | some (.http server) => do
        let r ← callbackHttp { server with m_context := true, req_body := s.req_body } cb
        some ({ s with m_servers := s.m_servers.set context (.http r.1), req_body := r.1.req_body },
          [{ worker := k, context, server := context, newClientId := cb.reason.newClientId,
             notifications := r.2 }])
    | _ => none

/-- A turn of `__websocket_thread__`. -/
def SharedContexts.serviceWebSocket (s : SharedContexts) (k : ℕ) (worker : WebSocketTcpServer)
    (cb : WebSocketCallback) : Option (SharedContexts × List Serviced) :=
  if worker.m_run_thread = false then none
  else do
    let context ← s.m_context .webSocketTcpServer
    match s.m_servers[context]? with
    | some (.webSocket server) => do
        let r ← callbackWebSocket { server with m_context := true } cb
        some ({ s with m_servers := s.m_servers.set context (.webSocket r.1) },
          [{ worker := k, context, server := context, newClientId := cb.reason.newClientId,
             notifications := r.2 }])
    | _ => none

/-- One step of a worker that shares the context of its class. -/
def SharedContexts.next (s : SharedContexts) :
    ContextsInput → Option (SharedContexts × List Serviced)
  | .entry k => (s.entry k).map (·, [])
  | .service k cb =>
      match s.m_servers[k]?, cb with
      | some (.http worker), .http cb => s.serviceHttp k worker cb
      | some (.webSocket worker), .webSocket cb => s.serviceWebSocket k worker cb
      | _, _ => none

/-- The workers after `start`. -/
abbrev SharedContexts.Step : Lts SharedContexts ContextsInput Serviced :=
  ofFn SharedContexts.next

/-! ### What belongs to a server -/

/-- The worker services the context of its own server, and what happens on that context is
done to this server, registered with it and reported with its id. -/
structure Serviced.Belongs (s' : SharedContexts) (x : Serviced) : Prop where
  own : x.context = x.worker
  same : x.server = x.context
  registered : ∀ client_id ∈ x.newClientId, ∃ server, s'.m_servers[x.context]? = some server ∧
    client_id ∈ server.clientIds ∧
    x.notifications = [.onClientConnected server.getId client_id]
  reported : ∀ n ∈ x.notifications, ∃ server, s'.m_servers[x.context]? = some server ∧
    n.server_id = server.getId

/-- All that a step does belongs to its server, and the other servers are left alone. -/
def EventsBelong (s : SharedContexts) (i : ContextsInput) (s' : SharedContexts)
    (o : List Serviced) : Prop :=
  ∀ k cb, i = .service k cb →
    (∀ x ∈ o, x.Belongs s') ∧ ∀ j ≠ k, s'.m_servers[j]? = s.m_servers[j]?

/-- At most one entry of this type is enabled. -/
def JsonConfiguration.Single (configuration : JsonConfiguration) (kinds : ServerKinds) : Prop :=
  (configuration.server_infos.filter fun e => e.enable ∧ e.kinds = kinds).length ≤ 1

instance {configuration : JsonConfiguration} {kinds : ServerKinds} :
    Decidable (configuration.Single kinds) :=
  inferInstanceAs (Decidable (_ ≤ 1))

/-! ### What the `init`s leave -/

section

variable {hash : Bytes → ℕ} {sys : ℕ → InitResults} {env : InitEnv} {factory : ServerFactory}
  {servers : List ServerSettings} {kind : ServerKind}
  {k : ℕ} {s s' : SharedContexts} {i : ContextsInput} {cb : LwsCallback} {o os : List Serviced}
  {is : List ContextsInput}

/-- An `init` that returns `true` has had the `init` of every server return `true`. -/
theorem ServerFactory.allInit (h : ServerFactory.init {} env = (.ok true, factory)) :
    AllInit env.sys 0 factory.m_servers := by
  obtain ⟨root, -, -, -, hi⟩ := ServerFactory.created_of_init h
  obtain ⟨n, -, -, hn, hall⟩ := initServers_eq hi
  exact hall.mp (hn.mp rfl)

/-- **What the `init`s leave in `m_context`**: the context of a server of the class, if there
is one. -/
theorem initContexts_spec (m_context : ServerKind → Option ℕ) (hk : kind.service = true)
    (h : AllInit sys k servers) :
    (∀ server ∈ servers, server.kind ≠ kind) ∧
        initContexts sys k servers m_context kind = m_context kind ∨
      ∃ j, (servers.map ServerSettings.kind)[j]? = some kind ∧
        initContexts sys k servers m_context kind = some (k + j) := by
  induction servers generalizing k m_context with
  | nil => exact .inl ⟨by simp, rfl⟩
  | cons server servers ih =>
      obtain ⟨hfirst, hrest⟩ := allInit_cons.mp h
      rw [initContexts]
      rcases ih _ hrest with ⟨hnone, heq⟩ | ⟨j, hj, heq⟩
      · by_cases hserver : server.kind = kind
        · refine .inr ⟨0, by simp [hserver], ?_⟩
          rw [heq, storesContext_of_true (hserver ▸ hk) hfirst]
          simp [hserver]
        · refine .inl ⟨?_, ?_⟩
          · rintro server' (_ | ⟨_, hmem⟩)
            · exact hserver
            · exact hnone server' hmem
          · rw [heq]
            cases server.storesContext (sys k) with
            | none => rfl
            | some created => exact Function.update_of_ne (Ne.symm hserver) ..
      · refine .inr ⟨j + 1, hj, ?_⟩
        rw [heq, Nat.add_assoc, Nat.add_comm 1]

/-! ### A callback -/

/-- An lws type has one class. -/
theorem kinds_eq_iff {kind' : ServerKind} (hk : kind.service = true) :
    kind'.kinds = kind.kinds ↔ kind' = kind := by
  cases kind <;> cases hk <;> cases kind' <;> decide

/-- A server is of the type that its entry has. -/
theorem createServer_kinds {capabilities : Capabilities} {server_info : ServerInfo}
    {server : ServerSettings} (h : createServer capabilities server_info = some server) :
    server.kind.kinds = server_info.kinds := by
  simp only [createServer] at h
  split at h <;> split at h <;> cases h <;> symm <;> assumption

/-- A server is of the class that its settings say. -/
theorem kind_construct {server : ServerSettings} : (server.construct hash).kind = server.kind := by
  rw [ServerSettings.construct]
  split <;> simp_all [BaseServerImpl.kind]

/-- What a callback for the context `context` does, which the worker at `k` makes. -/
structure ServiceEffect (s : SharedContexts) (k : ℕ) (cb : LwsCallback) (kind : ServerKind)
    (context : ℕ) (s' : SharedContexts) (o : List Serviced) : Prop where
  service : kind.service = true
  worker : (s.m_servers.map BaseServerImpl.kind)[k]? = some kind
  m_context : s.m_context kind = some context
  keeps : s'.m_context = s.m_context
  kinds : s'.m_servers.map BaseServerImpl.kind = s.m_servers.map BaseServerImpl.kind
  others : ∀ j ≠ context, s'.m_servers[j]? = s.m_servers[j]?
  observed : ∃ ns, o = [⟨k, context, context, cb.newClientId, ns⟩] ∧
    ∃ server, s'.m_servers[context]? = some server ∧ (∀ n ∈ ns, n.server_id = server.getId) ∧
      (context = k → ∀ client_id ∈ cb.newClientId,
        client_id ∈ server.clientIds ∧ ns = [.onClientConnected server.getId client_id])

/-- A callback that has changed the server at `context` into `server'`. -/
theorem ServiceEffect.of_callback {context : ℕ} {server server' : BaseServerImpl}
    {ns : List Notification} (hservice : kind.service = true)
    (hworker : (s.m_servers.map BaseServerImpl.kind)[k]? = some kind)
    (hcontext : s.m_context kind = some context) (hserver : s.m_servers[context]? = some server)
    (hkeeps : s'.m_context = s.m_context)
    (hservers : s'.m_servers = s.m_servers.set context server')
    (hkind : server'.kind = server.kind) (hns : ∀ n ∈ ns, n.server_id = server'.getId)
    (hnew : context = k → ∀ client_id ∈ cb.newClientId,
      client_id ∈ server'.clientIds ∧ ns = [.onClientConnected server'.getId client_id]) :
    ServiceEffect s k cb kind context s' [⟨k, context, context, cb.newClientId, ns⟩] where
  service := hservice
  worker := hworker
  m_context := hcontext
  keeps := hkeeps
  kinds := by rw [hservers, Keyed.map_set hserver hkind]
  others j hj := by rw [hservers, List.getElem?_set_ne (Ne.symm hj)]
  observed := by
    have hlt := (List.getElem?_eq_some_iff.mp hserver).1
    exact ⟨ns, rfl, server', by rw [hservers, List.getElem?_set_self hlt], hns, hnew⟩

/-- What a callback in an HTTP worker does to the servers. -/
theorem SharedContexts.serviceHttp_effect {worker : HttpTcpServer} {cb : HttpCallback}
    (hworker : s.m_servers[k]? = some (.http worker))
    (h : s.serviceHttp k worker cb = some (s', o)) :
    ∃ context, ServiceEffect s k (.http cb) .httpTcpServer context s' o := by
  simp only [SharedContexts.serviceHttp, bind, Option.ite_none_left_eq_some,
    Option.bind_eq_some_iff] at h
  obtain ⟨hrun, context, hcontext, h⟩ := h
  refine ⟨context, ?_⟩
  split at h
  · rename_i server hserver
    obtain ⟨⟨server', ns⟩, hcb, heq⟩ := Option.bind_eq_some_iff.mp h
    obtain ⟨rfl, rfl⟩ := Prod.mk.inj (Option.some.inj heq)
    obtain ⟨hid, hns⟩ := callbackHttp_server_id hcb
    refine .of_callback rfl (by simp [hworker, BaseServerImpl.kind]) hcontext hserver rfl rfl rfl
      (fun n hn => (hns n hn).trans hid.symm) ?_
    -- in its own context the callback gets past the gates
    rintro rfl client_id hnew
    obtain rfl : server = worker := by simpa [hworker] using hserver.symm
    have hg : (HttpTcpServer.handles { server with m_context := true, req_body := s.req_body }) =
        true := by simpa [HttpTcpServer.handles] using hrun
    exact (callbackHttp_effect hg hcb).connects hnew
  · cases h

/-- What a callback in a WebSocket worker does to the servers. -/
theorem SharedContexts.serviceWebSocket_effect {worker : WebSocketTcpServer}
    {cb : WebSocketCallback} (hworker : s.m_servers[k]? = some (.webSocket worker))
    (h : s.serviceWebSocket k worker cb = some (s', o)) :
    ∃ context, ServiceEffect s k (.webSocket cb) .webSocketTcpServer context s' o := by
  simp only [SharedContexts.serviceWebSocket, bind, Option.ite_none_left_eq_some,
    Option.bind_eq_some_iff] at h
  obtain ⟨hrun, context, hcontext, h⟩ := h
  refine ⟨context, ?_⟩
  split at h
  · rename_i server hserver
    obtain ⟨⟨server', ns⟩, hcb, heq⟩ := Option.bind_eq_some_iff.mp h
    obtain ⟨rfl, rfl⟩ := Prod.mk.inj (Option.some.inj heq)
    obtain ⟨hid, hns⟩ := callbackWebSocket_server_id hcb
    refine .of_callback rfl (by simp [hworker, BaseServerImpl.kind]) hcontext hserver rfl rfl rfl
      (fun n hn => (hns n hn).trans hid.symm) ?_
    rintro rfl client_id hnew
    obtain rfl : server = worker := by simpa [hworker] using hserver.symm
    have hg : (WebSocketTcpServer.handles { server with m_context := true }) = true := by
      simpa [WebSocketTcpServer.handles] using hrun
    exact (callbackWebSocket_effect hg hcb).connects hnew
  · cases h

/-- **Inversion of a callback.** -/
theorem SharedContexts.Step.service (ht : SharedContexts.Step s (.service k cb) s' o) :
    ∃ kind context, ServiceEffect s k cb kind context s' o := by
  have ht : s.next (.service k cb) = some (s', o) := ht
  simp only [SharedContexts.next] at ht
  split at ht
  · exact ⟨_, SharedContexts.serviceHttp_effect (by assumption) ht⟩
  · exact ⟨_, SharedContexts.serviceWebSocket_effect (by assumption) ht⟩
  · cases ht

/-- What happens in a callback belongs to the worker's server exactly if the context is that
server's. -/
theorem ServiceEffect.belong_iff {context : ℕ} (h : ServiceEffect s k cb kind context s' o) :
    EventsBelong s (.service k cb) s' o ↔ context = k := by
  obtain ⟨ns, rfl, server, hserver, hns, hnew⟩ := h.observed
  constructor
  · intro hb
    exact ((hb k cb rfl).1 _ (List.mem_singleton_self _)).own
  · rintro rfl k' cb' heq
    obtain ⟨rfl, rfl⟩ := ContextsInput.service.inj heq
    refine ⟨fun x hx => ?_, h.others⟩
    obtain rfl := List.mem_singleton.mp hx
    exact ⟨rfl, rfl, fun client_id hc => ⟨server, hserver, hnew rfl client_id hc⟩,
      fun n hn => ⟨server, hserver, hns n hn⟩⟩

/-! ### Runs -/

/-- Where the contexts are and what the servers are does not change. -/
theorem SharedContexts.Step.const (ht : SharedContexts.Step s i s' o) :
    s'.m_context = s.m_context ∧
      s'.m_servers.map BaseServerImpl.kind = s.m_servers.map BaseServerImpl.kind := by
  cases i with
  | entry k =>
      obtain ⟨s₁, hentry, heq⟩ := Option.map_eq_some_iff.mp ht
      obtain ⟨rfl, -⟩ := Prod.mk.inj heq
      rw [SharedContexts.entry] at hentry
      split at hentry
      · rename_i server hserver
        obtain rfl := Option.some.inj hentry
        exact ⟨rfl, Keyed.map_set hserver rfl⟩
      · rename_i server hserver
        obtain rfl := Option.some.inj hentry
        exact ⟨rfl, Keyed.map_set hserver rfl⟩
      · cases hentry
  | service k cb =>
      obtain ⟨kind, context, h⟩ := ht.service
      exact ⟨h.keeps, h.kinds⟩

/-- A run changes neither the contexts nor the classes of the servers. -/
theorem SharedContexts.const_of_run
    (h : Run SharedContexts.Step (factory.contexts hash sys) is os s) :
    s.m_context = initContexts sys 0 factory.m_servers (fun _ => none) ∧
      s.m_servers.map BaseServerImpl.kind = factory.m_servers.map ServerSettings.kind := by
  have hconst := h.const (f := fun s => (s.m_context, s.m_servers.map BaseServerImpl.kind))
    (Q := fun _ _ => True) fun ht => ⟨Prod.ext ht.const.1 ht.const.2, fun _ _ => trivial⟩
  obtain ⟨hcontext, hkinds⟩ := Prod.mk.inj hconst.1
  refine ⟨hcontext, hkinds.trans ?_⟩
  simp [ServerFactory.contexts, Function.comp_def, kind_construct]

/-- Whether a class has at most one server, by position. -/
theorem single_iff (h : ServerFactory.init {} env = (.ok true, factory))
    (hk : kind.service = true) : factory.m_configuration.Single kind.kinds ↔
      ∀ i j : ℕ, (factory.m_servers.map ServerSettings.kind)[i]? = some kind →
        (factory.m_servers.map ServerSettings.kind)[j]? = some kind → i = j := by
  have hkinds := createServers_map (f := fun server => server.kind.kinds) (g := ServerInfo.kinds)
    createServer_kinds (ServerFactory.init_true h).2
  have hcount : (factory.m_configuration.server_infos.filter
      fun e => e.enable ∧ e.kinds = kind.kinds).length =
        (factory.m_servers.map ServerSettings.kind).count kind := by
    calc (factory.m_configuration.server_infos.filter
          fun e => e.enable ∧ e.kinds = kind.kinds).length
        = ((factory.m_configuration.server_infos.filter (·.enable)).map ServerInfo.kinds).count
            kind.kinds := by
          rw [List.count, List.countP_map, List.countP_eq_length_filter, List.filter_filter]
          congr 1
          refine List.filter_congr fun e _ => ?_
          simp [Bool.and_comm, beq_eq_decide]
      _ = (factory.m_servers.map fun server => server.kind.kinds).count kind.kinds := by
          rw [hkinds]
      _ = (factory.m_servers.map ServerSettings.kind).count kind := by
          rw [List.count, List.count, List.countP_map, List.countP_map]
          refine List.countP_congr fun server _ => ?_
          simp [kinds_eq_iff hk]
  rw [JsonConfiguration.Single, hcount, Keyed.count_le_one_iff]

/-- The callback that is made most often, and does nothing. -/
def silentCallback : ServerKind → LwsCallback
  | .httpTcpServer => .http { wsi := 0, client_fd := 0, reason := .getThreadId }
  | _ => .webSocket { wsi := 0, client_fd := 0, reason := .getThreadId }

/-- Where an HTTP server is expected there is one. -/
theorem exists_http {servers : List BaseServerImpl}
    (h : (servers.map BaseServerImpl.kind)[k]? = some .httpTcpServer) :
    ∃ server, servers[k]? = some (.http server) := by
  rw [List.getElem?_map, Option.map_eq_some_iff] at h
  obtain ⟨server, hserver, hkind⟩ := h
  cases server with
  | http server => exact ⟨server, hserver⟩
  | inetTcp _ | unixTcp _ | inetUdp _ | unixUdp _ | webSocket _ => cases hkind

/-- Where a WebSocket server is expected there is one. -/
theorem exists_webSocket {servers : List BaseServerImpl}
    (h : (servers.map BaseServerImpl.kind)[k]? = some .webSocketTcpServer) :
    ∃ server, servers[k]? = some (.webSocket server) := by
  rw [List.getElem?_map, Option.map_eq_some_iff] at h
  obtain ⟨server, hserver, hkind⟩ := h
  cases server with
  | webSocket server => exact ⟨server, hserver⟩
  | inetTcp _ | unixTcp _ | inetUdp _ | unixUdp _ | http _ => cases hkind

/-- A worker can enter its loop and service the context of its class. -/
theorem SharedContexts.exists_service {context : ℕ} (hk : kind.service = true)
    (hworker : (s.m_servers.map BaseServerImpl.kind)[k]? = some kind)
    (hcontext : s.m_context kind = some context)
    (hserver : (s.m_servers.map BaseServerImpl.kind)[context]? = some kind) :
    ∃ s₁ s₂ o, SharedContexts.Step s (.entry k) s₁ [] ∧
      SharedContexts.Step s₁ (.service k (silentCallback kind)) s₂ o := by
  cases kind with
  | inetDomainSocketTcpServer | unixDomainSocketTcpServer | inetDomainSocketUdpServer |
      unixDomainSocketUdpServer => cases hk
  | httpTcpServer =>
      obtain ⟨worker, hw⟩ := exists_http hworker
      have hlt := (List.getElem?_eq_some_iff.mp hw).1
      have hentry : SharedContexts.Step s (.entry k)
          ⟨s.m_servers.set k (.http { worker with m_run_thread := true }), s.m_context,
            s.req_body⟩ [] := by
        simp [ofFn, SharedContexts.next, SharedContexts.entry, hw]
      obtain ⟨server, hs⟩ := exists_http (hentry.const.2 ▸ hserver)
      have hsilent : ∀ server : HttpTcpServer,
          callbackHttp server ⟨0, 0, .getThreadId⟩ = some (server, []) := by
        intro server
        rw [callbackHttp]
        split_ifs <;> rfl
      have hsome : (SharedContexts.next
          ⟨s.m_servers.set k (.http { worker with m_run_thread := true }), s.m_context,
            s.req_body⟩ (.service k (silentCallback .httpTcpServer))).isSome := by
        simp only [SharedContexts.next, silentCallback, List.getElem?_set_self hlt,
          SharedContexts.serviceHttp, hcontext, hs, hsilent, Bool.true_eq_false, if_false, bind,
          Option.bind_some, Option.isSome_some]
      obtain ⟨⟨s₂, o⟩, ht⟩ := Option.isSome_iff_exists.mp hsome
      exact ⟨_, s₂, o, hentry, ht⟩
  | webSocketTcpServer =>
      obtain ⟨worker, hw⟩ := exists_webSocket hworker
      have hlt := (List.getElem?_eq_some_iff.mp hw).1
      have hentry : SharedContexts.Step s (.entry k)
          ⟨s.m_servers.set k (.webSocket { worker with m_run_thread := true }), s.m_context,
            s.req_body⟩ [] := by
        simp [ofFn, SharedContexts.next, SharedContexts.entry, hw]
      obtain ⟨server, hs⟩ := exists_webSocket (hentry.const.2 ▸ hserver)
      have hsilent : ∀ server : WebSocketTcpServer,
          callbackWebSocket server ⟨0, 0, .getThreadId⟩ = some (server, []) := by
        intro server
        rw [callbackWebSocket]
        split_ifs <;> rfl
      have hsome : (SharedContexts.next
          ⟨s.m_servers.set k (.webSocket { worker with m_run_thread := true }), s.m_context,
            s.req_body⟩ (.service k (silentCallback .webSocketTcpServer))).isSome := by
        simp only [SharedContexts.next, silentCallback, List.getElem?_set_self hlt,
          SharedContexts.serviceWebSocket, hcontext, hs, hsilent, Bool.true_eq_false, if_false,
          bind, Option.bind_some, Option.isSome_some]
      obtain ⟨⟨s₂, o⟩, ht⟩ := Option.isSome_iff_exists.mp hsome
      exact ⟨_, s₂, o, hentry, ht⟩

/-- Where all events belong, a class has at most one server. -/
theorem single_of_belong (h : ServerFactory.init {} env = (.ok true, factory))
    (hk : kind.service = true)
    (hall : ∀ is os s, Run SharedContexts.Step (factory.contexts hash env.sys) is os s →
      EachStep SharedContexts.Step EventsBelong (factory.contexts hash env.sys) is) :
    factory.m_configuration.Single kind.kinds := by
  rw [single_iff h hk]
  intro i j hi hj
  by_contra hne
  rcases initContexts_spec (fun _ => none) hk (ServerFactory.allInit h) with
    ⟨hnone, -⟩ | ⟨context, hserver, hcontext⟩
  · obtain ⟨server, hserver, hkind⟩ := List.mem_map.mp (List.mem_of_getElem? hi)
    exact hnone server hserver hkind
  · rw [Nat.zero_add] at hcontext
    -- a worker of the class that is not the last server's
    obtain ⟨k, hworker, hk'⟩ : ∃ k : ℕ,
        (factory.m_servers.map ServerSettings.kind)[k]? = some kind ∧ context ≠ k := by
      by_cases hic : context = i
      · exact ⟨j, hj, by omega⟩
      · exact ⟨i, hi, hic⟩
    have hstart : Run SharedContexts.Step (factory.contexts hash env.sys) [] []
        (factory.contexts hash env.sys) := .start
    obtain ⟨hm, hkinds⟩ := SharedContexts.const_of_run hstart
    obtain ⟨s₁, s₂, o, hentry, ht⟩ := SharedContexts.exists_service hk (hkinds ▸ hworker)
      (by rw [hm, hcontext]) (hkinds ▸ hserver)
    have hrun := Run.single hentry
    have hbelong := hall _ _ _ (hrun.step ht) _ _ [] _ _ rfl hrun s₂ o ht
    obtain ⟨kind', context', heffect⟩ := ht.service
    have heq := heffect.belong_iff.mp hbelong
    obtain ⟨hm₁, hkinds₁⟩ := SharedContexts.const_of_run hrun
    have hkind' : kind' = kind := by
      have := heffect.worker
      rw [hkinds₁, hworker] at this
      exact (Option.some.inj this).symm
    subst hkind'
    have hcontext' := heffect.m_context
    rw [hm₁, hcontext] at hcontext'
    exact hk' ((Option.some.inj hcontext').trans heq)

/-- **When all events belong to the server that they happen on.** With a configuration that
`init` accepts, all that any run of the workers does belongs to the worker's server exactly if
at most one WebSocket server and at most one HTTP server is enabled. -/
theorem events_belong_iff (h : ServerFactory.init {} env = (.ok true, factory)) :
    (∀ is os s, Run SharedContexts.Step (factory.contexts hash env.sys) is os s →
        EachStep SharedContexts.Step EventsBelong (factory.contexts hash env.sys) is) ↔
      factory.m_configuration.Single .WEBSOCKET ∧ factory.m_configuration.Single .HTTP := by
  constructor
  · intro hall
    have hws : factory.m_configuration.Single (ServerKind.kinds .webSocketTcpServer) :=
      single_of_belong h rfl hall
    have hhttp : factory.m_configuration.Single (ServerKind.kinds .httpTcpServer) :=
      single_of_belong h rfl hall
    exact ⟨hws, hhttp⟩
  · rintro ⟨hws, hhttp⟩ is os s - pre i post os₁ s₁ - hpre s₂ o ht
    cases i with
    | entry k =>
        intro k' cb heq
        cases heq
    | service k cb =>
        obtain ⟨kind, context, heffect⟩ := ht.service
        refine heffect.belong_iff.mpr ?_
        have hsingle : factory.m_configuration.Single kind.kinds := by
          have hk := heffect.service
          cases kind with
          | inetDomainSocketTcpServer | unixDomainSocketTcpServer | inetDomainSocketUdpServer |
              unixDomainSocketUdpServer => cases hk
          | httpTcpServer => exact hhttp
          | webSocketTcpServer => exact hws
        obtain ⟨hm, hkinds⟩ := SharedContexts.const_of_run hpre
        have hworker := hkinds ▸ heffect.worker
        have hcontext := hm ▸ heffect.m_context
        rcases initContexts_spec (fun _ => none) heffect.service
          (ServerFactory.allInit h) with ⟨-, hnone⟩ | ⟨j, hserver, hlast⟩
        · rw [hnone] at hcontext
          cases hcontext
        · rw [hlast, Nat.zero_add] at hcontext
          obtain rfl := Option.some.inj hcontext
          exact (single_iff h heffect.service).mp hsingle _ _ hserver hworker

end

/-! ### Two configurations -/

/-- An enabled entry for a server of an lws type. -/
def lwsEntry (type bind : String) : Json.Value :=
  .object [(ascii "type", .string (ascii type)), (ascii "enable", .bool true),
    (ascii "bind", .string (ascii bind)), (ascii "tcp", .bool true)]

/-- A document with libwebsockets servers of these types on these ports. -/
def lwsServers (entries : List (String × String)) : Json.Value :=
  .object [(ascii "server_list", .array (entries.map fun e => lwsEntry e.1 e.2))]

/-- With one server of each class every event belongs to its own. -/
theorem events_belong_iff_oneEach :
    ∃ factory : ServerFactory,
      ServerFactory.init {} (initEnvOf (lwsServers [("websocket", "80"), ("http", "81")])) =
        (.ok true, factory) ∧
      ∀ is os s, Run SharedContexts.Step
          (factory.contexts List.length fun _ => goodResults) is os s →
        EachStep SharedContexts.Step EventsBelong
          (factory.contexts List.length fun _ => goodResults) is := by
  have h : ServerFactory.init {} (initEnvOf (lwsServers [("websocket", "80"), ("http", "81")])) =
      (.ok true, _) := rfl
  exact ⟨_, h, (events_belong_iff h).mpr (by decide)⟩

/-- With two WebSocket servers, the worker of the first services the context of the second,
and registers with the second what happens there; what comes to its own port, no worker
ever looks at. -/
theorem firstWorker_servicesSecond :
    ∃ factory s, ServerFactory.init {}
        (initEnvOf (lwsServers [("websocket", "80"), ("websocket", "81")])) =
          (.ok true, factory) ∧
      Run SharedContexts.Step (factory.contexts List.length fun _ => goodResults)
        [.entry 0, .entry 1, .service 0 (.webSocket ⟨7, 5, .established 16 [47]⟩)]
        [⟨0, 1, 1, some 16, [.onClientConnected 12 16]⟩] s ∧
      ¬ EachStep SharedContexts.Step EventsBelong
        (factory.contexts List.length fun _ => goodResults)
        [.entry 0, .entry 1, .service 0 (.webSocket ⟨7, 5, .established 16 [47]⟩)] := by
  refine ⟨_, _, rfl, run_of_exec rfl, fun hall => ?_⟩
  have hbelong := hall [.entry 0, .entry 1] _ [] _ _ rfl (run_of_exec rfl) _ _ rfl
  have hown := ((hbelong _ _ rfl).1 _ (List.mem_singleton_self _)).own
  exact Nat.one_ne_zero hown

end AnyServer
