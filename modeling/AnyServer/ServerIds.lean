import AnyServer.Sending
import AnyServer.ServerFactory

/-!
# Server Ids

A server's id is the hash of its name, its bind string and its flag `m_tcp`, written one after
the other without a separator. Nothing is lost by that: the name is one of four types, of
which none begins another, and the flag is a single digit. So, with a hash that tells the
strings involved apart, two servers have the same id exactly if they agree in all three.

Nothing keeps a configuration from listing such servers twice, and their `init` may succeed:
a second UDP server on the same path unlinks the first one's socket and binds its own. Both
then report under one id, and `ServerFactory::sendToClient` routes what is sent to a client
of the second to the first.

`hash<string>` is a parameter.

## Main results

* `reports_server_id`: every notification is made under the id of the server that makes it.
* `idString_inj`: what the ids are hashed from tells type, bind string and flag apart.
* `server_ids_iff`: when ids are distinct and sends are routed to the server that reported.
-/

namespace AnyServer

open Lts
open Throwing (exec)

/-! ### The id of a server -/

/-- `to_string` of a `bool`. -/
def toStringBool (b : Bool) : Bytes :=
  if b then ascii "1" else ascii "0"

/-- The string that `BaseServer::BaseServer` hashes. -/
def ServerSettings.idString (server : ServerSettings) : Bytes :=
  server.m_name ++ server.m_bind ++ toStringBool server.m_tcp

/-- `m_server_id`. -/
def ServerSettings.serverId (hash : Bytes → ℕ) (server : ServerSettings) : ℕ :=
  hash server.idString

/-- The object that has been constructed, with the members that its worker uses. -/
def ServerSettings.construct (hash : Bytes → ℕ) (server : ServerSettings) : BaseServerImpl :=
  match server.kind with
  | .inetDomainSocketTcpServer =>
      .inetTcp { m_server_id := server.serverId hash, m_server_fd := 0, m_run_thread := false,
                 m_client_list := [] }
  | .unixDomainSocketTcpServer =>
      .unixTcp { m_server_id := server.serverId hash, m_server_fd := 0, m_run_thread := false,
                 m_client_list := [] }
  | .inetDomainSocketUdpServer =>
      .inetUdp { m_server_id := server.serverId hash, m_server_fd := 0, m_run_thread := false,
                 m_client_list := [] }
  | .unixDomainSocketUdpServer =>
      .unixUdp { m_server_id := server.serverId hash, m_server_fd := 0, m_run_thread := false,
                 m_client_list := [] }
  | .httpTcpServer =>
      .http { m_server_id := server.serverId hash, m_context := false, m_run_thread := false,
              m_client_list := [], req_body := [] }
  | .webSocketTcpServer =>
      .webSocket { m_server_id := server.serverId hash, m_context := false,
                   m_run_thread := false, m_client_list := [] }

/-- What an entry of the configuration gives to the id. -/
def ServerInfo.key (server_info : ServerInfo) : Bytes × Bytes × Bool :=
  (server_info.header, server_info.bind, server_info.tcp)

/-- What a server's id is made of. -/
def ServerSettings.key (server : ServerSettings) : Bytes × Bytes × Bool :=
  (server.m_name, server.m_bind, server.m_tcp)

/-- A factory's servers, before anything is sent. -/
def ServerFactory.sending (hash : Bytes → ℕ) (factory : ServerFactory) : Sending :=
  { m_servers := factory.m_servers.map (·.construct hash), call := .idle }

/-- The position of the server that `ServerFactory::sendToClient` routes to. -/
def Sending.route (s : Sending) (server_id : ℕ) : Option ℕ :=
  s.m_servers.findIdx? fun server => server_id == server.getId

/-- The server id that a notification carries. -/
def Notification.server_id : Notification → ℕ
  | .onClientConnected server_id _ => server_id
  | .onClientDisconnected server_id _ => server_id
  | .onReceive server_id _ _ _ => server_id
  | .onReceiveProtocol server_id _ _ _ _ => server_id

/-- What a server may report: the notifications that its worker or its callbacks make, from
where the server is. -/
inductive BaseServerImpl.Reports : BaseServerImpl → Notification → Prop
  | inetTcp {w w' : EpollWorker} {is : List EpollInput} {os : List EpollObs} {conn : Option ℕ}
      {n : Notification} (h : Run InetDomainSocketTcpServer.Step w is os w')
      (hn : .notify conn n ∈ os) : Reports (.inetTcp w.server) n
  | unixTcp {w w' : EpollWorker} {is : List EpollInput} {os : List EpollObs} {conn : Option ℕ}
      {n : Notification} (h : Run UnixDomainSocketTcpServer.Step w is os w')
      (hn : .notify conn n ∈ os) : Reports (.unixTcp w.server) n
  | inetUdp {debug : Bool} {w w' : UdpWorker} {is : List UdpInput} {os : List UdpObs}
      {n : Notification} (h : Run (InetDomainSocketUdpServer.Step debug) w is os w')
      (hn : .notify n ∈ os) : Reports (.inetUdp w.server) n
  | unixUdp {debug : Bool} {w w' : UdpWorker} {is : List UdpInput} {os : List UdpObs}
      {n : Notification} (h : Run (UnixDomainSocketUdpServer.Step debug) w is os w')
      (hn : .notify n ∈ os) : Reports (.unixUdp w.server) n
  | http {server server' : HttpTcpServer} {cbs : List HttpCallback} {ns : List Notification}
      {n : Notification} (h : Run HttpTcpServer.Step server cbs ns server') (hn : n ∈ ns) :
      Reports (.http server) n
  | webSocket {server server' : WebSocketTcpServer} {cbs : List WebSocketCallback}
      {ns : List Notification} {n : Notification}
      (h : Run WebSocketTcpServer.Step server cbs ns server') (hn : n ∈ ns) :
      Reports (.webSocket server) n

/-! ### Reports carry the id of their server -/

section Reports

/-- The worker keeps its server's id and reports under it. -/
theorem EpollWorker.Step.server_id {kind : EpollKind} {w w' : EpollWorker} {i : EpollInput}
    {o : List EpollObs} (ht : EpollWorker.Step kind w i w' o) :
    w'.server.m_server_id = w.server.m_server_id ∧
      ∀ x ∈ o, ∀ conn n, x = .notify conn n → n.server_id = w.server.m_server_id := by
  cases ht with
  | store b | entry _ | enter _ _ | leave _ _ | wait _ _ _ | again _ => exact ⟨rfl, by simp⟩
  | handle sys hpc hl hs =>
      cases handleEvent_effect hs <;> simp [Notification.server_id]

/-- So does the datagram worker. -/
theorem UdpWorker.Step.server_id {kind : UdpKind} {debug : Bool} {w w' : UdpWorker}
    {i : UdpInput} {o : List UdpObs} (ht : UdpWorker.Step kind debug w i w' o) :
    w'.server.m_server_id = w.server.m_server_id ∧
      ∀ x ∈ o, ∀ n, x = .notify n → n.server_id = w.server.m_server_id := by
  cases ht.effect with
  | stored _ | entered _ | again _ _ | left _ _ => exact ⟨rfl, by simp⟩
  | pass hpc hl hcomm =>
      obtain ⟨hserver, hns⟩ := communication_notifications hl hcomm
      refine ⟨by rw [hserver], ?_⟩
      rintro _ hx n rfl
      have hn : n ∈ o.flatMap UdpObs.notification :=
        List.mem_flatMap.mpr ⟨_, hx, List.mem_singleton_self n⟩
      rw [hns] at hn
      simp only [List.mem_cons, List.not_mem_nil, or_false] at hn
      rcases hn with rfl | rfl | rfl <;> rfl

/-- So does a callback of the HTTP server. -/
theorem callbackHttp_server_id {server server' : HttpTcpServer} {cb : HttpCallback}
    {o : List Notification} (h : callbackHttp server cb = some (server', o)) :
    server'.m_server_id = server.m_server_id ∧ ∀ n ∈ o, n.server_id = server.m_server_id := by
  rcases callbackHttp_cases h with ⟨-, he⟩ | ⟨-, rfl, rfl⟩
  · cases he <;> simp [Notification.server_id]
  · simp

/-- So does a callback of the WebSocket server. -/
theorem callbackWebSocket_server_id {server server' : WebSocketTcpServer}
    {cb : WebSocketCallback} {o : List Notification}
    (h : callbackWebSocket server cb = some (server', o)) :
    server'.m_server_id = server.m_server_id ∧ ∀ n ∈ o, n.server_id = server.m_server_id := by
  rcases callbackWebSocket_cases h with ⟨-, he⟩ | ⟨-, rfl, rfl⟩
  · cases he <;> simp [Notification.server_id]
  · simp

/-- **Every notification is made under the id of the server that makes it.** -/
theorem reports_server_id {server : BaseServerImpl} {n : Notification}
    (h : server.Reports n) : n.server_id = server.getId := by
  cases h with
  | inetTcp h hn | unixTcp h hn =>
      have hconst := h.const (f := fun w => w.server.m_server_id)
        (Q := fun id x => ∀ conn n, x = .notify conn n → n.server_id = id)
        EpollWorker.Step.server_id
      exact hconst.2 _ hn _ _ rfl
  | inetUdp h hn | unixUdp h hn =>
      have hconst := h.const (f := fun w => w.server.m_server_id)
        (Q := fun id x => ∀ n, x = .notify n → n.server_id = id) UdpWorker.Step.server_id
      exact hconst.2 _ hn _ rfl
  | http h hn =>
      have hconst := h.const (f := HttpTcpServer.m_server_id)
        (Q := fun id n => n.server_id = id) fun ht => callbackHttp_server_id ht.2
      exact hconst.2 n hn
  | webSocket h hn =>
      have hconst := h.const (f := WebSocketTcpServer.m_server_id)
        (Q := fun id n => n.server_id = id) fun ht => callbackWebSocket_server_id ht.2
      exact hconst.2 n hn

end Reports

/-! ### What is hashed tells servers apart -/

/-- Of the types of servers, none begins another. -/
theorem serverKinds_prefixFree : ∀ a ∈ serverKinds.map Prod.fst, ∀ b ∈ serverKinds.map Prod.fst,
    a <+: b → a = b := by
  decide

/-- Strings that begin with types of servers agree in the types and in the rest. -/
theorem type_append_inj {a b x y : Bytes} (ha : a ∈ serverKinds.map Prod.fst)
    (hb : b ∈ serverKinds.map Prod.fst) (h : a ++ x = b ++ y) : a = b ∧ x = y := by
  have hab : a = b := by
    rcases List.prefix_or_prefix_of_prefix (h ▸ List.prefix_append a x) (List.prefix_append b y)
      with hp | hp
    · exact serverKinds_prefixFree a ha b hb hp
    · exact (serverKinds_prefixFree b hb a ha hp).symm
  subst hab
  exact ⟨rfl, List.append_cancel_left h⟩

/-- The two booleans have different strings. -/
theorem toStringBool_inj {b b' : Bool} (h : toStringBool b = toStringBool b') : b = b' := by
  revert b b'
  decide

section

variable {hash : Bytes → ℕ} {server server' : ServerSettings} {server_info : ServerInfo}
  {capabilities : Capabilities}

/-- **Type, bind string and flag can be read off what is hashed.** -/
theorem idString_inj (hs : server.m_name ∈ serverKinds.map Prod.fst)
    (hs' : server'.m_name ∈ serverKinds.map Prod.fst) :
    server.idString = server'.idString ↔ server.key = server'.key := by
  constructor
  · intro h
    simp only [ServerSettings.idString, List.append_assoc] at h
    obtain ⟨hname, hrest⟩ := type_append_inj hs hs' h
    -- the flag is the last digit
    have hlen : (toStringBool server.m_tcp).length = (toStringBool server'.m_tcp).length := by
      cases server.m_tcp <;> cases server'.m_tcp <;> rfl
    obtain ⟨hbind, hflag⟩ := List.append_inj' hrest hlen
    rw [ServerSettings.key, ServerSettings.key, hname, hbind, toStringBool_inj hflag]
  · intro h
    obtain ⟨hname, hbind, hflag⟩ := by simpa only [ServerSettings.key, Prod.mk.injEq] using h
    rw [ServerSettings.idString, ServerSettings.idString, hname, hbind, hflag]

/-- The id of a server is the hash of its settings. -/
theorem getId_construct : (server.construct hash).getId = server.serverId hash := by
  rw [ServerSettings.construct]
  split <;> rfl

/-! ### What is created -/

/-- A server is made with the entry's type, bind string and flag. -/
theorem createServer_key (h : createServer capabilities server_info = some server) :
    server.key = server_info.key := by
  simp only [createServer] at h
  split at h <;> split at h <;> cases h <;> rfl

/-- Servers are made for the enabled entries, one each: what of a server is decided by its entry
is so along the lists. -/
theorem createServers_map {β : Type} {f : ServerSettings → β} {g : ServerInfo → β}
    {configuration : JsonConfiguration} {m_servers : List ServerSettings}
    (hfg : ∀ {server_info server},
      createServer configuration.capabilities server_info = some server →
        f server = g server_info)
    (h : createServers configuration [] = (true, m_servers)) :
    m_servers.map f = (configuration.server_infos.filter (·.enable)).map g := by
  obtain ⟨created, hservers, hcreated⟩ := createServersLoop_created h
  rw [hservers, List.nil_append]
  generalize configuration.server_infos.filter (·.enable) = server_infos at hcreated
  clear hservers
  induction hcreated with
  | nil => rfl
  | cons hc _ ih => rw [List.map_cons, List.map_cons, hfg hc, ih]

/-- The servers that are created have the keys of the enabled entries, in order. -/
theorem createServers_key {configuration : JsonConfiguration} {m_servers : List ServerSettings}
    (h : createServers configuration [] = (true, m_servers)) :
    m_servers.map ServerSettings.key =
      (configuration.server_infos.filter (·.enable)).map ServerInfo.key :=
  createServers_map createServer_key h

/-- What a successful `init` of a new factory has decoded and created. -/
theorem ServerFactory.init_true {env : InitEnv} {factory : ServerFactory}
    (h : ServerFactory.init {} env = (.ok true, factory)) :
    factory.m_configuration.Supported ∧
      createServers factory.m_configuration [] = (true, factory.m_servers) := by
  obtain ⟨root, -, hd, hc, -⟩ := ServerFactory.created_of_init h
  have hkeeps : Throwing.Keeps JsonConfiguration.Supported (parse root) := parse_keeps
  have hsupported := hkeeps {} (by simp [JsonConfiguration.Supported])
  rw [hd] at hsupported
  exact ⟨hsupported, hc⟩

/-- Every server is named after a known type. -/
theorem createServers_name {configuration : JsonConfiguration} {m_servers : List ServerSettings}
    (hsupported : configuration.Supported)
    (h : createServers configuration [] = (true, m_servers)) :
    ∀ server ∈ m_servers, server.m_name ∈ serverKinds.map Prod.fst := by
  intro server hserver
  have hmem : server.key ∈ m_servers.map ServerSettings.key := List.mem_map_of_mem hserver
  rw [createServers_key h] at hmem
  obtain ⟨server_info, hinfo, hkey⟩ := List.mem_map.mp hmem
  have hname : server_info.header = server.m_name := (Prod.mk.inj hkey).1
  obtain ⟨l₁, l₂, hl, -⟩ :=
    List.lookup_eq_some_iff.mp (hsupported server_info (List.mem_filter.mp hinfo).1)
  refine List.mem_map.mpr ⟨(server_info.header, server_info.kinds), ?_, hname⟩
  simp [hl]

/-! ### Ids and routes -/

/-- What changes a registry leaves the ids of the servers alone. -/
theorem Sending.Step.ids {s s' : Sending} {i : SendInput} {o : List Attempt}
    (ht : Sending.Step s i s' o) :
    s'.m_servers.map BaseServerImpl.getId = s.m_servers.map BaseServerImpl.getId := by
  have hchange : ∀ op (server : BaseServerImpl), (server.change op).getId = server.getId := by
    intro op server
    cases server <;> rfl
  cases i with
  | registry index op =>
      obtain ⟨rfl, -⟩ := Prod.mk.inj (Option.some.inj ht)
      refine List.ext_getElem? fun j => ?_
      simp only [List.getElem?_map, List.getElem?_modify]
      cases s.m_servers[j]? with
      | none => rfl
      | some server =>
          split
          · exact congrArg some (hchange op server)
          · rfl
  | sendToClient _ _ _ _ | sendToServer _ _ _ | resume _ =>
      simp only [Lts.ofFn, Sending.next] at ht
      repeat' split at ht
      all_goals cases ht <;> rfl

/-- `sendToClient` looks the server up where it routes to. -/
theorem Sending.find?_eq_route {s : Sending} {server_id : ℕ} :
    (s.m_servers.find? fun server => server_id == server.getId) =
      (s.route server_id).bind fun j => s.m_servers[j]? :=
  List.find?_eq_bind_findIdx?_getElem?

/-- With distinct ids, everything that a server reports can be answered to that server. -/
theorem Sending.route_of_nodup {s : Sending}
    (hnd : (s.m_servers.map BaseServerImpl.getId).Nodup) {j : ℕ} {server : BaseServerImpl}
    {n : Notification} (hj : s.m_servers[j]? = some server) (hn : server.Reports n) :
    s.route n.server_id = some j := by
  rw [Sending.route, reports_server_id hn]
  exact Keyed.findIdx?_eq_some hnd hj

/-- **When server ids identify servers.** With a hash that tells the strings involved apart,
the servers that a successful `init` has created have distinct ids, and whatever a server
reports is answered to that server, at its position and by the search of `sendToClient`, exactly
if no two enabled entries agree in type, bind string and flag. -/
theorem server_ids_iff {env : InitEnv} {factory : ServerFactory}
    (hhash : ∀ a ∈ factory.m_servers, ∀ b ∈ factory.m_servers,
      hash a.idString = hash b.idString → a.idString = b.idString)
    (h : ServerFactory.init {} env = (.ok true, factory)) :
    ((factory.m_servers.map (·.serverId hash)).Nodup ∧
        ∀ is os s, Run Sending.Step (factory.sending hash) is os s → ∀ j server n,
          s.m_servers[j]? = some server → server.Reports n → s.route n.server_id = some j ∧
            s.m_servers.find? (fun server => n.server_id == server.getId) = some server) ↔
      ((factory.m_configuration.server_infos.filter (·.enable)).map ServerInfo.key).Nodup := by
  have hids : (factory.sending hash).m_servers.map BaseServerImpl.getId =
      factory.m_servers.map (·.serverId hash) := by
    simp [ServerFactory.sending, Function.comp_def, getId_construct]
  have hroute : (factory.m_servers.map (·.serverId hash)).Nodup →
      ∀ is os s, Run Sending.Step (factory.sending hash) is os s → ∀ j server n,
        s.m_servers[j]? = some server → server.Reports n → s.route n.server_id = some j ∧
          s.m_servers.find? (fun server => n.server_id == server.getId) = some server := by
    intro hnd is os s hrun j server n hj hn
    have hconst := hrun.const (f := fun s => s.m_servers.map BaseServerImpl.getId)
      (Q := fun _ _ => True) fun ht => ⟨ht.ids, fun _ _ => trivial⟩
    have hnd' : (s.m_servers.map BaseServerImpl.getId).Nodup := by
      rw [hconst.1, hids]
      exact hnd
    have hroute : s.route n.server_id = some j := Sending.route_of_nodup hnd' hj hn
    refine ⟨hroute, ?_⟩
    rw [Sending.find?_eq_route, hroute]
    exact hj
  rw [and_iff_left_of_imp hroute]
  obtain ⟨hsupported, hc⟩ := ServerFactory.init_true h
  have hname := createServers_name hsupported hc
  rw [← createServers_key hc]
  refine Keyed.nodup_map_congr fun a ha b hb => ?_
  rw [← idString_inj (hname a ha) (hname b hb)]
  exact ⟨hhash a ha b hb, fun heq => congrArg hash heq⟩

end

/-! ### Two configurations -/

/-- A hash that tells all strings apart. -/
def hashBytes (s : Bytes) : ℕ :=
  s.foldl (fun n c => 256 * n + c.toNat) 1

/-- Two servers on different paths have different ids. -/
theorem server_ids_iff_twoPaths :
    ∃ factory : ServerFactory,
      ServerFactory.init {} (initEnvOf (unixUdpServers ["/a", "/b"])) = (.ok true, factory) ∧
      (factory.m_servers.map (·.serverId hashBytes)).Nodup := by
  have h : ServerFactory.init {} (initEnvOf (unixUdpServers ["/a", "/b"])) = (.ok true, _) := rfl
  exact ⟨_, h, ((server_ids_iff (by decide) h).mpr (by decide)).1⟩

/-- Two entries for one path make two servers with one id, and what the second reports is
answered to the first. -/
theorem secondServer_misrouted :
    ∃ factory : ServerFactory,
      ServerFactory.init {} { file := .parsed (unixUdpServers ["/a", "/a"])
                              sys := fun _ => { goodResults with access := 0 } } =
        (.ok true, factory) ∧
      ∀ hash, ¬ (factory.m_servers.map (·.serverId hash)).Nodup ∧
        ∃ server, (factory.sending hash).m_servers[1]? = some server ∧
          (factory.sending hash).route server.getId = some 0 := by
  refine ⟨_, rfl, fun hash => ⟨fun hnd => ?_, _, rfl, ?_⟩⟩
  · exact (List.nodup_cons.mp hnd).1 (List.mem_singleton_self _)
  · exact List.findIdx?_eq_some_iff_getElem.mpr ⟨Nat.zero_lt_succ _, beq_self_eq_true _, by simp⟩

end AnyServer
