import AnyServer.Configuration
import AnyServer.ServerInit

/-!
# The Server Factory

`ServerFactory::init` decodes the configuration file, checks it, creates a server for every
enabled entry and calls `init` of every server. Any of these can fail, and `init` then
returns `false`, or an exception passes through it.

The two lists that it fills, `server_infos` of the configuration and `m_servers`, belong to
the factory and are never cleared. What a failed call has appended to them stays there, and
the next call starts from it: it creates servers for all entries decoded so far, and
initialises all servers created so far.

What `init` tells the logger and the listener that it registers with each server are left
out. `accepted` and `initialised` are no members of the source: they record that a configuration
was decoded, checked and its servers created, and of which servers, by their position in
`m_servers`, a call of `init` has returned `true`.

## Main results

* `ServerFactory.init_effect`: the ways in which `init` can end.
* `createServers_eq`: which servers are created, in which order.
* `init_false_keeps`: what a failed `init` leaves behind.
-/

namespace AnyServer

open Throwing (exec)

/-! ### Creating servers -/

/-- The object that `ADD_SERVER` makes. -/
def newServer (server_info : ServerInfo) (kind : ServerKind) : ServerSettings :=
  { kind, m_name := server_info.header, m_bind := server_info.bind, m_tcp := server_info.tcp,
    m_max_client := server_info.max_client }

/-- `BaseServerImpl::setCertification`, with the arguments that the factory passes. -/
def ServerSettings.setCertification (server : ServerSettings) (capabilities : Capabilities) :
    ServerSettings :=
  { server with
    certification :=
      { m_security := capabilities.enable_security, m_cert_file := capabilities.ssl_cert,
        m_private_key_file := capabilities.ssl_private_key,
        m_private_key_password := capabilities.ssl_private_key_password,
        m_ca_file := capabilities.ssl_ca } }

/-- `WebSocketTcpServer::addProtocols`, as far as `init` uses it. -/
def ServerSettings.addProtocols (server : ServerSettings) (protocols : List Bytes) :
    ServerSettings :=
  { server with protocols := some protocols }

/-- The body of the loop of `__create_servers__`, for an enabled entry; `none` is an entry
that is not supported. -/
def createServer (capabilities : Capabilities) (server_info : ServerInfo) :
    Option ServerSettings :=
  match server_info.kinds with
  | .WEBSOCKET =>
      if server_info.tcp then
        some (((newServer server_info .webSocketTcpServer).addProtocols
          server_info.protocols).setCertification capabilities)
      else none
  | .HTTP =>
      if server_info.tcp then
        some ((newServer server_info .httpTcpServer).setCertification capabilities)
      else none
  | .INETDS =>
      if server_info.tcp then some (newServer server_info .inetDomainSocketTcpServer)
      else some (newServer server_info .inetDomainSocketUdpServer)
  | .UNIXDS =>
      if server_info.tcp then some (newServer server_info .unixDomainSocketTcpServer)
      else some (newServer server_info .unixDomainSocketUdpServer)

/-- The loop of `__create_servers__`. -/
def createServersLoop (capabilities : Capabilities) :
    List ServerInfo → List ServerSettings → Bool × List ServerSettings
  | [], m_servers => (true, m_servers)
  | server_info :: server_infos, m_servers =>
      if server_info.enable then
        match createServer capabilities server_info with
        | some server => createServersLoop capabilities server_infos (m_servers ++ [server])
        | none => (false, m_servers)
      else createServersLoop capabilities server_infos m_servers

/-- `ServerFactory::__create_servers__`. -/
def createServers (configuration : JsonConfiguration) (m_servers : List ServerSettings) :
    Bool × List ServerSettings :=
  createServersLoop configuration.capabilities configuration.server_infos m_servers

/-- `ServerFactory::__check_restrict_configuration__`. -/
def checkRestrictConfiguration (configuration : JsonConfiguration) : Bool :=
  if configuration.capabilities.enable_security then
    let enable_server_count := (configuration.server_infos.filter (·.enable)).length
    if 1 < enable_server_count then false else true
  else true

/-! ### Initialising the factory -/

/-- What `ServerFactory::init` reads and writes. -/
structure ServerFactory where
  m_configuration : JsonConfiguration := {}
  m_servers : List ServerSettings := []
  accepted : Bool := false
  initialised : List ℕ := []
  deriving DecidableEq, Repr

/-- What a call of `init` finds: the configuration file, and for each position of
`m_servers` the results of the calls that the server's own `init` makes. -/
structure InitEnv where
  file : ConfigFile
  sys : ℕ → InitResults

/-- The loop at the end of `init`, from position `k` on. -/
def initServers (sys : ℕ → InitResults) :
    ℕ → List ServerSettings → List ℕ → Except StdException Bool × List ℕ
  | _, [], initialised => (.ok true, initialised)
  | k, server :: servers, initialised =>
      match server.initResult (sys k) with
      | .ok true => initServers sys (k + 1) servers (initialised ++ [k])
      | .ok false => (.ok false, initialised)
      | .error e => (.error e, initialised)

/-- `ServerFactory::init`. -/
def ServerFactory.init (factory : ServerFactory) (env : InitEnv) :
    Except StdException Bool × ServerFactory :=
  let decoded := factory.m_configuration.init env.file
  let factory := { factory with m_configuration := decoded.2 }
  if decoded.1 = false then (.ok false, factory)
  else if checkRestrictConfiguration factory.m_configuration = false then (.ok false, factory)
  else
    let created := createServers factory.m_configuration factory.m_servers
    let factory := { factory with m_servers := created.2 }
    if created.1 = false then (.ok false, factory)
    else
      let r := initServers env.sys 0 factory.m_servers factory.initialised
      (r.1, { factory with accepted := true, initialised := r.2 })

/-- The ways in which `init` can end. -/
inductive InitEffect (factory : ServerFactory) (env : InitEnv) :
    Except StdException Bool → ServerFactory → Prop
  | notRead (hf : env.file = .missing ∨ env.file = .unparsable) :
      InitEffect factory env (.ok false) factory
  | notDecoded {root : Json.Value} {e : Json.LogicError} {c : JsonConfiguration}
      (hf : env.file = .parsed root)
      (hd : exec (parse root) factory.m_configuration = (.error e, c)) :
      InitEffect factory env (.ok false) { factory with m_configuration := c }
  | restricted {root : Json.Value} {c : JsonConfiguration} (hf : env.file = .parsed root)
      (hd : exec (parse root) factory.m_configuration = (.ok (), c))
      (hr : checkRestrictConfiguration c = false) :
      InitEffect factory env (.ok false) { factory with m_configuration := c }
  | notCreated {root : Json.Value} {c : JsonConfiguration} {m_servers : List ServerSettings}
      (hf : env.file = .parsed root)
      (hd : exec (parse root) factory.m_configuration = (.ok (), c))
      (hr : checkRestrictConfiguration c = true)
      (hc : createServers c factory.m_servers = (false, m_servers)) :
      InitEffect factory env (.ok false)
        { factory with m_configuration := c, m_servers := m_servers }
  | created {root : Json.Value} {c : JsonConfiguration} {m_servers : List ServerSettings}
      {r : Except StdException Bool} {initialised : List ℕ} (hf : env.file = .parsed root)
      (hd : exec (parse root) factory.m_configuration = (.ok (), c))
      (hr : checkRestrictConfiguration c = true)
      (hc : createServers c factory.m_servers = (true, m_servers))
      (hi : initServers env.sys 0 m_servers factory.initialised = (r, initialised)) :
      InitEffect factory env r
        { m_configuration := c, m_servers := m_servers, accepted := true,
          initialised := initialised }

/-- **Inversion of `init`.** -/
theorem ServerFactory.init_effect (factory : ServerFactory) (env : InitEnv) :
    InitEffect factory env (factory.init env).1 (factory.init env).2 := by
  cases hf : env.file with
  | missing =>
      simp only [ServerFactory.init, hf, JsonConfiguration.init, if_true]
      exact .notRead (.inl hf)
  | unparsable =>
      simp only [ServerFactory.init, hf, JsonConfiguration.init, if_true]
      exact .notRead (.inr hf)
  | parsed root =>
      rcases hd : exec (parse root) factory.m_configuration with ⟨e | u, c⟩
      · simp only [ServerFactory.init, hf, JsonConfiguration.init, hd, if_true]
        exact .notDecoded hf hd
      · cases hr : checkRestrictConfiguration c with
        | false =>
            simp only [ServerFactory.init, hf, JsonConfiguration.init, hd, hr, if_true,
              Bool.true_eq_false, if_false]
            exact .restricted hf hd hr
        | true =>
            rcases hc : createServers c factory.m_servers with ⟨ok, m_servers⟩
            cases ok with
            | false =>
                simp only [ServerFactory.init, hf, JsonConfiguration.init, hd, hr, hc, if_true,
                  Bool.true_eq_false, if_false]
                exact .notCreated hf hd hr hc
            | true =>
                rcases hi : initServers env.sys 0 m_servers factory.initialised with
                  ⟨r, initialised⟩
                simp only [ServerFactory.init, hf, JsonConfiguration.init, hd, hr, hc, hi,
                  Bool.true_eq_false, if_false]
                exact .created hf hd hr hc hi

/-- An `init` that returns `true` has got to the end of all stages. -/
theorem ServerFactory.created_of_init {factory factory' : ServerFactory} {env : InitEnv}
    (h : factory.init env = (.ok true, factory')) :
    ∃ root, env.file = .parsed root ∧
      exec (parse root) factory.m_configuration = (.ok (), factory'.m_configuration) ∧
      createServers factory'.m_configuration factory.m_servers = (true, factory'.m_servers) ∧
      initServers env.sys 0 factory'.m_servers factory.initialised =
        (.ok true, factory'.initialised) := by
  have heffect := factory.init_effect env
  rw [h] at heffect
  generalize hr : (Except.ok true : Except StdException Bool) = r at heffect
  cases heffect with
  | notRead _ | notDecoded _ _ | restricted _ _ _ | notCreated _ _ _ _ => cases hr
  | created hf hd _ hc hi => exact ⟨_, hf, hd, hc, hr ▸ hi⟩

/-! ### What is created -/

/-- The servers for the enabled entries, up to the first entry that is not supported. -/
def createdServers (configuration : JsonConfiguration) : List ServerSettings :=
  (((configuration.server_infos.filter (·.enable)).map
    (createServer configuration.capabilities)).takeWhile Option.isSome).filterMap id

/-- **Which servers are created.** -/
theorem createServers_eq (configuration : JsonConfiguration) (m_servers : List ServerSettings) :
    (createServers configuration m_servers).2 = m_servers ++ createdServers configuration := by
  rw [createServers, createdServers]
  generalize configuration.server_infos = server_infos
  generalize configuration.capabilities = capabilities
  induction server_infos generalizing m_servers with
  | nil => simp [createServersLoop]
  | cons server_info server_infos ih =>
      by_cases he : server_info.enable = true
      · cases hc : createServer capabilities server_info with
        | none => simp [createServersLoop, he, hc]
        | some server => simp [createServersLoop, he, hc, ih]
      · simp [createServersLoop, he, ih]

/-- The loop goes through exactly if every enabled entry is supported. -/
theorem createServersLoop_fst_iff {capabilities : Capabilities} {server_infos : List ServerInfo}
    {m_servers : List ServerSettings} :
    (createServersLoop capabilities server_infos m_servers).1 = true ↔
      ∀ server_info ∈ server_infos, server_info.enable = true →
        (createServer capabilities server_info).isSome := by
  induction server_infos generalizing m_servers with
  | nil => simp [createServersLoop]
  | cons server_info server_infos ih =>
      rw [List.forall_mem_cons, createServersLoop]
      by_cases he : server_info.enable = true
      · cases hc : createServer capabilities server_info with
        | none => simp [he]
        | some server => simp [he, ih]
      · simp [he, ih]

/-- It then adds one server for each enabled entry, in order. -/
theorem createServersLoop_created {capabilities : Capabilities}
    {server_infos : List ServerInfo} {m_servers servers : List ServerSettings}
    (h : createServersLoop capabilities server_infos m_servers = (true, servers)) :
    ∃ created, servers = m_servers ++ created ∧
      List.Forall₂ (fun server_info server => createServer capabilities server_info = some server)
        (server_infos.filter (·.enable)) created := by
  induction server_infos generalizing m_servers with
  | nil =>
      obtain rfl := (Prod.mk.inj h).2
      exact ⟨[], (List.append_nil _).symm, .nil⟩
  | cons server_info server_infos ih =>
      rw [createServersLoop] at h
      split at h
      · next he =>
        rw [List.filter_cons_of_pos he]
        split at h
        · next server hc =>
          obtain ⟨created, rfl, hcreated⟩ := ih h
          exact ⟨server :: created, by simp, .cons hc hcreated⟩
        · cases h
      · next he =>
        rw [List.filter_cons_of_neg he]
        exact ih h

/-! ### What a failed call leaves behind -/

/-- Whether a document decodes without an exception. -/
def decodes (root : Json.Value) : Bool :=
  (exec (parse root) {}).1.isOk

/-- The entries that decoding a document appends, up to an exception if there is one. -/
def decodedServers (root : Json.Value) : List ServerInfo :=
  (exec (parse root) {}).2.server_infos

section

variable {factory factory' : ServerFactory} {env : InitEnv} {root : Json.Value}

/-- Decoding from any configuration, compared to decoding from an empty one. -/
theorem exec_parse {c c' : JsonConfiguration} {r : Except Json.LogicError Unit}
    (hd : exec (parse root) c = (r, c')) :
    c'.server_infos = c.server_infos ++ decodedServers root ∧ decodes root = r.isOk := by
  have happends : Throwing.Appends JsonConfiguration.server_infos (parse root) := parse_appends
  have hempty : ({} : JsonConfiguration).server_infos = [] := rfl
  obtain ⟨hr, hinfos⟩ := happends.from_empty (s := c) hempty
  rw [hd] at hr hinfos
  exact ⟨hinfos, by rw [decodes, ← hr]⟩

/-- **What a failed `init` leaves behind.** A file that is missing or not JSON changes
nothing. Otherwise the configuration has what was decoded, with the new entries after the
old ones, and the servers created from all entries come after the old servers, unless
decoding or the restriction check has failed. -/
theorem init_false_keeps (h : factory.init env = (.ok false, factory')) :
    (env.file = .missing ∨ env.file = .unparsable → factory' = factory) ∧
    ∀ root, env.file = .parsed root →
      factory'.m_configuration = (exec (parse root) factory.m_configuration).2 ∧
      factory'.m_configuration.server_infos =
        factory.m_configuration.server_infos ++ decodedServers root ∧
      factory'.m_servers = factory.m_servers ++
        if decodes root && checkRestrictConfiguration factory'.m_configuration then
          createdServers factory'.m_configuration
        else [] := by
  have heffect := factory.init_effect env
  rw [h] at heffect
  cases heffect with
  | notRead hf =>
      refine ⟨fun _ => rfl, fun root hroot => ?_⟩
      rcases hf with hf | hf <;> rw [hf] at hroot <;> cases hroot
  | notDecoded hf hd =>
      obtain ⟨hinfos, hok⟩ := exec_parse hd
      refine ⟨fun hn => by simp [hf] at hn, fun root hroot => ?_⟩
      obtain rfl := ConfigFile.parsed.inj (hf.symm.trans hroot)
      exact ⟨by rw [hd], hinfos, by simp [hok, Except.isOk, Except.toBool]⟩
  | restricted hf hd hr =>
      obtain ⟨hinfos, -⟩ := exec_parse hd
      refine ⟨fun hn => by simp [hf] at hn, fun root hroot => ?_⟩
      obtain rfl := ConfigFile.parsed.inj (hf.symm.trans hroot)
      exact ⟨by rw [hd], hinfos, by simp [hr]⟩
  | notCreated hf hd hr hc | created hf hd hr hc _ =>
      obtain ⟨hinfos, hok⟩ := exec_parse hd
      have hservers := (createServers_eq _ _).symm.trans (congrArg Prod.snd hc)
      refine ⟨fun hn => by simp [hf] at hn, fun root hroot => ?_⟩
      obtain rfl := ConfigFile.parsed.inj (hf.symm.trans hroot)
      refine ⟨by rw [hd], hinfos, ?_⟩
      simp only [hok, hr, Except.isOk, Except.toBool, Bool.and_self, if_true]
      exact hservers.symm

end

/-! ### An entry that is not supported -/

/-- A document with an enabled inet server, and after it a WebSocket server over UDP. -/
def webSocketOverUdp : Json.Value :=
  .object [(ascii "server_list", .array
    [.object [(ascii "type", .string (ascii "inet_domainsocket")), (ascii "enable", .bool true),
        (ascii "bind", .string (ascii "8080")), (ascii "tcp", .bool true)],
      .object [(ascii "type", .string (ascii "websocket")), (ascii "enable", .bool true),
        (ascii "bind", .string (ascii "8081")), (ascii "tcp", .bool false)]])]

/-- All calls that `init` may make succeed. -/
def goodResults : InitResults :=
  { epoll_create := 3, access := -1, socket := 4, bind := 0, listen := 0, epoll_ctl := 0,
    lws_create_context := true, lws_create_vhost := true }

/-- A file with this document, and a system in which all calls succeed. -/
def initEnvOf (root : Json.Value) : InitEnv :=
  { file := .parsed root, sys := fun _ => goodResults }

/-- An enabled entry for a UDP server on a path. -/
def unixUdpEntry (path : String) : Json.Value :=
  .object [(ascii "type", .string (ascii "unix_domainsocket")), (ascii "enable", .bool true),
    (ascii "bind", .string (ascii path)), (ascii "tcp", .bool false)]

/-- A document with UDP servers on these paths. -/
def unixUdpServers (paths : List String) : Json.Value :=
  .object [(ascii "server_list", .array (paths.map unixUdpEntry))]

/-- The failed call leaves the server for the first entry behind. -/
theorem init_false_keeps_webSocketOverUdp :
    ∃ factory' : ServerFactory,
      ServerFactory.init {} (initEnvOf webSocketOverUdp) = (.ok false, factory') ∧
      factory'.m_servers = createdServers factory'.m_configuration ∧
      factory'.m_servers.map (·.kind) = [.inetDomainSocketTcpServer] := by
  have h : ServerFactory.init {} (initEnvOf webSocketOverUdp) = (.ok false, _) := rfl
  exact ⟨_, h, ((init_false_keeps h).2 webSocketOverUdp rfl).2.2, rfl⟩

/-- With what a failed call leaves behind, a call with a document that suits a fresh factory
fails. -/
theorem init_false_changes :
    ∃ factory' : ServerFactory,
      ServerFactory.init {} (initEnvOf webSocketOverUdp) = (.ok false, factory') ∧
      factory'.m_configuration.server_infos.length = 2 ∧ factory'.m_servers.length = 1 ∧
      (factory'.init (initEnvOf (.object []))).1 = .ok false ∧
      (ServerFactory.init {} (initEnvOf (.object []))).1 = .ok true :=
  ⟨_, rfl, rfl, rfl, rfl, rfl⟩

end AnyServer
