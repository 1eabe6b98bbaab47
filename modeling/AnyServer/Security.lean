import AnyServer.AnyServerImpl
import AnyServer.ConfiguredServers

/-!
# Security

`capabilities.security` asks for servers that are reached over TLS. The check of the
configuration lets through one enabled entry then, of whatever type. The branches of
`__create_servers__` for WebSocket and HTTP servers hand the certificate on with
`setCertification`, and the `init` of these two classes sets up the context from it. The
branches for the socket servers make no such call, and the `init` of their classes would
make no use of it.

Both lws classes also pass the option `ALLOW_NON_SSL_ON_SSL_PORT`.

## Main results

* `secured_iff`: when every server of a secure configuration is a secure server.
-/

namespace AnyServer

open Throwing

/-! ### The context of an lws server -/

/-- `LWS_SERVER_OPTION_*`. -/
inductive LwsServerOption
  | REDIRECT_HTTP_TO_HTTPS
  | VALIDATE_UTF8
  | ALLOW_NON_SSL_ON_SSL_PORT
  | PEER_CERT_NOT_REQUIRED
  | EXPLICIT_VHOSTS
  | DO_SSL_GLOBAL_INIT
  deriving DecidableEq, Repr

/-- What `init` sets of `m_context_create_info` that depends on the settings; `none` is a null
pointer. -/
structure ContextCreateInfo where
  port : ℤ
  vhost_name : Option Bytes := none
  ssl_private_key_filepath : Option Bytes := none
  ssl_private_key_password : Option Bytes := none
  ssl_cert_filepath : Option Bytes := none
  ssl_ca_filepath : Option Bytes := none
  options : List LwsServerOption
  ssl_cipher_list : Option Bytes := none
  server_string : Bytes
  fd_limit_per_thread : ℕ
  deriving DecidableEq, Repr

/-- The list of ciphers that both libwebsockets classes give. -/
def sslCipherList : Bytes :=
  ascii ("ECDHE-ECDSA-AES256-GCM-SHA384:ECDHE-RSA-AES256-GCM-SHA384:" ++
    "DHE-RSA-AES256-GCM-SHA384:ECDHE-RSA-AES256-SHA384:HIGH:!aNULL:!eNULL:!EXPORT:" ++
    "!DES:!MD5:!PSK:!RC4:!HMAC_SHA1:!SHA1:!DHE-RSA-AES128-GCM-SHA256:" ++
    "!DHE-RSA-AES128-SHA256:!AES128-GCM-SHA256:!AES128-SHA256:!DHE-RSA-AES256-SHA256:" ++
    "!AES256-GCM-SHA384:!AES256-SHA256")

/-- What both lws classes set, apart from the options. -/
def ServerSettings.createInfo (server : ServerSettings) (port : ℤ)
    (secureOptions plainOptions : List LwsServerOption) : ContextCreateInfo :=
  if server.certification.m_security then
    { port
      vhost_name := some (ascii "localhost")
      ssl_private_key_filepath := some server.certification.m_private_key_file
      ssl_private_key_password := some server.certification.m_private_key_password
      ssl_cert_filepath := some server.certification.m_cert_file
      ssl_ca_filepath := some server.certification.m_ca_file
      options := secureOptions
      ssl_cipher_list := some sslCipherList
      server_string := server.m_name
      fd_limit_per_thread := server.m_max_client }
  else
    { port
      options := plainOptions
      server_string := server.m_name
      fd_limit_per_thread := server.m_max_client }

/-- The `lws_context_creation_info` of `HttpTcpServer::init`. -/
def HttpTcpServer.createInfo (server : ServerSettings) (port : ℤ) : ContextCreateInfo :=
  server.createInfo port
    [.REDIRECT_HTTP_TO_HTTPS, .VALIDATE_UTF8, .ALLOW_NON_SSL_ON_SSL_PORT,
      .PEER_CERT_NOT_REQUIRED, .DO_SSL_GLOBAL_INIT]
    []

/-- The `lws_context_creation_info` of `WebSocketTcpServer::init`. -/
def WebSocketTcpServer.createInfo (server : ServerSettings) (port : ℤ) : ContextCreateInfo :=
  server.createInfo port
    [.REDIRECT_HTTP_TO_HTTPS, .VALIDATE_UTF8, .ALLOW_NON_SSL_ON_SSL_PORT,
      .PEER_CERT_NOT_REQUIRED, .EXPLICIT_VHOSTS, .DO_SSL_GLOBAL_INIT]
    [.EXPLICIT_VHOSTS]

/-- What the context is created from, in the classes that create one. -/
def ServerSettings.contextCreateInfo (server : ServerSettings) (port : ℤ) :
    Option ContextCreateInfo :=
  match server.kind with
  | .httpTcpServer => some (HttpTcpServer.createInfo server port)
  | .webSocketTcpServer => some (WebSocketTcpServer.createInfo server port)
  | _ => none

/-! ### Secure servers -/

/-- What a secure server is told. -/
def Capabilities.certification (capabilities : Capabilities) : Certification :=
  { m_security := true, m_cert_file := capabilities.ssl_cert,
    m_private_key_file := capabilities.ssl_private_key,
    m_private_key_password := capabilities.ssl_private_key_password,
    m_ca_file := capabilities.ssl_ca }

/-- The call opens a socket, which has no transport security. -/
def InitCall.opensSocket : InitCall → Bool
  | .socket _ _ => true
  | _ => false

/-- The server has been told to be secure with what is configured, and its `init` opens a
context set up for TLS from that and no socket of its own. -/
structure ServerSettings.Secured (capabilities : Capabilities) (sys : InitResults)
    (server : ServerSettings) : Prop where
  certified : server.certification = capabilities.certification
  opensNoSocket : ∀ c ∈ (exec (server.init sys) []).2, c.opensSocket = false
  transport : ∃ port info,
    InitCall.lws_create_context port server.certification ∈ (exec (server.init sys) []).2 ∧
      server.contextCreateInfo port = some info ∧
      info.ssl_cert_filepath = some capabilities.ssl_cert ∧
      info.ssl_private_key_filepath = some capabilities.ssl_private_key ∧
      info.ssl_private_key_password = some capabilities.ssl_private_key_password ∧
      info.ssl_ca_filepath = some capabilities.ssl_ca ∧
      .DO_SSL_GLOBAL_INIT ∈ info.options

section

variable {capabilities : Capabilities} {sys : InitResults} {server : ServerSettings}
  {info : ServerInfo} {infos : List ServerInfo} {servers : List ServerSettings} {k : ℕ}
  {c : JsonConfiguration} {env : InitEnv} {factory : ServerFactory}

/-- The calls of an lws class's `init` that returns. -/
theorem HttpTcpServer.calls_of_ok {b : Bool} (hk : server.kind = .httpTcpServer)
    (h : server.initResult sys = .ok b) : ∃ port, (exec (server.init sys) []).2 =
      [.lws_create_context port server.certification] := by
  simp only [ServerSettings.initResult, ServerSettings.init, hk, exec_init] at h ⊢
  cases hport : stoi server.m_bind with
  | error e =>
      rw [hport] at h
      cases h
  | ok port => exact ⟨port, rfl⟩

/-- An `init()` that returns has made its context, with the server's certification. -/
theorem WebSocketTcpServer.calls_of_ok {b : Bool} (hk : server.kind = .webSocketTcpServer)
    (h : server.initResult sys = .ok b) : ∃ port, (exec (server.init sys) []).2 =
      .lws_create_context port server.certification ::
        if sys.lws_create_context then [.lws_create_vhost] else [] := by
  simp only [ServerSettings.initResult, ServerSettings.init, hk, exec_init] at h ⊢
  cases hport : stoi server.m_bind with
  | error e =>
      rw [hport] at h
      cases h
  | ok port => exact ⟨port, rfl⟩

/-- A server of a socket class is never told. -/
theorem not_secured (hserver : createServer capabilities info = some server)
    (hkinds : info.kinds = .INETDS ∨ info.kinds = .UNIXDS) :
    ¬ server.Secured capabilities sys := by
  intro hsecured
  have hcertified := congrArg Certification.m_security hsecured.certified
  rcases hkinds with hkinds | hkinds <;> simp only [createServer, hkinds] at hserver <;>
    split at hserver <;> obtain rfl := Option.some.inj hserver <;> cases hcertified

/-- A server that has been told, and opens its context first and no socket after it. -/
theorem secured_of_calls {port : ℤ} {calls : List InitCall}
    {secureOptions plainOptions : List LwsServerOption}
    (hcertified : server.certification = capabilities.certification)
    (hcalls : (exec (server.init sys) []).2 =
      .lws_create_context port server.certification :: calls)
    (hrest : ∀ c ∈ calls, c.opensSocket = false)
    (hinfo : server.contextCreateInfo port =
      some (server.createInfo port secureOptions plainOptions))
    (hoption : .DO_SSL_GLOBAL_INIT ∈ secureOptions) : server.Secured capabilities sys where
  certified := hcertified
  opensNoSocket := by
    rw [hcalls, List.forall_mem_cons]
    exact ⟨rfl, hrest⟩
  transport := by
    have hsecurity : server.certification.m_security = true := by rw [hcertified]; rfl
    refine ⟨port, _, hcalls ▸ List.mem_cons_self, hinfo, ?_⟩
    rw [ServerSettings.createInfo, if_pos hsecurity, hcertified]
    exact ⟨rfl, rfl, rfl, rfl, hoption⟩

/-- A server of an lws class that comes up is secure. -/
theorem secured_of_lws {b : Bool} (hserver : createServer capabilities info = some server)
    (hkinds : info.kinds = .WEBSOCKET ∨ info.kinds = .HTTP)
    (hsecurity : capabilities.enable_security = true)
    (hinit : server.initResult sys = .ok b) : server.Secured capabilities sys := by
  rcases hkinds with hkinds | hkinds
  · simp only [createServer, hkinds] at hserver
    split at hserver
    · obtain rfl := Option.some.inj hserver
      obtain ⟨port, hcalls⟩ := WebSocketTcpServer.calls_of_ok rfl hinit
      refine secured_of_calls ?_ hcalls ?_ rfl (by decide)
      · simp [ServerSettings.setCertification, Capabilities.certification, hsecurity]
      · intro c hc
        split at hc
        · obtain rfl := List.mem_singleton.mp hc
          rfl
        · cases hc
    · cases hserver
  · simp only [createServer, hkinds] at hserver
    split at hserver
    · obtain rfl := Option.some.inj hserver
      obtain ⟨port, hcalls⟩ := HttpTcpServer.calls_of_ok rfl hinit
      refine secured_of_calls ?_ hcalls (fun c hc => by cases hc) rfl (by decide)
      simp [ServerSettings.setCertification, Capabilities.certification, hsecurity]
    · cases hserver

/-! ### Secure configurations -/

/-- The servers made for a list of entries, all of which come up. -/
theorem all_secured_iff {sys : ℕ → InitResults} (hsecurity : capabilities.enable_security = true)
    (hcreated : List.Forall₂ (fun info server => createServer capabilities info = some server)
      infos servers) (hall : AllInit sys k servers) :
    (∀ (j : ℕ) (server : ServerSettings), servers[j]? = some server →
        server.Secured capabilities (sys (k + j))) ↔
      ∀ info ∈ infos, info.kinds = .WEBSOCKET ∨ info.kinds = .HTTP := by
  induction hcreated generalizing k with
  | nil => simp
  | @cons info server infos servers hserver _ ih =>
      rw [allInit_cons] at hall
      rw [List.forall_mem_cons, ← ih hall.2]
      constructor
      · intro h
        refine ⟨?_, fun j server' hj => ?_⟩
        · cases hkinds : info.kinds with
          | WEBSOCKET => exact .inl rfl
          | HTTP => exact .inr rfl
          | INETDS => exact absurd (h 0 server rfl) (not_secured hserver (.inl hkinds))
          | UNIXDS => exact absurd (h 0 server rfl) (not_secured hserver (.inr hkinds))
        · rw [Nat.add_right_comm]
          exact h (j + 1) server' hj
      · rintro ⟨hkinds, hrest⟩ j server' hj
        cases j with
        | zero =>
            obtain rfl := Option.some.inj hj
            exact secured_of_lws hserver hkinds hsecurity hall.1
        | succ j =>
            have := hrest j server' hj
            rwa [Nat.add_right_comm] at this

/-- **When security is not dropped.** Where a secure configuration is accepted and all its
servers come up, each of them is a secure server exactly if the enabled entries are WebSocket
and HTTP servers. -/
theorem secured_iff (hc : env.Accepts c) (hsecurity : c.capabilities.enable_security = true)
    (h : ServerFactory.init {} env = (.ok true, factory)) :
    (∀ (k : ℕ) (server : ServerSettings), factory.m_servers[k]? = some server →
        server.Secured c.capabilities (env.sys k)) ↔
      ∀ info ∈ c.server_infos, info.enable = true →
        info.kinds = .WEBSOCKET ∨ info.kinds = .HTTP := by
  rcases ServerFactory.init_new env with ⟨c', servers, hc', hcreate, hloop⟩ | ⟨hnone, -⟩
  · obtain rfl := hc.unique hc'
    rw [h] at hloop
    obtain ⟨hr, rfl⟩ := Prod.mk.inj hloop
    obtain ⟨n, -, -, hn, hall⟩ := initServers_eq (Prod.ext hr.symm rfl)
    obtain ⟨created, hservers, hcreated⟩ := createServersLoop_created hcreate
    obtain rfl : servers = created := hservers
    have hiff := all_secured_iff hsecurity hcreated (hall.mp (hn.mp rfl))
    simp only [Nat.zero_add, List.mem_filter, and_imp] at hiff
    exact hiff
  · exact absurd hc (hnone c)

end

/-! ### Two secure documents -/

/-- An enabled entry of the given type on port 10000, under security. -/
def securePort (type : String) : Json.Value :=
  .object
    [(ascii "server_list", .array [.object
      [(ascii "type", .string (ascii type)), (ascii "enable", .bool true),
        (ascii "bind", .int 10000), (ascii "tcp", .bool true)]]),
      (ascii "capabilities", .object [(ascii "security", .bool true),
        (ascii "ssl_cert_file", .string (ascii "webserver.crt"))])]

/-- What a document decodes to. -/
def decodedConfiguration (root : Json.Value) : JsonConfiguration :=
  (exec (parse root) {}).2

/-- A single secure WebSocket server is brought up secured. -/
theorem secured_iff_webSocket :
    ∃ factory : ServerFactory,
      ServerFactory.init {} (initEnvOf (securePort "websocket")) = (.ok true, factory) ∧
      ((∀ (k : ℕ) (server : ServerSettings), factory.m_servers[k]? = some server →
          server.Secured (decodedConfiguration (securePort "websocket")).capabilities
            goodResults) ↔
        ∀ info ∈ (decodedConfiguration (securePort "websocket")).server_infos,
          info.enable = true → info.kinds = .WEBSOCKET ∨ info.kinds = .HTTP) := by
  have hdecoded : exec (parse (securePort "websocket")) {} =
      (.ok (), decodedConfiguration (securePort "websocket")) := rfl
  have hacceptable : (decodedConfiguration (securePort "websocket")).Acceptable :=
    (@acceptable_iff _ []).mp ⟨rfl, rfl⟩
  have h : ServerFactory.init {} (initEnvOf (securePort "websocket")) = (.ok true, _) := rfl
  exact ⟨_, h, secured_iff ⟨_, rfl, exec_parse_ok_iff.mp hdecoded, hacceptable⟩ rfl h⟩

/-- Under security an inet server comes up on a plain socket, without a certificate. -/
theorem inetServer_not_secured :
    ∃ (factory : ServerFactory) (server : ServerSettings),
      ServerFactory.init {} (initEnvOf (securePort "inet_domainsocket")) = (.ok true, factory) ∧
      (decodedConfiguration (securePort "inet_domainsocket")).capabilities.enable_security =
        true ∧
      factory.m_servers = [server] ∧ server.certification = {} ∧
      InitCall.socket true true ∈ (exec (server.init goodResults) []).2 ∧
      ¬ server.Secured (decodedConfiguration (securePort "inet_domainsocket")).capabilities
        goodResults := by
  refine ⟨_, _, rfl, rfl, rfl, rfl, .tail _ (.head _), fun h => ?_⟩
  cases congrArg Certification.m_security h.certified

end AnyServer
