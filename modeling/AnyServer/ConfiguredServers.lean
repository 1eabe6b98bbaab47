import AnyServer.Decoding
import AnyServer.ServerFactory

/-!
# Configured Servers

From the document to the list of servers: what `__parse__` decodes, what
`__check_restrict_configuration__` lets through, and what `__create_servers__` makes of it.

## Main results

* `configured_servers`: which documents are decoded, which decoded configurations come to
  servers, and to which.
-/

namespace AnyServer

open Throwing (exec)

/-! ### From an entry to its server -/

/-- The class for a type and a transport, where there is one. -/
def serverKindOf (kinds : ServerKinds) (tcp : Bool) : Option ServerKind :=
  match kinds, tcp with
  | .WEBSOCKET, true => some .webSocketTcpServer
  | .HTTP, true => some .httpTcpServer
  | .INETDS, true => some .inetDomainSocketTcpServer
  | .INETDS, false => some .inetDomainSocketUdpServer
  | .UNIXDS, true => some .unixDomainSocketTcpServer
  | .UNIXDS, false => some .unixDomainSocketUdpServer
  | .WEBSOCKET, false | .HTTP, false => none

/-- The server is the one for the entry. -/
structure CreatedFor (info : ServerInfo) (server : ServerSettings) : Prop where
  kind : serverKindOf info.kinds info.tcp = some server.kind
  m_name : server.m_name = info.header
  m_bind : server.m_bind = info.bind
  m_tcp : server.m_tcp = info.tcp
  m_max_client : server.m_max_client = info.max_client

/-- With security there is at most one enabled entry, and no WebSocket or HTTP server is
asked for over UDP. -/
structure JsonConfiguration.Acceptable (c : JsonConfiguration) : Prop where
  restricted : c.capabilities.enable_security = false ∨
    (c.server_infos.filter (·.enable)).length ≤ 1
  supported : ∀ info ∈ c.server_infos, info.enable = true →
    info.kinds = .WEBSOCKET ∨ info.kinds = .HTTP → info.tcp = true

section

variable {capabilities : Capabilities} {info : ServerInfo} {server : ServerSettings}
  {c : JsonConfiguration} {m_servers : List ServerSettings}

/-! ### Creating -/

/-- A server that is created takes its settings from its entry. -/
theorem createServer_createdFor (h : createServer capabilities info = some server) :
    CreatedFor info server := by
  rw [createServer] at h
  cases hkinds : info.kinds <;> cases htcp : info.tcp <;> rw [hkinds, htcp] at h <;> cases h <;>
    exact ⟨by rw [hkinds, htcp]; rfl, rfl, rfl, rfl, rfl⟩

/-- An entry has a server unless it is a websocket or http one without tcp. -/
theorem createServer_isSome_iff : (createServer capabilities info).isSome ↔
    (info.kinds = .WEBSOCKET ∨ info.kinds = .HTTP → info.tcp = true) := by
  rw [createServer]
  cases hkinds : info.kinds <;> cases htcp : info.tcp <;> simp

/-- What is checked and created of a configuration that is accepted. -/
theorem acceptable_iff :
    checkRestrictConfiguration c = true ∧ (createServers c m_servers).1 = true ↔
      c.Acceptable := by
  have hcheck : checkRestrictConfiguration c = true ↔
      c.capabilities.enable_security = false ∨
        (c.server_infos.filter (·.enable)).length ≤ 1 := by
    rw [checkRestrictConfiguration]
    cases c.capabilities.enable_security with
    | false => simp
    | true => simp
  rw [hcheck, createServers, createServersLoop_fst_iff]
  simp only [createServer_isSome_iff]
  exact ⟨fun h => ⟨h.1, h.2⟩, fun h => ⟨h.restricted, h.supported⟩⟩

/-- An acceptable configuration passes the check and gets all its servers. -/
theorem JsonConfiguration.Acceptable.accepted (hc : c.Acceptable)
    (m_servers : List ServerSettings) :
    checkRestrictConfiguration c = true ∧ (createServers c m_servers).1 = true :=
  acceptable_iff.mpr hc

/-- Servers are created for an acceptable configuration, one for each enabled entry. -/
theorem JsonConfiguration.Acceptable.created (hc : c.Acceptable) :
    ∃ servers, createServers c [] = (true, servers) ∧
      List.Forall₂ CreatedFor (c.server_infos.filter (·.enable)) servers := by
  have hcreated : createServers c [] = (true, (createServers c []).2) :=
    Prod.ext (hc.accepted []).2 rfl
  obtain ⟨created, hservers, hall⟩ := createServersLoop_created hcreated
  refine ⟨created, hcreated.trans (by rw [hservers, List.nil_append]), ?_⟩
  exact hall.imp fun _ _ => createServer_createdFor

/-- **From the document to the servers.** A document decodes exactly if all the conversions
succeed that it needs. What is decoded passes the check and comes to servers exactly if it is
acceptable, and the servers are then those for the enabled entries, in order. -/
theorem configured_servers (root : Json.Value) :
    ((JsonConfiguration.init {} (.parsed root)).1 = true ↔
        ∃ c : JsonConfiguration, c.DecodedFrom root) ∧
      ∀ c, JsonConfiguration.init {} (.parsed root) = (true, c) →
        c.DecodedFrom root ∧
        (checkRestrictConfiguration c = true ∧ (createServers c []).1 = true ↔ c.Acceptable) ∧
        (c.Acceptable →
          List.Forall₂ CreatedFor (c.server_infos.filter (·.enable)) (createServers c []).2) := by
  have hdecoded : ∀ c : JsonConfiguration, JsonConfiguration.init {} (.parsed root) = (true, c) ↔
      c.DecodedFrom root := by
    intro c
    rw [← exec_parse_ok_iff, JsonConfiguration.init]
    rcases exec (parse root) {} with ⟨e | u, c'⟩ <;> simp
  refine ⟨⟨fun h => ⟨_, (hdecoded _).mp (Prod.ext h rfl)⟩, ?_⟩, fun c h => ?_⟩
  · rintro ⟨c, h⟩
    rw [(hdecoded c).mpr h]
  · refine ⟨(hdecoded c).mp h, acceptable_iff, fun hc => ?_⟩
    obtain ⟨servers, hcreated, hall⟩ := hc.created
    rw [hcreated]
    exact hall

/-! ### The first `init` of a factory -/

/-- The file holds a document that decodes to an acceptable configuration. -/
def InitEnv.Accepts (env : InitEnv) (c : JsonConfiguration) : Prop :=
  ∃ root, env.file = .parsed root ∧ c.DecodedFrom root ∧ c.Acceptable

/-- A configuration that `init()` accepts is acceptable. -/
theorem InitEnv.Accepts.acceptable {env : InitEnv} (h : env.Accepts c) : c.Acceptable := by
  obtain ⟨_, -, -, hacceptable⟩ := h
  exact hacceptable

/-- One file gives one configuration. -/
theorem InitEnv.Accepts.unique {env : InitEnv} {c' : JsonConfiguration} (h : env.Accepts c)
    (h' : env.Accepts c') : c = c' := by
  obtain ⟨root, hf, hc, -⟩ := h
  obtain ⟨root', hf', hc', -⟩ := h'
  obtain rfl := ConfigFile.parsed.inj (hf.symm.trans hf')
  have hexec := (exec_parse_ok_iff.mpr hc).symm.trans (exec_parse_ok_iff.mpr hc')
  exact (Prod.mk.inj hexec).2

/-- **Inversion of the first `init`.** Either it comes to an acceptable configuration and to
the loop over its servers, or there is none to be had. -/
theorem ServerFactory.init_new (env : InitEnv) :
    (∃ c servers, env.Accepts c ∧ createServers c [] = (true, servers) ∧
      ServerFactory.init {} env = ((initServers env.sys 0 servers []).1,
        { m_configuration := c, m_servers := servers, accepted := true,
          initialised := (initServers env.sys 0 servers []).2 })) ∨
    (∀ c, ¬ env.Accepts c) ∧ (ServerFactory.init {} env).1 = .ok false := by
  have heffect := ServerFactory.init_effect {} env
  have hdecoded : ∀ {root : Json.Value} {r : Except Json.LogicError Unit}
      {c c' : JsonConfiguration}, exec (parse root) {} = (r, c) → c'.DecodedFrom root →
        r = .ok () ∧ c' = c := by
    intro root r c c' hexec hc'
    have hexec' := hexec.symm.trans (exec_parse_ok_iff.mpr hc')
    exact ⟨(Prod.mk.inj hexec').1, (Prod.mk.inj hexec').2.symm⟩
  generalize hr : ServerFactory.init {} env = r at heffect ⊢
  obtain ⟨r, factory⟩ := r
  dsimp only at heffect
  cases heffect with
  | notRead hf =>
      refine .inr ⟨?_, rfl⟩
      rintro c ⟨root, hroot, -⟩
      rcases hf with hf | hf <;> cases hf.symm.trans hroot
  | notDecoded hf hd =>
      refine .inr ⟨?_, rfl⟩
      rintro c ⟨root, hroot, hc, -⟩
      obtain rfl := ConfigFile.parsed.inj (hf.symm.trans hroot)
      cases (hdecoded hd hc).1
  | restricted hf hd hcheck =>
      refine .inr ⟨?_, rfl⟩
      rintro c ⟨root, hroot, hc, hacceptable⟩
      obtain rfl := ConfigFile.parsed.inj (hf.symm.trans hroot)
      obtain rfl := (hdecoded hd hc).2
      cases hcheck.symm.trans (hacceptable.accepted []).1
  | notCreated hf hd hcheck hcreate =>
      refine .inr ⟨?_, rfl⟩
      rintro c ⟨root, hroot, hc, hacceptable⟩
      obtain rfl := ConfigFile.parsed.inj (hf.symm.trans hroot)
      obtain rfl := (hdecoded hd hc).2
      cases (congrArg Prod.fst hcreate).symm.trans (hacceptable.accepted []).2
  | @created root c m_servers r initialised hf hd hcheck hcreate hi =>
      have hi : initServers env.sys 0 m_servers [] = (r, initialised) := hi
      have hcreate : createServers c [] = (true, m_servers) := hcreate
      have hacceptable : c.Acceptable := acceptable_iff.mp ⟨hcheck, by rw [hcreate]⟩
      exact .inl ⟨c, m_servers, ⟨root, hf, exec_parse_ok_iff.mp hd, hacceptable⟩, hcreate,
        by rw [hi]⟩

end

end AnyServer
