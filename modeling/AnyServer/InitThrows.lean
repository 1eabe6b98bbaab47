import AnyServer.AnyServerImpl
import AnyServer.ConfiguredServers

/-!
# Exceptions that Leave `init`

`Configuration::__parse__` catches the exceptions of its conversions. The bind string of an
entry is whatever `asString` makes of the document's value, and only the `init` of the server
made for the entry turns it into a number. There nothing catches what `std::stoi` throws, and
the exception leaves `ServerFactory::init` and `AnyServerImpl::init`.

## Main results

* `initResult_error_iff` / `initResult_true_iff`: when the `init` of a server throws, and when
  it returns `true`.
* `init_throws_nothing_iff`: when no exception leaves the first `init` of an object.
-/

namespace AnyServer

open Throwing

/-! ### One server -/

/-- `init` comes to its `stoi`. -/
def ServerKind.UsesPort (sys : InitResults) : ServerKind → Prop
  | .inetDomainSocketTcpServer => ¬ sys.epoll_create < 0 ∧ ¬ sys.socket < 0
  | .inetDomainSocketUdpServer | .httpTcpServer | .webSocketTcpServer => True
  | .unixDomainSocketTcpServer | .unixDomainSocketUdpServer => False

/-- None of the calls that `init` makes and looks at fails. -/
def ServerKind.CallsSucceed (sys : InitResults) : ServerKind → Prop
  | .inetDomainSocketTcpServer =>
      ¬ sys.epoll_create < 0 ∧ ¬ sys.socket < 0 ∧ sys.bind ≠ -1 ∧ ¬ sys.epoll_ctl < 0
  | .unixDomainSocketTcpServer =>
      ¬ sys.epoll_create < 0 ∧ sys.socket ≠ -1 ∧ ¬ sys.bind < 0 ∧ ¬ sys.listen < 0 ∧
        ¬ sys.epoll_ctl < 0
  | .inetDomainSocketUdpServer | .unixDomainSocketUdpServer =>
      ¬ sys.socket < 0 ∧ ¬ sys.bind < 0
  | .httpTcpServer => sys.lws_create_context = true
  | .webSocketTcpServer => sys.lws_create_context = true ∧ sys.lws_create_vhost = true

/-- Each entry in turn, the first being that of the server at position `k`: if its server
comes to its `stoi`, the bind string is a number there, and if its calls succeed, so do those
after it. -/
def PortsReadable (sys : ℕ → InitResults) : ℕ → List ServerInfo → Prop
  | _, [] => True
  | k, info :: infos =>
      ∀ kind, serverKindOf info.kinds info.tcp = some kind →
        (kind.UsesPort (sys k) → ∃ port, stoi info.bind = .ok port) ∧
        (kind.CallsSucceed (sys k) → PortsReadable sys (k + 1) infos)

/-- What a call of a server's `init` can come to. -/
inductive InitOutcome (server : ServerSettings) (sys : InitResults) :
    Except StdException Bool → Prop
  | throws {e : StdException} (huse : server.kind.UsesPort sys)
      (hport : stoi server.m_bind = .error e) : InitOutcome server sys (.error e)
  | returns {b : Bool}
      (hport : server.kind.UsesPort sys → ∃ port, stoi server.m_bind = .ok port)
      (hcalls : b = true ↔ server.kind.CallsSucceed sys) : InitOutcome server sys (.ok b)

section

variable {server : ServerSettings} {sys : InitResults}

/-- What `init()` of the INET TCP server comes to. -/
theorem InetDomainSocketTcpServer.init_outcome
    (hk : server.kind = .inetDomainSocketTcpServer) :
    InitOutcome server sys (exec (InetDomainSocketTcpServer.init server sys) []).1 := by
  by_cases hepoll : sys.epoll_create < 0
  · have hr : (exec (InetDomainSocketTcpServer.init server sys) []).1 = .ok false := by
      simp [InetDomainSocketTcpServer.init, exec_map, hepoll, Except.map]
    rw [hr]
    exact .returns (by simp [hk, ServerKind.UsesPort, hepoll])
      (by simp [hk, ServerKind.CallsSucceed, hepoll])
  · by_cases hsocket : sys.socket < 0
    · have hr : (exec (InetDomainSocketTcpServer.init server sys) []).1 = .ok false := by
        simp [InetDomainSocketTcpServer.init, exec_bind, exec_map, hepoll, hsocket, Except.map]
      rw [hr]
      exact .returns (by simp [hk, ServerKind.UsesPort, hsocket])
        (by simp [hk, ServerKind.CallsSucceed, hsocket])
    · cases hport : stoi server.m_bind with
      | error e =>
          have hr : (exec (InetDomainSocketTcpServer.init server sys) []).1 = .error e := by
            simp [InetDomainSocketTcpServer.init, exec_bind, hepoll, hsocket, hport]
          rw [hr]
          exact .throws (by simp [hk, ServerKind.UsesPort, hepoll, hsocket]) hport
      | ok port =>
          have hr : (exec (InetDomainSocketTcpServer.init server sys) []).1 =
              .ok (sys.bind ≠ -1 ∧ ¬ sys.epoll_ctl < 0) := by
            by_cases hbind : -1 = sys.bind
            · simp [InetDomainSocketTcpServer.init, exec_bind, exec_map, hepoll, hsocket, hport,
                ← hbind, Except.map]
            · by_cases hctl : sys.epoll_ctl < 0 <;>
                simp [InetDomainSocketTcpServer.init, exec_bind, exec_map, hepoll, hsocket,
                  hport, hbind, hctl, Except.map, Ne.symm hbind]
          rw [hr]
          exact .returns (fun _ => ⟨port, hport⟩)
            (by simp [hk, ServerKind.CallsSucceed, hepoll, hsocket])

/-- What `init()` of the UNIX TCP server comes to. -/
theorem UnixDomainSocketTcpServer.init_outcome
    (hk : server.kind = .unixDomainSocketTcpServer) :
    InitOutcome server sys (exec (UnixDomainSocketTcpServer.init server sys) []).1 := by
  have huse : ¬ server.kind.UsesPort sys := by simp [hk, ServerKind.UsesPort]
  have hr : ∃ b, (exec (UnixDomainSocketTcpServer.init server sys) []).1 = .ok b ∧
      (b = true ↔ server.kind.CallsSucceed sys) := by
    simp only [hk, ServerKind.CallsSucceed]
    by_cases hepoll : sys.epoll_create < 0
    · exact ⟨false, by simp [UnixDomainSocketTcpServer.init, exec_map, hepoll, Except.map],
        by simp [hepoll]⟩
    · by_cases hsocket : sys.socket = -1
      · refine ⟨false, ?_, by simp [hsocket]⟩
        by_cases haccess : sys.access = 0 <;>
          simp [UnixDomainSocketTcpServer.init, exec_bind, exec_map, hepoll, haccess, hsocket,
            Except.map]
      · have hsocket' : ¬ -1 = sys.socket := fun h => hsocket h.symm
        refine ⟨¬ sys.bind < 0 ∧ ¬ sys.listen < 0 ∧ ¬ sys.epoll_ctl < 0, ?_,
          by simp [hepoll, hsocket]⟩
        by_cases haccess : sys.access = 0 <;> by_cases hbind : sys.bind < 0 <;>
          by_cases hlisten : sys.listen < 0 <;> by_cases hctl : sys.epoll_ctl < 0 <;>
            simp [UnixDomainSocketTcpServer.init, exec_bind, exec_map, hepoll, haccess, hsocket',
              hbind, hlisten, hctl, Except.map]
  obtain ⟨b, hb, hcalls⟩ := hr
  rw [hb]
  exact .returns (fun h => absurd h huse) hcalls

/-- What `init()` of the INET UDP server comes to. -/
theorem InetDomainSocketUdpServer.init_outcome
    (hk : server.kind = .inetDomainSocketUdpServer) :
    InitOutcome server sys (exec (InetDomainSocketUdpServer.init server sys) []).1 := by
  cases hport : stoi server.m_bind with
  | error e =>
      have hr : (exec (InetDomainSocketUdpServer.init server sys) []).1 = .error e := by
        simp [InetDomainSocketUdpServer.init, exec_bind, hport]
      rw [hr]
      exact .throws (by simp [hk, ServerKind.UsesPort]) hport
  | ok port =>
      have hr : (exec (InetDomainSocketUdpServer.init server sys) []).1 =
          .ok (¬ sys.socket < 0 ∧ ¬ sys.bind < 0) := by
        by_cases hsocket : sys.socket < 0 <;> by_cases hbind : sys.bind < 0 <;>
          simp [InetDomainSocketUdpServer.init, exec_bind, exec_map, hport, hsocket, hbind,
            Except.map]
      rw [hr]
      exact .returns (fun _ => ⟨port, hport⟩) (by simp [hk, ServerKind.CallsSucceed])

/-- What `init()` of the UNIX UDP server comes to. -/
theorem UnixDomainSocketUdpServer.init_outcome
    (hk : server.kind = .unixDomainSocketUdpServer) :
    InitOutcome server sys (exec (UnixDomainSocketUdpServer.init server sys) []).1 := by
  have hr : (exec (UnixDomainSocketUdpServer.init server sys) []).1 =
      .ok (¬ sys.socket < 0 ∧ ¬ sys.bind < 0) := by
    by_cases haccess : sys.access = 0 <;> by_cases hsocket : sys.socket < 0 <;>
      by_cases hbind : sys.bind < 0 <;>
        simp [UnixDomainSocketUdpServer.init, exec_bind, exec_map, eq_comm (a := (0 : ℤ)),
          haccess, hsocket, hbind, Except.map]
  rw [hr]
  exact .returns (by simp [hk, ServerKind.UsesPort]) (by simp [hk, ServerKind.CallsSucceed])

/-- What `init()` of the HTTP server comes to. -/
theorem HttpTcpServer.init_outcome (hk : server.kind = .httpTcpServer) :
    InitOutcome server sys (exec (HttpTcpServer.init server sys) []).1 := by
  rw [HttpTcpServer.exec_init]
  cases hport : stoi server.m_bind with
  | error e => exact .throws (by simp [hk, ServerKind.UsesPort]) hport
  | ok port => exact .returns (fun _ => ⟨port, hport⟩) (by simp [hk, ServerKind.CallsSucceed])

/-- What `init()` of the WebSocket server comes to. -/
theorem WebSocketTcpServer.init_outcome (hk : server.kind = .webSocketTcpServer) :
    InitOutcome server sys (exec (WebSocketTcpServer.init server sys) []).1 := by
  rw [WebSocketTcpServer.exec_init]
  cases hport : stoi server.m_bind with
  | error e => exact .throws (by simp [hk, ServerKind.UsesPort]) hport
  | ok port => exact .returns (fun _ => ⟨port, hport⟩) (by simp [hk, ServerKind.CallsSucceed])

/-- **What a call of a server's `init` comes to.** -/
theorem ServerSettings.init_outcome (server : ServerSettings) (sys : InitResults) :
    InitOutcome server sys (server.initResult sys) := by
  rw [initResult, init]
  cases hk : server.kind with
  | inetDomainSocketTcpServer => exact InetDomainSocketTcpServer.init_outcome hk
  | unixDomainSocketTcpServer => exact UnixDomainSocketTcpServer.init_outcome hk
  | inetDomainSocketUdpServer => exact InetDomainSocketUdpServer.init_outcome hk
  | unixDomainSocketUdpServer => exact UnixDomainSocketUdpServer.init_outcome hk
  | httpTcpServer => exact HttpTcpServer.init_outcome hk
  | webSocketTcpServer => exact WebSocketTcpServer.init_outcome hk

end

/-! ### All servers -/

section

variable {sys : ℕ → InitResults} {k : ℕ} {infos : List ServerInfo}
  {servers : List ServerSettings} {done : List ℕ} {env : InitEnv}

/-- The loop over the servers, by the entries that they were made for. -/
theorem initServers_ok_iff (h : List.Forall₂ CreatedFor infos servers) :
    (∃ b, (initServers sys k servers done).1 = .ok b) ↔ PortsReadable sys k infos := by
  induction h generalizing k done with
  | nil => exact iff_of_true ⟨true, rfl⟩ trivial
  | @cons info server infos servers hcreated _ ih =>
      have hkind : ∀ kind, serverKindOf info.kinds info.tcp = some kind ↔ kind = server.kind := by
        intro kind
        rw [hcreated.kind, Option.some.injEq, eq_comm]
      simp only [PortsReadable, hkind, forall_eq, initServers, ← hcreated.m_bind]
      have houtcome := server.init_outcome (sys k)
      generalize server.initResult (sys k) = r at houtcome ⊢
      cases houtcome with
      | throws huse hport =>
          refine iff_of_false (by simp) fun hall => ?_
          obtain ⟨port, hok⟩ := hall.1 huse
          cases hport.symm.trans hok
      | @returns b hport hcalls =>
          cases b with
          | false =>
              have hfails : ¬ server.kind.CallsSucceed (sys k) := by simpa using hcalls
              exact iff_of_true ⟨false, rfl⟩ ⟨hport, fun h => absurd h hfails⟩
          | true =>
              have hsucceeds : server.kind.CallsSucceed (sys k) := hcalls.mp rfl
              exact ih.trans ⟨fun h => ⟨hport, fun _ => h⟩, fun h => h.2 hsucceeds⟩

/-- **When no exception leaves the first `init` of an object.** For a document that decodes
and is acceptable, the bind strings of the enabled entries have to be numbers as far as their
servers come to read them. -/
theorem init_throws_nothing_iff (env : InitEnv) :
    (∃ b, ((AnyServerImpl.construct 0).init env).1 = .ok b) ↔
      ∀ c, env.Accepts c → PortsReadable env.sys 0 (c.server_infos.filter (·.enable)) := by
  have hinit : ((AnyServerImpl.construct 0).init env).1 = (ServerFactory.init {} env).1 := rfl
  rw [hinit]
  rcases ServerFactory.init_new env with
    ⟨c, servers, haccepts, hcreate, hloop⟩ | ⟨hnone, hfalse⟩
  · obtain ⟨servers', hcreate', hall⟩ := haccepts.acceptable.created
    obtain rfl := (Prod.mk.inj (hcreate.symm.trans hcreate')).2
    rw [hloop, initServers_ok_iff hall]
    refine ⟨fun h c' hc' => ?_, fun h => h c haccepts⟩
    rwa [hc'.unique haccepts]
  · rw [hfalse]
    exact iff_of_true ⟨false, rfl⟩ fun c hc => absurd hc (hnone c)

end

/-! ### A bind string that is no number -/

/-- An enabled inet server on the named port `http`. -/
def namedPort : Json.Value :=
  .object [(ascii "server_list", .array
    [.object [(ascii "type", .string (ascii "inet_domainsocket")), (ascii "enable", .bool true),
      (ascii "bind", .string (ascii "http")), (ascii "tcp", .bool true)]])]

/-- The exception of `std::stoi` leaves `init`. -/
theorem init_throws_namedPort :
    ((AnyServerImpl.construct 0).init (initEnvOf namedPort)).1 = .error .invalid_argument :=
  rfl

end AnyServer
