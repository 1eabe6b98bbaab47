import AnyServer.EpollServer
import AnyServer.HttpServer
import AnyServer.UdpServer
import AnyServer.WebSocketServer

/-!
# Sending to Clients

`ServerFactory` keeps servers of six classes and routes what the application sends:
`sendToClient` to one client of the first server with the given id, `sendToServer` to every
client of every server with the id, from a copy of the client list taken before the first
send. Each class looks the client up by its id and writes to it in its own way.

The application's thread and the workers of the servers share the registries without a
lock. `Sending.next` interleaves them: an input is either a change that a worker makes to
one registry (`RegistryOp`) or the next move of the application's call. What a call does is
observed as `Attempt`s, one for each client that it tries to send to, with the outcome
`none` where the source goes through a null client.

All classes but one dereference the result of the lookup untested, so an attempt is safe
exactly if the client is registered or the attempt is the WebSocket server's own overload
with a protocol.

## Main results

* `attempt_safe_iff`: when one attempt is safe.
* `sends_safe_iff`: over whole runs, every attempt is safe exactly if each one without a
  protocol finds its client registered.
-/

namespace AnyServer

open Lts

/-! ### The servers of the factory -/

/-- A server of one of the six classes. -/
inductive BaseServerImpl
  | inetTcp (server : EpollServer)
  | unixTcp (server : EpollServer)
  | inetUdp (server : UdpServer)
  | unixUdp (server : UdpServer)
  | http (server : HttpTcpServer)
  | webSocket (server : WebSocketTcpServer)
  deriving DecidableEq, Repr

/-- `BaseServer::getId`. -/
def BaseServerImpl.getId : BaseServerImpl → ℕ
  | .inetTcp server => server.m_server_id
  | .unixTcp server => server.m_server_id
  | .inetUdp server => server.m_server_id
  | .unixUdp server => server.m_server_id
  | .http server => server.m_server_id
  | .webSocket server => server.m_server_id

/-- The ids in `BaseServer::getClientInfoList`, in order. -/
def BaseServerImpl.clientIds : BaseServerImpl → List ℕ
  | .inetTcp server => AnyServer.clientIds server.m_client_list
  | .unixTcp server => AnyServer.clientIds server.m_client_list
  | .inetUdp server => AnyServer.clientIds server.m_client_list
  | .unixUdp server => AnyServer.clientIds server.m_client_list
  | .http server => AnyServer.clientIds server.m_client_list
  | .webSocket server => AnyServer.clientIds server.m_client_list

/-- What a worker does to the registry of its server. A new client is described by all that
its class may keep of it. -/
inductive RegistryOp
  | add (m_client_id : ℕ) (m_fd : ℤ) (m_wsi : ℕ) (m_sockaddr m_protocol : Bytes)
  | removeFd (fd : ℤ)
  | remove (client_id : ℕ)
  deriving DecidableEq, Repr

/-- A client of some class, from all that there may be to keep of it. -/
abbrev NewClient (C : Type) :=
  (m_client_id : ℕ) → (m_fd : ℤ) → (m_wsi : ℕ) → (m_sockaddr m_protocol : Bytes) → C

/-- A registry after a change; `removeFd` is what the class's worker makes of an fd. -/
def RegistryOp.change {C : Type} [IsClientInfo C] (newClient : NewClient C)
    (removeFd : List C → ℤ → List C) (m_client_list : List C) : RegistryOp → List C
  | .add m_client_id m_fd m_wsi m_sockaddr m_protocol =>
      (addClientInfo m_client_list
        (newClient m_client_id m_fd m_wsi m_sockaddr m_protocol)).1
  | .removeFd fd => removeFd m_client_list fd
  | .remove client_id => (removeClientInfo m_client_list client_id).1

/-- A change to the registry of an epoll server. -/
def EpollServer.change (server : EpollServer) (op : RegistryOp) : EpollServer :=
  { server with
    m_client_list :=
      op.change (fun m_client_id m_fd _ _ _ => { m_tcp := true, m_client_id, m_fd })
        (fun l fd => (removeClientInfoFd l fd).1) server.m_client_list }

/-- The UDP servers never search by fd. -/
def UdpServer.change (server : UdpServer) (op : RegistryOp) : UdpServer :=
  { server with
    m_client_list :=
      op.change
        (fun m_client_id _ _ m_sockaddr _ => { m_tcp := false, m_client_id, m_sockaddr })
        (fun l _ => l) server.m_client_list }

/-- A change to the registry of the http server. -/
def HttpTcpServer.change (server : HttpTcpServer) (op : RegistryOp) : HttpTcpServer :=
  { server with
    m_client_list :=
      op.change
        (fun m_client_id m_fd m_wsi _ _ => { m_tcp := true, m_client_id, m_fd, m_wsi })
        (fun l fd => (removeClientInfoFd l fd).1) server.m_client_list }

/-- A change to the registry of the WebSocket server. -/
def WebSocketTcpServer.change (server : WebSocketTcpServer) (op : RegistryOp) :
    WebSocketTcpServer :=
  { server with
    m_client_list :=
      op.change
        (fun m_client_id m_fd m_wsi _ m_protocol =>
          { m_tcp := true, m_client_id, m_fd, m_wsi, m_protocol })
        (fun l fd => (removeClientInfoFd l fd).1) server.m_client_list }

/-- A change to the registry of a server. -/
def BaseServerImpl.change (op : RegistryOp) : BaseServerImpl → BaseServerImpl
  | .inetTcp server => .inetTcp (server.change op)
  | .unixTcp server => .unixTcp (server.change op)
  | .inetUdp server => .inetUdp (server.change op)
  | .unixUdp server => .unixUdp (server.change op)
  | .http server => .http (server.change op)
  | .webSocket server => .webSocket (server.change op)

/-! ### The seven variants of `sendToClient` -/

/-- The results of the calls in `HttpTcpServer::sendToClient`; the header calls return
nonzero when they fail. -/
structure HttpSendResults where
  add_status : Bool
  add_server : Bool
  add_content_type : Bool
  add_allow_origin : Bool
  add_content_length : Bool
  finalize : Bool
  write_headers : ℤ
  write_body : ℤ
  deriving DecidableEq, Repr

/-- The results of the calls that a `sendToClient` makes: `write`, `sendto` or `lws_write`,
and those of the HTTP server. -/
structure SendResults where
  write : ℤ
  http : HttpSendResults
  deriving DecidableEq, Repr

/-- `InetDomainSocketTcpServer::sendToClient` and `UnixDomainSocketTcpServer::sendToClient`. -/
def EpollServer.sendToClient (server : EpollServer) (client_id : ℕ) (msg : Bytes)
    (write : ℤ) : Option (Bool × List Write) := do
  let client ← findClientInfo server.m_client_list client_id
  let call := Write.write client.m_fd msg
  if write = -1 then some (false, [call]) else some (true, [call])

/-- `HttpTcpServer::sendToClient`. -/
def HttpTcpServer.sendToClient (server : HttpTcpServer) (client_id : ℕ) (msg : Bytes)
    (r : HttpSendResults) : Option (Bool × List Write) := do
  let client ← findClientInfo server.m_client_list client_id
  let wsi := client.m_wsi
  let headers := Write.httpHeaders wsi msg.length
  let body := Write.httpBody wsi msg
  let completed := Write.httpTransactionCompleted wsi
  if r.add_status || r.add_server || r.add_content_type || r.add_allow_origin ||
      r.add_content_length || r.finalize then
    some (false, [completed])
  else if r.write_headers = -1 then some (false, [headers, completed])
  else if r.write_body = -1 then some (false, [headers, body, completed])
  else some (true, [headers, body, completed])

/-- `WebSocketTcpServer::sendToClient` without a protocol. -/
def WebSocketTcpServer.sendToClient (server : WebSocketTcpServer) (client_id : ℕ)
    (msg : Bytes) (lws_write : ℤ) : Option (Bool × List Write) := do
  let client ← findClientInfo server.m_client_list client_id
  let call := Write.lwsWrite client.m_wsi msg
  if lws_write = -1 then some (false, [call]) else some (true, [call])

/-- `WebSocketTcpServer::sendToClient` with a protocol, which `strcmp` compares up to the
first NUL. The result of `lws_write` is not looked at. -/
def WebSocketTcpServer.sendToClientProtocol (server : WebSocketTcpServer) (client_id : ℕ)
    (protocol msg : Bytes) : Bool × List Write :=
  match findClientInfo server.m_client_list client_id with
  | some client =>
      if CString.read 0 protocol = CString.read 0 client.m_protocol then
        (true, [.lwsWrite client.m_wsi msg])
      else (false, [])
  | none => (false, [])

/-- The virtual `sendToClient` without a protocol. -/
def BaseServerImpl.sendToClient (client_id : ℕ) (msg : Bytes) (r : SendResults) :
    BaseServerImpl → Option (Bool × List Write)
  | .inetTcp server => server.sendToClient client_id msg r.write
  | .unixTcp server => server.sendToClient client_id msg r.write
  | .inetUdp server => server.sendToClient client_id msg r.write
  | .unixUdp server => server.sendToClient client_id msg r.write
  | .http server => server.sendToClient client_id msg r.http
  | .webSocket server => server.sendToClient client_id msg r.write

/-- The virtual `sendToClient` with a protocol; the base class has nothing to send. -/
def BaseServerImpl.sendToClientProtocol (client_id : ℕ) (protocol msg : Bytes) :
    BaseServerImpl → Bool × List Write
  | .webSocket server => server.sendToClientProtocol client_id protocol msg
  | _ => (false, [])

/-- Which of the two `sendToClient`, or of the two `sendToServer`, is called. -/
inductive Overload
  | plain
  | protocol (protocol : Bytes)
  deriving DecidableEq, Repr

/-- One try to send to a client: whether the client is registered then, and what comes of
it, `none` where the source goes through a null client. -/
structure Attempt where
  overload : Overload
  client_id : ℕ
  registered : Bool
  outcome : Option (Bool × List Write)
  deriving DecidableEq, Repr

/-- An attempt goes through no null client, and to a client that is not registered it
returns false and writes nothing. -/
def Attempt.Safe (a : Attempt) : Prop :=
  a.outcome ≠ none ∧ (a.registered = false → a.outcome = some (false, []))

/-- A call of a server's `sendToClient`. -/
def BaseServerImpl.attempt (server : BaseServerImpl) (overload : Overload) (client_id : ℕ)
    (msg : Bytes) (r : SendResults) : Attempt :=
  { overload, client_id, registered := client_id ∈ server.clientIds
    outcome :=
      match overload with
      | .plain => server.sendToClient client_id msg r
      | .protocol protocol => some (server.sendToClientProtocol client_id protocol msg) }

/-! ### The factory's calls, interleaved with the workers -/

/-- Where the application's call is. `sendToServer` looks at one server after the other
(`server`), and has the ids of the clients left in its copy of a list (`clients`). -/
inductive SendCall
  | idle
  | server (server_id : ℕ) (overload : Overload) (msg : Bytes) (index : ℕ)
  | clients (server_id : ℕ) (overload : Overload) (msg : Bytes) (index : ℕ)
      (client_list : List ℕ)
  | crashed
  deriving DecidableEq, Repr

/-- The servers of the factory, and where the application's call is. -/
structure Sending where
  m_servers : List BaseServerImpl
  call : SendCall
  deriving DecidableEq, Repr

/-- A change that the worker of the server at `index` makes to its registry, a call of
`ServerFactory::sendToClient` or of `sendToServer`, or the next move of the latter, with the
results that its next send would get. -/
inductive SendInput
  | registry (index : ℕ) (op : RegistryOp)
  | sendToClient (server_id client_id : ℕ) (msg : Bytes) (r : SendResults)
  | sendToServer (server_id : ℕ) (overload : Overload) (msg : Bytes)
  | resume (r : SendResults)
  deriving DecidableEq, Repr

/-- The call after an attempt. -/
def SendCall.after (a : Attempt) (call : SendCall) : SendCall :=
  match a.outcome with
  | none => .crashed
  | some _ => call

/-- One step of the application or of a worker. `sendToClient` returns false if no server has
the id; `sendToServer` does not look at what its sends return. -/
def Sending.next (s : Sending) : SendInput → Option (Sending × List Attempt)
  | .registry index op =>
      some ({ s with m_servers := s.m_servers.modify index (BaseServerImpl.change op) }, [])
  | .sendToClient server_id client_id msg r =>
      match s.call with
      | .idle =>
          match s.m_servers.find? fun server => server_id == server.getId with
          | none =>
              some (s, [{ overload := .plain, client_id, registered := false,
                          outcome := some (false, []) }])
          | some server =>
              let a := server.attempt .plain client_id msg r
              some ({ s with call := SendCall.after a .idle }, [a])
      | _ => none
  | .sendToServer server_id overload msg =>
      match s.call with
      | .idle => some ({ s with call := .server server_id overload msg 0 }, [])
      | _ => none
  | .resume r =>
      match s.call with
      | .server server_id overload msg index =>
          match s.m_servers[index]? with
          | none => some ({ s with call := .idle }, [])
          | some server =>
              if server_id = server.getId then
                some ({ s with
                  call := .clients server_id overload msg index server.clientIds }, [])
              else some ({ s with call := .server server_id overload msg (index + 1) }, [])
      | .clients server_id overload msg index [] =>
          some ({ s with call := .server server_id overload msg (index + 1) }, [])
      | .clients server_id overload msg index (client_id :: client_list) =>
          match s.m_servers[index]? with
          | none => none
          | some server =>
              let a := server.attempt overload client_id msg r
              let call := SendCall.clients server_id overload msg index client_list
              some ({ s with call := SendCall.after a call }, [a])
      | _ => none

/-- Application and workers. -/
abbrev Sending.Step : Lts Sending SendInput Attempt :=
  ofFn Sending.next

/-- The lookup of a client that an input brings about: server, overload and id. -/
def Sending.lookup (s : Sending) : SendInput → Option (BaseServerImpl × Overload × ℕ)
  | .sendToClient server_id client_id _ _ =>
      (s.m_servers.find? fun server => server_id == server.getId).map
        fun server => (server, .plain, client_id)
  | .resume _ =>
      match s.call with
      | .clients _ overload _ index (client_id :: _) =>
          s.m_servers[index]?.map fun server => (server, overload, client_id)
      | _ => none
  | _ => none

/-- A lookup made without a protocol finds its client registered. -/
def Sending.LookupRegistered (s : Sending) (i : SendInput) : Prop :=
  ∀ server client_id, s.lookup i = some (server, .plain, client_id) →
    client_id ∈ server.clientIds

/-! ### When sending is safe -/

section

variable {s s' s₀ : Sending} {i : SendInput} {is : List SendInput} {o os : List Attempt}
  {server : BaseServerImpl} {overload : Overload} {client_id : ℕ} {msg : Bytes}
  {r : SendResults}

/-- A variant that dereferences the result of the lookup goes wrong exactly if the client is
not registered. -/
theorem find_bind_eq_none_iff {C β : Type} [IsClientInfo C] {l : List C} {f : C → Option β}
    (hf : ∀ c, f c ≠ none) :
    (findClientInfo l client_id >>= f) = none ↔ client_id ∉ clientIds l := by
  rw [← findClientInfo_isSome_iff]
  cases h : findClientInfo l client_id with
  | none => simp
  | some c => simpa using hf c

/-- The send is undefined exactly for an id that is not registered. -/
theorem EpollServer.sendToClient_eq_none_iff {server : EpollServer} {write : ℤ} :
    server.sendToClient client_id msg write = none ↔
      client_id ∉ AnyServer.clientIds server.m_client_list :=
  find_bind_eq_none_iff fun c => by split <;> simp

/-- The same for the datagram servers. -/
theorem UdpServer.sendToClient_eq_none_iff {server : UdpServer} {sendto : ℤ} :
    server.sendToClient client_id msg sendto = none ↔
      client_id ∉ AnyServer.clientIds server.m_client_list :=
  find_bind_eq_none_iff fun c => by split <;> simp

/-- The same for the HTTP server. -/
theorem HttpTcpServer.sendToClient_eq_none_iff {server : HttpTcpServer}
    {r : HttpSendResults} :
    server.sendToClient client_id msg r = none ↔
      client_id ∉ AnyServer.clientIds server.m_client_list :=
  find_bind_eq_none_iff fun c => by
    split
    · simp
    · split
      · simp
      · split <;> simp

/-- The same for the WebSocket server. -/
theorem WebSocketTcpServer.sendToClient_eq_none_iff {server : WebSocketTcpServer}
    {lws_write : ℤ} :
    server.sendToClient client_id msg lws_write = none ↔
      client_id ∉ AnyServer.clientIds server.m_client_list :=
  find_bind_eq_none_iff fun c => by split <;> simp

/-- Without a protocol, every class goes through a null client for an id that it has not
registered, and only then. -/
theorem BaseServerImpl.sendToClient_eq_none_iff :
    server.sendToClient client_id msg r = none ↔ client_id ∉ server.clientIds := by
  cases server with
  | inetTcp server | unixTcp server => exact EpollServer.sendToClient_eq_none_iff
  | inetUdp server | unixUdp server => exact UdpServer.sendToClient_eq_none_iff
  | http server => exact HttpTcpServer.sendToClient_eq_none_iff
  | webSocket server => exact WebSocketTcpServer.sendToClient_eq_none_iff

/-- With a protocol, nothing is sent to a client that is not registered. -/
theorem BaseServerImpl.sendToClientProtocol_of_notMem {protocol : Bytes}
    (h : client_id ∉ server.clientIds) :
    server.sendToClientProtocol client_id protocol msg = (false, []) := by
  cases server with
  | webSocket server =>
      have hnone : findClientInfo server.m_client_list client_id = none :=
        Keyed.find_eq_none_iff.mpr h
      simp only [BaseServerImpl.sendToClientProtocol, WebSocketTcpServer.sendToClientProtocol,
        hnone]
  | inetTcp _ | unixTcp _ | inetUdp _ | unixUdp _ | http _ => rfl

/-- **When one attempt is safe.** -/
theorem attempt_safe_iff :
    (server.attempt overload client_id msg r).Safe ↔
      (overload = .plain → client_id ∈ server.clientIds) := by
  cases overload with
  | plain =>
      simp only [Attempt.Safe, BaseServerImpl.attempt, ne_eq,
        BaseServerImpl.sendToClient_eq_none_iff, not_not, decide_eq_false_iff_not,
        forall_const, and_iff_left_iff_imp]
      exact fun h hn => absurd h hn
  | protocol protocol =>
      refine iff_of_true ⟨by simp [BaseServerImpl.attempt], fun h => ?_⟩ (by simp)
      have hn : client_id ∉ server.clientIds := by simpa [BaseServerImpl.attempt] using h
      simp only [BaseServerImpl.attempt, BaseServerImpl.sendToClientProtocol_of_notMem hn]

/-- The attempts of one step are safe exactly if its lookup, if it makes one without a
protocol, finds its client registered. -/
theorem Sending.next_safe_iff (h : s.next i = some (s', o)) :
    (∀ a ∈ o, a.Safe) ↔ s.LookupRegistered i := by
  cases i with
  | registry index op =>
      obtain ⟨-, rfl⟩ := Prod.mk.inj (Option.some.inj h)
      simp [LookupRegistered, lookup]
  | sendToClient server_id client_id msg r =>
      simp only [next] at h
      split at h
      · split at h
        · next hnone =>
          obtain ⟨-, rfl⟩ := Prod.mk.inj (Option.some.inj h)
          simp [LookupRegistered, lookup, hnone, Attempt.Safe]
        · next server hsome =>
          obtain ⟨-, rfl⟩ := Prod.mk.inj (Option.some.inj h)
          simp [LookupRegistered, lookup, hsome, attempt_safe_iff]
      · cases h
  | sendToServer server_id overload msg =>
      simp only [next] at h
      split at h
      · obtain ⟨-, rfl⟩ := Prod.mk.inj (Option.some.inj h)
        simp [LookupRegistered, lookup]
      · cases h
  | resume r =>
      simp only [next] at h
      split at h
      · next hcall =>
        have ho : o = [] := by
          split at h
          · exact (Prod.mk.inj (Option.some.inj h)).2.symm
          · split at h <;> exact (Prod.mk.inj (Option.some.inj h)).2.symm
        simp [LookupRegistered, lookup, hcall, ho]
      · next hcall =>
        obtain ⟨-, rfl⟩ := Prod.mk.inj (Option.some.inj h)
        simp [LookupRegistered, lookup, hcall]
      · next overload msg index client_id client_list hcall =>
        split at h
        · cases h
        · next server hsome =>
          obtain ⟨-, rfl⟩ := Prod.mk.inj (Option.some.inj h)
          simp [LookupRegistered, lookup, hcall, hsome, attempt_safe_iff]
      · cases h

/-- **When sending never goes through a null client.** Along every run of the application's
calls interleaved with the workers, all attempts are safe exactly if each lookup made
without a protocol finds its client registered at that moment. -/
theorem sends_safe_iff (h : Run Sending.Step s₀ is os s) :
    (∀ a ∈ os, a.Safe) ↔ Along Sending.Step Sending.LookupRegistered s₀ is :=
  h.forall_iff_along deterministic_ofFn fun _ ht => Sending.next_safe_iff ht

end

/-! ### One server -/

/-- A factory with one inet TCP server without clients. -/
def oneServer : Sending :=
  { m_servers := [.inetTcp { m_server_id := 1, m_server_fd := 3, m_run_thread := true,
                             m_client_list := [] }]
    call := .idle }

/-- All calls succeed. -/
def allWritten : SendResults :=
  { write := 1
    http := { add_status := false, add_server := false, add_content_type := false,
              add_allow_origin := false, add_content_length := false, finalize := false,
              write_headers := 1, write_body := 1 } }

/-- A client connects and is sent a byte. -/
def connectAndSend : List SendInput :=
  [.registry 0 (.add 16 5 0 [] []), .sendToClient 1 16 [7] allWritten]

/-- A send to a client that has just connected is safe. -/
theorem sends_safe_iff_connectAndSend :
    (∀ a ∈ [Attempt.mk .plain 16 true (some (true, [.write 5 [7]]))], a.Safe) ↔
      Along Sending.Step Sending.LookupRegistered oneServer connectAndSend := by
  have hrun : Run Sending.Step oneServer connectAndSend
      [Attempt.mk .plain 16 true (some (true, [.write 5 [7]]))] _ := run_of_exec rfl
  exact sends_safe_iff hrun

/-- Sending to a client that has gone, through a stale id or between the copy of the list and
the send, goes through a null client. -/
theorem staleId_crashes :
    (∃ s, Run Sending.Step oneServer [.sendToClient 1 16 [7] allWritten]
        [⟨.plain, 16, false, none⟩] s) ∧
      (∃ s, Run Sending.Step oneServer
        [.registry 0 (.add 16 5 0 [] []), .sendToServer 1 .plain [7], .resume allWritten,
          .registry 0 (.removeFd 5), .resume allWritten]
        [⟨.plain, 16, false, none⟩] s) ∧
      ¬ (Attempt.mk .plain 16 false none).Safe :=
  ⟨⟨_, run_of_exec rfl⟩, ⟨_, run_of_exec rfl⟩, fun h => h.1 rfl⟩

end AnyServer
