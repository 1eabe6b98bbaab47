import AnyServer.Sending
import Mathlib.Data.List.ReduceOption

/-!
# Broadcast

`sendToServer` walks over the servers and, for every one with the id asked for, over a copy
of its client list; each element's id goes to a second search inside the server, which looks
for the first client with that id. This module says whom a whole call reaches: as long as the
ids of live clients are distinct and the registries stay as they are, the second search ends
at the very client the first loop stands at.

`Client` is a client of any class with what its server writes to, and `Client.Writes` what is
written in one try to send to it, by the results of the calls that the try makes. The results of
a whole call of `sendToServer` are one for each of its moves; `Sending.tried` picks those of the
moves that are tries.

## Main results

* `attempt_isFor`: one try to send to a registered client is a try to send to that client.
* `sendToServer_exact`: a call of `sendToServer` makes one try for each client of each server
  with the id, in the order of registration, and no other, whatever the tries come to, and each
  writes what its own results leave to be written.
-/

namespace AnyServer

open Lts

/-! ### Clients of any class -/

/-- A client of some class, with what its server writes to. -/
inductive Client
  | tcp (client : TcpClientInfo)
  | udp (m_server_fd : ℤ) (client : UdpClientInfo)
  | http (client : HttpTcpClientInfo)
  | webSocket (client : WebSocketTcpClientInfo)
  deriving DecidableEq, Repr

/-- `ClientInfo::getClientId`. -/
def Client.id : Client → ℕ
  | .tcp client => client.m_client_id
  | .udp _ client => client.m_client_id
  | .http client => client.m_client_id
  | .webSocket client => client.m_client_id

/-- `BaseServer::getClientInfoList`. -/
def BaseServerImpl.clients : BaseServerImpl → List Client
  | .inetTcp server => server.m_client_list.map .tcp
  | .unixTcp server => server.m_client_list.map .tcp
  | .inetUdp server => server.m_client_list.map (.udp server.m_server_fd)
  | .unixUdp server => server.m_client_list.map (.udp server.m_server_fd)
  | .http server => server.m_client_list.map .http
  | .webSocket server => server.m_client_list.map .webSocket

/-- One of the calls that fill the header block of an HTTP response fails. -/
def HttpSendResults.HeadersFail (r : HttpSendResults) : Prop :=
  (r.add_status || r.add_server || r.add_content_type || r.add_allow_origin ||
    r.add_content_length || r.finalize) = true

instance (r : HttpSendResults) : Decidable r.HeadersFail :=
  inferInstanceAs (Decidable (_ = true))

/-- What one try to send `msg` to a client writes: the whole of `msg` to where this client
is reached, and with a protocol nothing but to a WebSocket client that has it. An HTTP
response has its headers unless a header call fails, its body unless the headers cannot be
written either, and ends the transaction in any case. -/
def Client.Writes (overload : Overload) (msg : Bytes) (r : SendResults) (c : Client)
    (writes : List Write) : Prop :=
  match overload, c with
  | .plain, .tcp client => writes = [.write client.m_fd msg]
  | .plain, .udp m_server_fd client => writes = [.sendto m_server_fd msg client.m_sockaddr]
  | .plain, .http client =>
      writes =
        (if r.http.HeadersFail then [] else [.httpHeaders client.m_wsi msg.length]) ++
        (if r.http.HeadersFail ∨ r.http.write_headers = -1 then []
          else [.httpBody client.m_wsi msg]) ++
        [.httpTransactionCompleted client.m_wsi]
  | .plain, .webSocket client => writes = [.lwsWrite client.m_wsi msg]
  | .protocol protocol, .webSocket client =>
      writes = if CString.read 0 protocol = CString.read 0 client.m_protocol then
        [.lwsWrite client.m_wsi msg] else []
  | .protocol _, .tcp _ | .protocol _, .udp _ _ | .protocol _, .http _ => writes = []

/-- An attempt is a try to send `msg` to the registered client `c`, with the results `r`. -/
structure Attempt.IsFor (overload : Overload) (msg : Bytes) (r : SendResults) (a : Attempt)
    (c : Client) : Prop where
  overload_eq : a.overload = overload
  client_id_eq : a.client_id = c.id
  registered : a.registered = true
  sent : ∃ returned writes, a.outcome = some (returned, writes) ∧
    c.Writes overload msg r writes

section

variable {s s' s₁ : Sending} {server : BaseServerImpl} {overload : Overload} {c : Client}
  {cs : List Client} {moves moves' : List (Option Client)} {rs rs' : List SendResults}
  {server_id client_id : ℕ} {msg : Bytes} {r : SendResults}

/-- The ids of a server's list are those of its clients. -/
theorem BaseServerImpl.clientIds_eq_map_clients :
    server.clientIds = server.clients.map Client.id := by
  cases server <;> simp only [clientIds, clients, List.map_map] <;> rfl

/-! ### One try -/

/-- In a list with distinct ids, an element's id finds the element. -/
theorem findClientInfo_of_mem {C : Type} [IsClientInfo C] {l : List C} {client : C}
    (hnd : (AnyServer.clientIds l).Nodup) (hc : client ∈ l) :
    findClientInfo l (getClientId client) = some client :=
  Keyed.find_eq_some_of_mem hnd hc

/-- A stream server writes the message to the client's descriptor. -/
theorem EpollServer.sendToClient_writes {server : EpollServer} {client : TcpClientInfo}
    (hnd : (AnyServer.clientIds server.m_client_list).Nodup)
    (hc : client ∈ server.m_client_list) :
    ∃ returned writes, server.sendToClient client.m_client_id msg r.write =
      some (returned, writes) ∧ (Client.tcp client).Writes .plain msg r writes := by
  have hfind : findClientInfo server.m_client_list client.m_client_id = some client :=
    findClientInfo_of_mem hnd hc
  simp only [sendToClient, hfind, bind, Option.bind_some]
  split
  · exact ⟨_, _, rfl, rfl⟩
  · exact ⟨_, _, rfl, rfl⟩

/-- A datagram server sends the message to the client's address. -/
theorem UdpServer.sendToClient_writes {server : UdpServer} {client : UdpClientInfo}
    (hnd : (AnyServer.clientIds server.m_client_list).Nodup)
    (hc : client ∈ server.m_client_list) :
    ∃ returned writes, server.sendToClient client.m_client_id msg r.write =
      some (returned, writes) ∧
      (Client.udp server.m_server_fd client).Writes .plain msg r writes := by
  have hfind : findClientInfo server.m_client_list client.m_client_id = some client :=
    findClientInfo_of_mem hnd hc
  simp only [sendToClient, hfind, bind, Option.bind_some]
  split
  · exact ⟨_, _, rfl, rfl⟩
  · exact ⟨_, _, rfl, rfl⟩

/-- The HTTP server responds as far as its calls let it. -/
theorem HttpTcpServer.sendToClient_writes {server : HttpTcpServer} {client : HttpTcpClientInfo}
    (hnd : (AnyServer.clientIds server.m_client_list).Nodup)
    (hc : client ∈ server.m_client_list) :
    ∃ returned writes, server.sendToClient client.m_client_id msg r.http =
      some (returned, writes) ∧ (Client.http client).Writes .plain msg r writes := by
  have hfind : findClientInfo server.m_client_list client.m_client_id = some client :=
    findClientInfo_of_mem hnd hc
  simp only [sendToClient, hfind, bind, Option.bind_some, Client.Writes]
  split
  · next h =>
    have hheaders : r.http.HeadersFail := h
    rw [if_pos hheaders, if_pos (.inl hheaders)]
    exact ⟨_, _, rfl, rfl⟩
  · next h =>
    have hheaders : ¬ r.http.HeadersFail := h
    rw [if_neg hheaders]
    split
    · next hwrite =>
      rw [if_pos (.inr hwrite)]
      exact ⟨_, _, rfl, rfl⟩
    · next hwrite =>
      rw [if_neg (not_or.mpr ⟨hheaders, hwrite⟩)]
      -- the result of writing the body decides only what is returned
      split
      · exact ⟨_, _, rfl, rfl⟩
      · exact ⟨_, _, rfl, rfl⟩

/-- Without a protocol the WebSocket server writes the message to the client's connection. -/
theorem WebSocketTcpServer.sendToClient_writes {server : WebSocketTcpServer}
    {client : WebSocketTcpClientInfo}
    (hnd : (AnyServer.clientIds server.m_client_list).Nodup)
    (hc : client ∈ server.m_client_list) :
    ∃ returned writes, server.sendToClient client.m_client_id msg r.write =
      some (returned, writes) ∧ (Client.webSocket client).Writes .plain msg r writes := by
  have hfind : findClientInfo server.m_client_list client.m_client_id = some client :=
    findClientInfo_of_mem hnd hc
  simp only [sendToClient, hfind, bind, Option.bind_some]
  split
  · exact ⟨_, _, rfl, rfl⟩
  · exact ⟨_, _, rfl, rfl⟩

/-- With a protocol it does so if the client has it. -/
theorem WebSocketTcpServer.sendToClientProtocol_writes {server : WebSocketTcpServer}
    {client : WebSocketTcpClientInfo} {protocol : Bytes}
    (hnd : (AnyServer.clientIds server.m_client_list).Nodup)
    (hc : client ∈ server.m_client_list) :
    (Client.webSocket client).Writes (.protocol protocol) msg r
      (server.sendToClientProtocol client.m_client_id protocol msg).2 := by
  have hfind : findClientInfo server.m_client_list client.m_client_id = some client :=
    findClientInfo_of_mem hnd hc
  simp only [Client.Writes, sendToClientProtocol, hfind]
  split <;> rfl

/-- Sending without a protocol, over the classes. -/
theorem BaseServerImpl.sendToClient_writes (hnd : server.clientIds.Nodup)
    (hc : c ∈ server.clients) :
    ∃ returned writes, server.sendToClient c.id msg r = some (returned, writes) ∧
      c.Writes .plain msg r writes := by
  cases server with
  | inetTcp server | unixTcp server =>
      obtain ⟨client, hclient, rfl⟩ := List.mem_map.mp hc
      exact EpollServer.sendToClient_writes hnd hclient
  | inetUdp server | unixUdp server =>
      obtain ⟨client, hclient, rfl⟩ := List.mem_map.mp hc
      exact UdpServer.sendToClient_writes hnd hclient
  | http server =>
      obtain ⟨client, hclient, rfl⟩ := List.mem_map.mp hc
      exact HttpTcpServer.sendToClient_writes hnd hclient
  | webSocket server =>
      obtain ⟨client, hclient, rfl⟩ := List.mem_map.mp hc
      exact WebSocketTcpServer.sendToClient_writes hnd hclient

/-- Sending with a protocol, over the classes. -/
theorem BaseServerImpl.sendToClientProtocol_writes {protocol : Bytes}
    (hnd : server.clientIds.Nodup) (hc : c ∈ server.clients) :
    c.Writes (.protocol protocol) msg r (server.sendToClientProtocol c.id protocol msg).2 := by
  cases server with
  | inetTcp server | unixTcp server | inetUdp server | unixUdp server | http server =>
      obtain ⟨client, -, rfl⟩ := List.mem_map.mp hc
      rfl
  | webSocket server =>
      obtain ⟨client, hclient, rfl⟩ := List.mem_map.mp hc
      exact WebSocketTcpServer.sendToClientProtocol_writes hnd hclient

/-- **One try to send.** The id of a registered client leads back to that client. -/
theorem attempt_isFor (hnd : server.clientIds.Nodup) (hc : c ∈ server.clients) :
    Attempt.IsFor overload msg r (server.attempt overload c.id msg r) c where
  overload_eq := rfl
  client_id_eq := rfl
  registered := by
    simp only [BaseServerImpl.attempt, BaseServerImpl.clientIds_eq_map_clients,
      decide_eq_true_eq]
    exact List.mem_map_of_mem hc
  sent := by
    cases overload with
    | plain => exact BaseServerImpl.sendToClient_writes hnd hc
    | protocol protocol =>
        exact ⟨_, _, rfl, BaseServerImpl.sendToClientProtocol_writes hnd hc⟩

/-! ### A whole call -/

/-- The clients that a call of `sendToServer` is for. -/
def Sending.targets (servers : List BaseServerImpl) (server_id : ℕ) : List Client :=
  (servers.filter fun server => server_id = server.getId).flatMap BaseServerImpl.clients

/-- The moves that are tries, each with the results that it gets and the client that it is for.
A move that is no try has no client. -/
def Sending.tried (rs : List SendResults) (moves : List (Option Client)) :
    List (SendResults × Client) :=
  (rs.zip moves).filterMap fun x => x.2.map (x.1, ·)

/-- With these moves the call comes from `s` to `s'`, and each try is one for its client,
whatever results the sends get. -/
def Sending.Sends (overload : Overload) (msg : Bytes) (s : Sending)
    (moves : List (Option Client)) (s' : Sending) : Prop :=
  ∀ rs : List SendResults, rs.length = moves.length →
    ∃ os, Run Sending.Step s (rs.map .resume) os s' ∧
      List.Forall₂ (fun a x => Attempt.IsFor overload msg x.1 a x.2) os (tried rs moves)

/-- The attempts on two runs of clients, one after the other, are those on the first and those on
the second. -/
theorem Sending.tried_append (h : rs.length = moves.length) :
    tried (rs ++ rs') (moves ++ moves') = tried rs moves ++ tried rs' moves' := by
  simp only [tried, List.zip_append h, List.filterMap_append]

/-- Whatever the results, the tries are for the clients of the moves. -/
theorem Sending.map_snd_tried (h : rs.length = moves.length) :
    (tried rs moves).map Prod.snd = moves.reduceOption := by
  have hmoves : (rs.zip moves).map Prod.snd = moves := List.map_snd_zip (Nat.le_of_eq h.symm)
  conv_rhs => rw [← hmoves]
  simp [tried, List.reduceOption, List.map_filterMap, List.filterMap_map, Function.comp_def]

/-- A move without a try. -/
theorem Sending.Sends.quiet (h : ∀ r, s.next (.resume r) = some (s', [])) :
    Sends overload msg s [none] s' := by
  intro rs hrs
  obtain ⟨r, rfl⟩ := List.length_eq_one_iff.mp hrs
  exact ⟨[], Run.single (h r), .nil⟩

/-- A move with one try. -/
theorem Sending.Sends.attempt
    (h : ∀ r, ∃ a, s.next (.resume r) = some (s', [a]) ∧ Attempt.IsFor overload msg r a c) :
    Sends overload msg s [some c] s' := by
  intro rs hrs
  obtain ⟨r, rfl⟩ := List.length_eq_one_iff.mp hrs
  obtain ⟨a, hnext, ha⟩ := h r
  exact ⟨[a], Run.single hnext, .cons ha .nil⟩

/-- A broadcast that has gone over no server has sent nothing. -/
theorem Sending.Sends.refl : Sends overload msg s [] s := by
  intro rs hrs
  obtain rfl := List.length_eq_zero_iff.mp hrs
  exact ⟨[], .start, .nil⟩

/-- Moves after moves: the results are shared out between them. -/
theorem Sending.Sends.trans (h : Sends overload msg s moves s₁)
    (h' : Sends overload msg s₁ moves' s') : Sends overload msg s (moves ++ moves') s' := by
  intro rs hrs
  rw [List.length_append] at hrs
  have hfirst : (rs.take moves.length).length = moves.length := by
    rw [List.length_take]; omega
  have hlast : (rs.drop moves.length).length = moves'.length := by
    rw [List.length_drop]; omega
  obtain ⟨os, hrun, hos⟩ := h _ hfirst
  obtain ⟨os', hrun', hos'⟩ := h' _ hlast
  rw [← List.take_append_drop moves.length rs, tried_append hfirst, List.map_append]
  exact ⟨os ++ os', hrun.append hrun', List.rel_append hos hos'⟩

/-- The inner loop, over what is left of the copy of a client list. -/
theorem Sending.sends_clients {index : ℕ} (hserver : s.m_servers[index]? = some server)
    (hnd : server.clientIds.Nodup) (hcs : ∀ c ∈ cs, c ∈ server.clients)
    (hcall : s.call = .clients server_id overload msg index (cs.map Client.id)) :
    Sends overload msg s (cs.map some)
      { s with call := .clients server_id overload msg index [] } := by
  induction cs generalizing s with
  | nil =>
      have hs : { s with call := SendCall.clients server_id overload msg index [] } = s := by
        rw [List.map_nil] at hcall
        rw [← hcall]
      rw [hs]
      exact .refl
  | cons c cs ih =>
      rw [List.forall_mem_cons] at hcs
      have hfirst : Sends overload msg s [some c]
          { s with call := .clients server_id overload msg index (cs.map Client.id) } := by
        refine .attempt fun r => ?_
        have hfor : Attempt.IsFor overload msg r (server.attempt overload c.id msg r) c :=
          attempt_isFor hnd hcs.1
        refine ⟨_, ?_, hfor⟩
        obtain ⟨_, _, hsome, -⟩ := hfor.sent
        simp only [next, hcall, List.map_cons, hserver, SendCall.after, hsome]
      exact hfirst.trans (ih hserver hcs.2 rfl)

/-- The outer loop, over the servers that are left. -/
theorem Sending.sends_servers {before after : List BaseServerImpl}
    (hservers : s.m_servers = before ++ after)
    (hnd : ∀ server ∈ after, server.clientIds.Nodup)
    (hcall : s.call = .server server_id overload msg before.length) :
    ∃ moves, moves.reduceOption = targets after server_id ∧
      Sends overload msg s moves { s with call := .idle } := by
  induction after generalizing s before with
  | nil =>
      refine ⟨[none], rfl, .quiet fun r => ?_⟩
      have hnone : s.m_servers[before.length]? = none := by
        rw [hservers, List.append_nil, List.getElem?_eq_none (Nat.le_refl _)]
      simp only [next, hcall, hnone]
  | cons server after ih =>
      rw [List.forall_mem_cons] at hnd
      have hserver : s.m_servers[before.length]? = some server := by
        rw [hservers, List.getElem?_append_right (Nat.le_refl _), Nat.sub_self]
        rfl
      have hnext : s.m_servers = (before ++ [server]) ++ after := by
        rw [hservers, List.append_assoc, List.singleton_append]
      obtain ⟨moves, hmoves, hrest⟩ :=
        ih (s := { s with call := .server server_id overload msg (before.length + 1) })
          hnext hnd.2 (by simp)
      by_cases hid : server_id = server.getId
      · have hfirst : Sends overload msg s [none]
            { s with
              call := .clients server_id overload msg before.length server.clientIds } := by
          refine .quiet fun r => ?_
          simp only [next, hcall, hserver, if_pos hid]
        have hloop : Sends overload msg
            { s with call := .clients server_id overload msg before.length server.clientIds }
            (server.clients.map some)
            { s with call := .clients server_id overload msg before.length [] } :=
          sends_clients hserver hnd.1 (fun c hc => hc)
            (by rw [BaseServerImpl.clientIds_eq_map_clients])
        have hlast : Sends overload msg
            { s with call := .clients server_id overload msg before.length [] } [none]
            { s with call := .server server_id overload msg (before.length + 1) } :=
          .quiet fun r => rfl
        have hsome : (server.clients.map some).reduceOption = server.clients := by
          simp [List.reduceOption, List.filterMap_map]
        refine ⟨_, ?_, ((hfirst.trans hloop).trans hlast).trans hrest⟩
        simp [hsome, List.reduceOption_append, hmoves, targets, hid]
      · have hfirst : Sends overload msg s [none]
            { s with call := .server server_id overload msg (before.length + 1) } := by
          refine .quiet fun r => ?_
          simp only [next, hcall, hserver, if_neg hid]
        refine ⟨_, ?_, hfirst.trans hrest⟩
        simp [hmoves, targets, hid]

/-- Both loops, from the call to its return. -/
theorem Sending.sends_targets (hcall : s.call = .idle)
    (hnd : (s.m_servers.flatMap BaseServerImpl.clientIds).Nodup) :
    ∃ moves, moves.reduceOption = targets s.m_servers server_id ∧
      Sends overload msg { s with call := .server server_id overload msg 0 } moves s := by
  have hservers : ∀ server ∈ s.m_servers, server.clientIds.Nodup :=
    (List.nodup_flatMap.mp hnd).1
  have hsends := sends_servers (s := { s with call := .server server_id overload msg 0 })
    (List.nil_append _).symm hservers rfl
  rwa [show { s with call := SendCall.idle } = s by rw [← hcall]] at hsends

/-- **Broadcast is complete and exact.** With distinct client ids and registries that stay as
they are, a call of `sendToServer` returns. Its tries are one for each client of each server
with the id, in order, and each writes to its client what the results of its own calls leave to
be written. -/
theorem sendToServer_exact (hcall : s.call = .idle)
    (hnd : (s.m_servers.flatMap BaseServerImpl.clientIds).Nodup) :
    ∃ moves, moves.reduceOption = Sending.targets s.m_servers server_id ∧
      ∀ rs : List SendResults, rs.length = moves.length → ∃ os,
        Run Sending.Step s (.sendToServer server_id overload msg :: rs.map .resume) os s ∧
          List.Forall₂ (fun a x => Attempt.IsFor overload msg x.1 a x.2) os
            (Sending.tried rs moves) := by
  obtain ⟨moves, hmoves, hsends⟩ := Sending.sends_targets hcall hnd
  refine ⟨moves, hmoves, fun rs hrs => ?_⟩
  obtain ⟨os, hrun, hos⟩ := hsends rs hrs
  have hcalled : s.next (.sendToServer server_id overload msg) =
      some ({ s with call := .server server_id overload msg 0 }, []) := by
    simp only [Sending.next, hcall]
  exact ⟨os, Run.cons (T := Sending.Step) hcalled hrun, hos⟩

end

/-! ### Four servers -/

/-- Three servers with one id, among them a WebSocket and an HTTP server, and one with another
id. -/
def fourServers : Sending :=
  { m_servers :=
      [.inetTcp { m_server_id := 1, m_server_fd := 3, m_run_thread := true,
                  m_client_list := [{ m_tcp := true, m_client_id := 16, m_fd := 5 },
                                    { m_tcp := true, m_client_id := 17, m_fd := 6 }] },
       .webSocket { m_server_id := 1, m_context := true, m_run_thread := true,
                    m_client_list := [{ m_tcp := true, m_client_id := 32, m_fd := 7, m_wsi := 1,
                                        m_protocol := [97] }] },
       .unixUdp { m_server_id := 2, m_server_fd := 4, m_run_thread := true,
                  m_client_list := [{ m_tcp := false, m_client_id := 48, m_sockaddr := [] }] },
       .http { m_server_id := 1, m_context := true, m_run_thread := true,
               m_client_list := [{ m_tcp := true, m_client_id := 64, m_fd := 9, m_wsi := 2 }]
               req_body := [] }]
    call := .idle }

/-- A broadcast to the servers of id 1, one of them the HTTP server, reaches each of their clients
once. -/
theorem sendToServer_exact_fourServers :
    ∃ moves, moves.reduceOption = Sending.targets fourServers.m_servers 1 ∧
      ∀ rs : List SendResults, rs.length = moves.length → ∃ os,
        Run Sending.Step fourServers (.sendToServer 1 .plain [7] :: rs.map .resume) os
            fourServers ∧
          List.Forall₂ (fun a x => Attempt.IsFor .plain [7] x.1 a x.2) os
            (Sending.tried rs moves) :=
  sendToServer_exact rfl (by decide)

end AnyServer
