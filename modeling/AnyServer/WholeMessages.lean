import AnyServer.Sending

/-!
# Whole Messages

`write`, `sendto` and `lws_write` may take fewer bytes than they are given and say how many.
No `sendToClient` compares that number with the length of the message: the socket classes and
the WebSocket class's first overload test for failure alone, the HTTP class does so for each of
its calls, and the WebSocket class's overload with a protocol does not look at the result at
all.

## Main results

* `sendsWhole_iff`: the results of the calls for which a true result of `sendToClient` means
  that the whole message was taken, and for which the two WebSocket overloads agree.
-/

namespace AnyServer

/-! ### What a true result means -/

/-- What came of the call that was given the message: a count of bytes, or a failure. -/
def BaseServerImpl.accepted (r : SendResults) : BaseServerImpl → ℤ
  | .http _ => r.http.write_body
  | .inetTcp _ | .unixTcp _ | .inetUdp _ | .unixUdp _ | .webSocket _ => r.write

/-- Under the results `r`, either overload of `sendToClient` returns true only if all of `msg`
was accepted, and a WebSocket server's overload with the client's own protocol returns what the
other one does. -/
structure BaseServerImpl.SendsWhole (server : BaseServerImpl) (client_id : ℕ) (msg : Bytes)
    (r : SendResults) : Prop where
  whole : ∀ (overload : Overload) (writes : List Write),
    (server.attempt overload client_id msg r).outcome = some (true, writes) →
      server.accepted r = msg.length
  agree : ∀ (webSocket : WebSocketTcpServer) (client : WebSocketTcpClientInfo),
    server = .webSocket webSocket →
      findClientInfo webSocket.m_client_list client_id = some client →
      (webSocket.sendToClient client_id msg r.write).map Prod.fst =
        some (webSocket.sendToClientProtocol client_id client.m_protocol msg).1

/-- One of the calls that `HttpTcpServer::sendToClient` makes fails. -/
def HttpSendResults.Fails (r : HttpSendResults) : Prop :=
  (r.add_status || r.add_server || r.add_content_type || r.add_allow_origin ||
    r.add_content_length || r.finalize) = true ∨ r.write_headers = -1 ∨ r.write_body = -1

instance (r : HttpSendResults) : Decidable r.Fails :=
  inferInstanceAs (Decidable (_ ∨ _ ∨ _))

/-- The results that leave nothing of the message behind, or that the class takes for a
failure. -/
def BaseServerImpl.WholeResults (msg : Bytes) (r : SendResults) : BaseServerImpl → Prop
  | .inetTcp _ | .unixTcp _ => r.write = -1 ∨ r.write = msg.length
  | .inetUdp _ | .unixUdp _ => r.write < 0 ∨ r.write = msg.length
  | .http _ => r.http.Fails ∨ r.http.write_body = msg.length
  | .webSocket _ => r.write = msg.length

section

variable {server : BaseServerImpl} {client_id : ℕ} {msg : Bytes} {r : SendResults}
  {returned : Bool} {writes : List Write}

/-! ### When each class returns true -/

/-- The socket servers over a stream return true unless `write` fails. -/
theorem EpollServer.sendToClient_true_iff {server : EpollServer} {write : ℤ}
    (h : client_id ∈ AnyServer.clientIds server.m_client_list) :
    (∃ writes, server.sendToClient client_id msg write = some (true, writes)) ↔ write ≠ -1 := by
  obtain ⟨client, hfind⟩ := Option.isSome_iff_exists.mp (findClientInfo_isSome_iff.mpr h)
  simp only [sendToClient, hfind, bind, Option.bind_some]
  split
  · next hfail => simp [hfail]
  · next hok => simp [hok]

/-- The datagram servers return true unless `sendto` fails. -/
theorem UdpServer.sendToClient_true_iff {server : UdpServer} {sendto : ℤ}
    (h : client_id ∈ AnyServer.clientIds server.m_client_list) :
    (∃ writes, server.sendToClient client_id msg sendto = some (true, writes)) ↔
      ¬ sendto < 0 := by
  obtain ⟨client, hfind⟩ := Option.isSome_iff_exists.mp (findClientInfo_isSome_iff.mpr h)
  simp only [sendToClient, hfind, bind, Option.bind_some]
  split
  · next hfail =>
    have hneg : sendto < 0 := hfail
    simp [hneg]
  · next hok =>
    have hneg : ¬ sendto < 0 := hok
    simp [hneg]

/-- The HTTP server returns true unless one of its calls fails. -/
theorem HttpTcpServer.sendToClient_true_iff {server : HttpTcpServer} {r : HttpSendResults}
    (h : client_id ∈ AnyServer.clientIds server.m_client_list) :
    (∃ writes, server.sendToClient client_id msg r = some (true, writes)) ↔ ¬ r.Fails := by
  obtain ⟨client, hfind⟩ := Option.isSome_iff_exists.mp (findClientInfo_isSome_iff.mpr h)
  simp only [sendToClient, hfind, bind, Option.bind_some, HttpSendResults.Fails]
  split
  · next hheaders => simp [hheaders]
  · next hheaders =>
    split
    · next hwrite => simp [hwrite]
    · next hwrite =>
      split
      · next hbody => simp [hbody]
      · next hbody => simp [hheaders, hwrite, hbody]

/-- Without a protocol the WebSocket server returns true unless `lws_write` fails. -/
theorem WebSocketTcpServer.sendToClient_true_iff {server : WebSocketTcpServer} {lws_write : ℤ}
    (h : client_id ∈ AnyServer.clientIds server.m_client_list) :
    (∃ writes, server.sendToClient client_id msg lws_write = some (true, writes)) ↔
      lws_write ≠ -1 := by
  obtain ⟨client, hfind⟩ := Option.isSome_iff_exists.mp (findClientInfo_isSome_iff.mpr h)
  simp only [sendToClient, hfind, bind, Option.bind_some]
  split
  · next hfail => simp [hfail]
  · next hok => simp [hok]

/-- With the client's own protocol the WebSocket server always returns true. -/
theorem WebSocketTcpServer.sendToClientProtocol_own {server : WebSocketTcpServer}
    {client : WebSocketTcpClientInfo}
    (h : findClientInfo server.m_client_list client_id = some client) :
    server.sendToClientProtocol client_id client.m_protocol msg =
      (true, [.lwsWrite client.m_wsi msg]) := by
  simp only [sendToClientProtocol, h, if_true]

/-! ### When a true result means the whole message -/

/-- A class without an overload of its own for a protocol, judged by its one overload. -/
theorem BaseServerImpl.sendsWhole_iff_of_plain
    (hprotocol : ∀ protocol, server.sendToClientProtocol client_id protocol msg = (false, []))
    (hclass : ∀ webSocket, server ≠ .webSocket webSocket) :
    server.SendsWhole client_id msg r ↔
      ((∃ writes, server.sendToClient client_id msg r = some (true, writes)) →
        server.accepted r = msg.length) := by
  constructor
  · rintro hwhole ⟨writes, hsent⟩
    exact hwhole.whole .plain writes hsent
  · intro hplain
    refine ⟨fun overload writes hsent => ?_, fun webSocket _ hserver => absurd hserver (hclass _)⟩
    cases overload with
    | plain => exact hplain ⟨writes, hsent⟩
    | protocol protocol =>
        have hpair := Option.some.inj hsent
        rw [hprotocol protocol] at hpair
        cases hpair

/-- The WebSocket class: with the client's own protocol the result is true in any case. -/
theorem WebSocketTcpServer.sendsWhole_iff_of_mem {server : WebSocketTcpServer}
    (h : client_id ∈ AnyServer.clientIds server.m_client_list) :
    (BaseServerImpl.webSocket server).SendsWhole client_id msg r ↔ r.write = msg.length := by
  obtain ⟨client, hfind⟩ := Option.isSome_iff_exists.mp (findClientInfo_isSome_iff.mpr h)
  have hown : server.sendToClientProtocol client_id client.m_protocol msg =
      (true, [.lwsWrite client.m_wsi msg]) := sendToClientProtocol_own hfind
  constructor
  · intro hwhole
    exact hwhole.whole (.protocol client.m_protocol) _ (congrArg some hown)
  · intro hwrite
    have hok : r.write ≠ -1 := by omega
    refine ⟨fun _ _ _ => hwrite, ?_⟩
    rintro _ client' ⟨⟩ hfind'
    obtain ⟨writes, hsent⟩ :
        ∃ writes, server.sendToClient client_id msg r.write = some (true, writes) :=
      (sendToClient_true_iff h).mpr hok
    rw [hsent, sendToClientProtocol_own hfind']
    rfl

/-- **When a true result means the whole message.** -/
theorem sendsWhole_iff (h : client_id ∈ server.clientIds) :
    server.SendsWhole client_id msg r ↔ server.WholeResults msg r := by
  cases server with
  | inetTcp server | unixTcp server =>
      rw [BaseServerImpl.sendsWhole_iff_of_plain (fun _ => rfl) (by simp)]
      simp only [BaseServerImpl.sendToClient, EpollServer.sendToClient_true_iff h]
      exact Decidable.or_iff_not_imp_left.symm
  | inetUdp server | unixUdp server =>
      rw [BaseServerImpl.sendsWhole_iff_of_plain (fun _ => rfl) (by simp)]
      simp only [BaseServerImpl.sendToClient, UdpServer.sendToClient_true_iff h]
      exact Decidable.or_iff_not_imp_left.symm
  | http server =>
      rw [BaseServerImpl.sendsWhole_iff_of_plain (fun _ => rfl) (by simp)]
      simp only [BaseServerImpl.sendToClient, HttpTcpServer.sendToClient_true_iff h]
      exact Decidable.or_iff_not_imp_left.symm
  | webSocket server => exact WebSocketTcpServer.sendsWhole_iff_of_mem h

end

/-! ### Short and failing writes -/

/-- An inet TCP server with one client. -/
def oneTcpClient : BaseServerImpl :=
  .inetTcp { m_server_id := 1, m_server_fd := 3, m_run_thread := true,
             m_client_list := [{ m_tcp := true, m_client_id := 16, m_fd := 5 }] }

/-- A WebSocket server with one client, of the protocol `a`. -/
def oneWebSocketClient : BaseServerImpl :=
  .webSocket { m_server_id := 1, m_context := true, m_run_thread := true,
               m_client_list := [{ m_tcp := true, m_client_id := 16, m_fd := 5, m_wsi := 1,
                                   m_protocol := [97] }] }

/-- A message that is written in full is sent whole. -/
theorem sendsWhole_iff_oneTcpClient :
    oneTcpClient.SendsWhole 16 [7] allWritten ↔ oneTcpClient.WholeResults [7] allWritten :=
  sendsWhole_iff (by decide)

/-- One byte of two is taken, or none because the connection has failed, and the result is
true. -/
theorem shortWrites_return_true :
    oneTcpClient.sendToClient 16 [7, 8] allWritten = some (true, [.write 5 [7, 8]]) ∧
      ¬ oneTcpClient.SendsWhole 16 [7, 8] allWritten ∧
      oneWebSocketClient.sendToClientProtocol 16 [97] [7] = (true, [.lwsWrite 1 [7]]) ∧
      ¬ oneWebSocketClient.SendsWhole 16 [7] { allWritten with write := -1 } := by
  refine ⟨rfl, fun hwhole => ?_, by decide, fun hwhole => ?_⟩
  · exact absurd (hwhole.whole .plain _ rfl) (by decide)
  · exact absurd (hwhole.whole (.protocol [97]) [.lwsWrite 1 [7]] (by decide)) (by decide)

end AnyServer
