import AnyServer.Churn

/-!
# The Relay Example

The listener of `relayserver`, which `echoserver` has too for messages that come with a protocol,
passes what a sender sends on to the receivers and what a receiver sends on to the senders: for
every server of the list that `getServerList` gave at the start it calls `sendToServer` with the
other protocol. A protocol that is neither goes on to the clients without one.

The loop runs on the worker of the server that the message came to, while other workers change
their registries, and a client's protocol is what was kept of its path.

## Main results

* `RelayLoop.stays`: what a client that stays connected gets of the whole loop.
* `relay_counterparts`: from the paths of sender and client to what the client is sent.
-/

namespace AnyServer

open Lts

/-- `target_protocol` of the listener. -/
def targetProtocol (protocol : Bytes) : Bytes :=
  if CString.read 0 protocol = ascii "sender" then ascii "receiver"
  else if CString.read 0 protocol = ascii "receiver" then ascii "sender"
  else []

/-- The listener's loop over `server_list`, by the ids of the servers that are left. Each call of
`sendToServer` returns before the next one. -/
inductive RelayLoop (target_protocol msg : Bytes) :
    List ℕ → Sending → List SendInput → List Attempt → Sending → Prop
  | done {s : Sending} : RelayLoop target_protocol msg [] s [] [] s
  | call {server_id : ℕ} {server_list : List ℕ} {s s₁ s' : Sending} {is is' : List SendInput}
      {os os' : List Attempt} :
      Run Sending.FreshStep s (.sendToServer server_id (.protocol target_protocol) msg :: is) os
        s₁ →
      (∀ i ∈ is, i.GoesOn) → s₁.call = .idle →
      RelayLoop target_protocol msg server_list s₁ is' os' s' →
      RelayLoop target_protocol msg (server_id :: server_list) s
        (.sendToServer server_id (.protocol target_protocol) msg :: is ++ is') (os ++ os') s'

/-- What is kept of a path, as `strcmp` sees it. -/
def keptPath (uri : Bytes) : Bytes :=
  if uri.length < 64 then CString.read 0 (withoutSlashes uri) else []

section

variable {s s' : Sending} {is : List SendInput} {os : List Attempt} {server_list : List ℕ}
  {target_protocol msg p uri : Bytes} {c : Client} {server_id j : ℕ}

/-- **What the whole loop sends a client.** A client that stays connected gets one try for every
server of the list that has the id of its own. -/
theorem RelayLoop.stays (h : RelayLoop target_protocol msg server_list s is os s')
    (hnd : (s.m_servers.flatMap BaseServerImpl.clientIds).Nodup)
    (hstays : ∀ s₁, Passes Sending.FreshStep s is s₁ → s₁.HasAt server_id j c) :
    (os.filter fun b => b.client_id = c.id).length = server_list.count server_id ∧
      ∀ a ∈ os.filter fun b => b.client_id = c.id,
        ∃ r, Attempt.IsFor (.protocol target_protocol) msg r a c := by
  induction h with
  | done => exact ⟨rfl, List.forall_mem_nil _⟩
  | @call id server_list s s₁ s' is is' os os' hrun his hreturns _ ih =>
      obtain ⟨hlength, hfor⟩ := ih (Sending.nodup_passes hnd hrun.passes)
        fun s₂ hs₂ => hstays s₂ (hs₂.after hrun)
      obtain ⟨ht, hcall⟩ := Sending.sendToServer_inv And.right hrun
      have hsnapshots := snapshots_run And.right hcall his
      have hpasses (s₂) (hs₂ : Passes Sending.FreshStep _ is s₂) := Passes.cons ht hs₂
      have hnd' := fun s₂ hs₂ => Sending.nodup_passes hnd (hpasses s₂ hs₂)
      have hstays' := fun s₂ hs₂ => hstays s₂ (hpasses s₂ hs₂).append
      rw [List.filter_append, List.length_append, hlength, List.count_cons]
      by_cases hid : id = server_id
      · subst hid
        obtain ⟨a, r, hfilter, -, ha⟩ := hsnapshots.stays hreturns hnd' hstays' hcall.passes
        rw [hfilter, beq_self_eq_true, if_pos rfl, Nat.add_comm]
        refine ⟨rfl, List.forall_mem_append.mpr ⟨fun b hb => ?_, hfor⟩⟩
        exact ⟨r, List.mem_singleton.mp hb ▸ ha⟩
      · rw [hsnapshots.stays_elsewhere hreturns hnd' hstays' hid, List.nil_append]
        exact ⟨by simp [hid], hfor⟩

/-! ### From paths to messages -/

/-- Read as a C string, the protocol is itself. -/
theorem read_targetProtocol (p : Bytes) : CString.read 0 (targetProtocol p) = targetProtocol p := by
  rw [targetProtocol]
  split
  · decide
  · split <;> decide

/-- The target depends on what is kept of the sender's path. -/
theorem targetProtocol_keptPath (hp : getProtocolFromHeader uri = some p) :
    targetProtocol (keptPath uri) = targetProtocol p := by
  have hkept : CString.read 0 (keptPath uri) = CString.read 0 p := by
    rw [read_protocol hp, keptPath]
    split
    · exact CString.read_eq_self_iff.mpr fun hmem => by simpa using List.mem_takeWhile_imp hmem
    · rfl
  rw [targetProtocol, targetProtocol, hkept]

/-- **From paths to messages.** A message comes to a WebSocket server, and the listener's loop
passes it on while clients come and go. A WebSocket client that stays connected is tried once for
every server of the list with the id of its own, and is sent the message each time if what was
kept of its path is the protocol that the listener pairs with the sender's, and otherwise never. -/
theorem relay_counterparts {s₀ s₁ s₂ : Relay} {pre : List RelayInput} {i : RelayInput}
    {ns : List Notification} {sender_server sender n : ℕ} {delivered : Bytes}
    {client : WebSocketTcpClientInfo} (h₀ : ∀ server ∈ s₀.m_servers, server.clientIds = [])
    (hpre : Run Relay.Step s₀ pre ns s₁)
    (hrecv : Relay.Step s₁ i s₂ [.onReceiveProtocol sender_server sender delivered n p])
    (hloop : RelayLoop (targetProtocol p) (delivered.take n) server_list ⟨s₂.m_servers, .idle⟩ is
      os s)
    (hstays : ∀ s', Passes Sending.FreshStep ⟨s₂.m_servers, .idle⟩ is s' →
      s'.HasAt server_id j (.webSocket client)) :
    (os.filter fun a => a.client_id = client.m_client_id).map (fun a => a.outcome.map Prod.snd) =
      List.replicate (server_list.count server_id)
        (some (if keptPath (s₂.uris client.m_client_id) =
            targetProtocol (keptPath (s₁.uris sender)) then
          [.lwsWrite client.m_wsi (delivered.take n)] else [])) := by
  have hs₁ : s₁.Captured := Relay.captured_run h₀ hpre
  have hs₂ : s₂.Captured := hs₁.step hrecv
  obtain ⟨server, hserver, -, hc⟩ := hstays _ passes_start
  obtain ⟨webSocket, rfl, hmem⟩ := BaseServerImpl.webSocket_of_mem_clients hc
  have hprotocol := hs₂.protocol webSocket client (List.mem_of_getElem? hserver) hmem
  have htarget := targetProtocol_keptPath (hs₁.protocol_delivered hrecv.2)
  obtain ⟨hlength, hfor⟩ := hloop.stays hs₂.nodup hstays
  refine List.eq_replicate_iff.mpr ⟨by rw [List.length_map]; exact hlength, fun w hw => ?_⟩
  obtain ⟨a, ha, rfl⟩ := List.mem_map.mp hw
  obtain ⟨r, hr⟩ := hfor a ha
  obtain ⟨returned, writes, houtcome, hwrites⟩ := hr.sent
  rw [houtcome, Option.map_some, hwrites, read_targetProtocol, read_protocol hprotocol, ← htarget]
  exact congrArg some (if_congr eq_comm rfl rfl)

end

/-! ### A sender and a receiver -/

/-- The receiver, on the second connection. -/
def receivingClient : WebSocketTcpClientInfo :=
  { m_tcp := true, m_client_id := 32, m_fd := 6, m_wsi := 1
    m_protocol := ascii "receiver" ++ List.replicate 55 0 }

/-- The server after both have come, with the paths `/sender` and `/receiver`. -/
def relayRoom : Relay :=
  { m_servers := [.webSocket { m_server_id := 1, m_context := true, m_run_thread := true,
                               m_client_list :=
                                 [{ m_tcp := true, m_client_id := 16, m_fd := 5, m_wsi := 0,
                                    m_protocol := ascii "sender" ++ List.replicate 57 0 },
                                  receivingClient] }]
    uris := Function.update (Function.update (fun _ => []) 16 (ascii "/sender")) 32
      (ascii "/receiver") }

/-- A sender and a receiver connect. -/
theorem run_relayRoom :
    Run Relay.Step relayServer (twoClients (ascii "/sender") (ascii "/receiver"))
      [.onClientConnected 1 16, .onClientConnected 1 32] relayRoom :=
  run_guarded_of_exec rfl

/-- The sender's message is reported under its path. -/
theorem message_relayRoom :
    Relay.Step relayRoom message relayRoom
      [.onReceiveProtocol 1 16 [7] 1 (ascii "sender" ++ List.replicate 57 0)] :=
  ⟨by decide, rfl⟩

/-- The listener's loop when nobody comes or goes. -/
theorem relayLoop_relayRoom :
    RelayLoop (targetProtocol (ascii "sender" ++ List.replicate 57 0)) [7] [1]
      ⟨relayRoom.m_servers, .idle⟩
      (.sendToServer 1 (.protocol (targetProtocol (ascii "sender" ++ List.replicate 57 0))) [7] ::
        List.replicate 5 (.resume allWritten) ++ [])
      ([⟨.protocol (ascii "receiver"), 16, true, some (false, [])⟩,
        ⟨.protocol (ascii "receiver"), 32, true, some (true, [.lwsWrite 1 [7]])⟩] ++ [])
      ⟨relayRoom.m_servers, .idle⟩ :=
  .call (run_guarded_of_exec rfl) (by simp [SendInput.GoesOn]) rfl .done

/-- The receiver gets it exactly once. -/
theorem relay_counterparts_relayRoom :
    [some [Write.lwsWrite 1 [7]]] = List.replicate ([1].count 1)
      (some (if keptPath (relayRoom.uris 32) = targetProtocol (keptPath (relayRoom.uris 16)) then
        [.lwsWrite 1 [7]] else [])) := by
  have hhas : Sending.HasAt 1 0 (.webSocket receivingClient) ⟨relayRoom.m_servers, .idle⟩ :=
    ⟨_, rfl, rfl, by decide⟩
  exact relay_counterparts (by decide) run_relayRoom message_relayRoom relayLoop_relayRoom
    fun _ hs => hhas.passes (by simp) hs

end AnyServer
