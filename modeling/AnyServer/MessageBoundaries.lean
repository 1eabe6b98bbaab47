import AnyServer.Protocols
import AnyServer.WebSocketServer

/-!
# Boundaries of WebSocket Messages

libwebsockets passes payload to the callback as it comes, one call of `LWS_CALLBACK_RECEIVE` for
each piece, and calls for other connections may come between them. A message that is longer than
the `rx_buffer_size` of its protocol comes in several pieces, and so may a shorter one that its
sender has split into fragments; of an empty message there need be no piece at all.
`lws_remaining_packet_payload` and `lws_is_final_fragment` tell whether there is more to come of a
message. `__callback_websocket__` does not ask: it passes on each piece by itself. All entries of
the table of protocols have the same `rx_buffer_size`.

`Peers` is a server with the connections that are open, as libwebsockets knows them: for each its
fd, the id and the path of its client, and what is left of a message that is being handed over. A
message counts as sent when its last piece is handed over, and one without a piece at once.

## Main results

* `Peers.message_isSome`, `Peers.continued_isSome`: what an open connection sends is taken.
* `boundaries_kept_iff`: when each message is one call of `onReceive`.
-/

namespace AnyServer

open Lts

/-- An open connection. `message` is being handed over, and `pieces` are left of it. -/
structure Peer where
  wsi : ℕ
  client_fd : ℤ
  m_client_id : ℕ
  uri : Bytes
  message : Bytes
  pieces : List Bytes
  deriving DecidableEq, Repr

/-- A server with its open connections. -/
structure Peers where
  server : WebSocketTcpServer
  peers : List Peer

/-- How a message may be handed over: in any pieces, and in several if it is too long for the
buffer. -/
structure Handed (msg : Bytes) (pieces : List Bytes) : Prop where
  flatten_eq : pieces.flatten = msg
  long : MAX_ECHO_PAYLOAD < msg.length → 2 ≤ pieces.length

/-- A callback other than `LWS_CALLBACK_RECEIVE`; the first piece of a message, if it has one, with
how the message is going to be handed over; and the next piece. -/
inductive PeerInput
  | callback (cb : WebSocketCallback)
  | message (wsi : ℕ) (msg : Bytes) (pieces : List Bytes)
  | continued (wsi : ℕ)
  deriving DecidableEq, Repr

/-- What can be seen: the calls of the listeners, and that a message has been sent. -/
inductive PeerObs
  | notify (n : Notification)
  | sent (client_id : ℕ) (uri msg : Bytes)
  deriving DecidableEq, Repr

/-- The connections that are open after a callback. -/
def WebSocketCallback.connect (cb : WebSocketCallback) (peers : List Peer) : List Peer :=
  match cb.reason with
  | .established m_client_id uri =>
      peers ++ [{ wsi := cb.wsi, client_fd := cb.client_fd, m_client_id, uri, message := [],
                  pieces := [] }]
  | .closed => Keyed.remove Peer.client_fd peers cb.client_fd
  | .delPollFd => Keyed.remove Peer.client_fd peers cb.client_fd
  | _ => peers

/-- What is left of the message that a connection is handing over. -/
def setPieces (peers : List Peer) (wsi : ℕ) (message : Bytes) (pieces : List Bytes) : List Peer :=
  peers.map fun peer => if peer.wsi = wsi then { peer with message, pieces } else peer

/-- The call for one piece, after which `rest` is left of the message. -/
def Peers.hand (s : Peers) (peer : Peer) (message piece : Bytes) (rest : List Bytes) :
    Option (Peers × List PeerObs) := do
  let (server, ns) ← callbackWebSocket s.server ⟨peer.wsi, peer.client_fd, .receive piece⟩
  some
    ({ server, peers := setPieces s.peers peer.wsi message rest },
      ns.map .notify ++ if rest = [] then [.sent peer.m_client_id peer.uri message] else [])

/-- One step. A message without pieces is sent without a callback. -/
def Peers.next (s : Peers) : PeerInput → Option (Peers × List PeerObs)
  | .callback cb => do
      let (server, ns) ← callbackWebSocket s.server cb
      some ({ server, peers := cb.connect s.peers }, ns.map .notify)
  | .message wsi msg pieces => do
      let peer ← Keyed.find Peer.wsi s.peers wsi
      match pieces with
      | [] => some (s, [.sent peer.m_client_id peer.uri msg])
      | piece :: rest => s.hand peer msg piece rest
  | .continued wsi => do
      let peer ← Keyed.find Peer.wsi s.peers wsi
      match peer.pieces with
      | [] => none
      | piece :: rest => s.hand peer peer.message piece rest

/-- A new connection has a handle and an fd that no open one has. -/
def WebSocketCallback.Connects (cb : WebSocketCallback) (peers : List Peer) : Prop :=
  ∀ m_client_id uri, cb.reason = .established m_client_id uri →
    cb.wsi ∉ peers.map Peer.wsi ∧ cb.client_fd ∉ peers.map Peer.client_fd

/-- The promises of libwebsockets and of the allocator: a message begins when the one before has
been handed over. -/
def PeerInput.Legal (s : Peers) : PeerInput → Prop
  | .callback cb => (∀ msg, cb.reason ≠ .receive msg) ∧ cb.Fresh s.server.m_client_list ∧
      cb.Connects s.peers
  | .message wsi msg pieces => Handed msg pieces ∧
      ∀ peer ∈ s.peers, peer.wsi = wsi → peer.pieces = []
  | .continued _ => True

/-- The server under the callbacks that libwebsockets makes. -/
abbrev Peers.Step : Lts Peers PeerInput PeerObs :=
  Lts.guarded PeerInput.Legal Peers.next

/-- A server that runs and has no connections. -/
structure Peers.Initial (s : Peers) : Prop where
  handles : s.server.handles = true
  client_list : s.server.m_client_list = []
  peers : s.peers = []

/-! ### What is asked of a run -/

/-- The messages given to the listeners. -/
def PeerObs.delivered : PeerObs → List Notification
  | .notify (.onReceiveProtocol server_id client_id msg msg_len protocol) =>
      [.onReceiveProtocol server_id client_id msg msg_len protocol]
  | .notify (.onReceive server_id client_id msg msg_len) =>
      [.onReceive server_id client_id msg msg_len]
  | _ => []

/-- The call of `onReceive` for a message sent, with the id and the protocol of its sender. -/
def PeerObs.owed (server_id : ℕ) : PeerObs → List Notification
  | .sent client_id uri msg =>
      [.onReceiveProtocol server_id client_id msg msg.length ((getProtocolFromHeader uri).getD [])]
  | .notify _ => []

/-- The pieces of the message that an input begins. -/
def PeerInput.begun : PeerInput → List (List Bytes)
  | .message _ _ pieces => [pieces]
  | .callback _ => []
  | .continued _ => []

/-! ### The registry and the open connections -/

/-- The client that is registered for a connection. -/
def Peer.client (peer : Peer) : WebSocketTcpClientInfo :=
  { m_tcp := true, m_client_id := peer.m_client_id, m_fd := peer.client_fd, m_wsi := peer.wsi,
    m_protocol := (getProtocolFromHeader peer.uri).getD [] }

/-- The clients registered are those of the open connections. -/
structure Peers.Registered (s : Peers) : Prop where
  handles : s.server.handles = true
  clients : s.server.m_client_list = s.peers.map Peer.client
  wsis : (s.peers.map Peer.wsi).Nodup
  fds : (s.peers.map Peer.client_fd).Nodup
  ids : (s.peers.map Peer.m_client_id).Nodup

section

variable {s s' s₀ : Peers} {i : PeerInput} {is : List PeerInput} {o os : List PeerObs}
  {peer : Peer} {message piece msg : Bytes} {pieces rest : List Bytes} {wsi : ℕ}
  {cb : WebSocketCallback}

/-- Without connections there are no clients. -/
theorem Peers.Initial.registered (h : s.Initial) : s.Registered := by
  refine ⟨h.handles, ?_, ?_, ?_, ?_⟩ <;> simp [h.client_list, h.peers]

/-- The fds registered are those of the open connections. -/
theorem Peers.Registered.clientFds_eq (hs : s.Registered) :
    clientFds s.server.m_client_list = s.peers.map Peer.client_fd := by
  rw [clientFds, hs.clients, List.map_map]
  rfl

/-- So are the ids. -/
theorem Peers.Registered.clientIds_eq (hs : s.Registered) :
    clientIds s.server.m_client_list = s.peers.map Peer.m_client_id := by
  rw [clientIds, hs.clients, List.map_map]
  rfl

/-- The search by fd finds the client of an open connection. -/
theorem Peers.Registered.find_client (hs : s.Registered) (hpeer : peer ∈ s.peers) :
    findClientInfoFd s.server.m_client_list peer.client_fd = some peer.client := by
  have hmem : peer.client ∈ s.server.m_client_list := hs.clients ▸ List.mem_map_of_mem hpeer
  have hnd : (s.server.m_client_list.map getFd).Nodup := by
    rw [← clientFds, hs.clientFds_eq]
    exact hs.fds
  exact Keyed.find_eq_some_of_mem hnd hmem

/-- **One piece**: it is passed on by itself, for the client that has sent it. -/
theorem Peers.Registered.hand_eq (hs : s.Registered) (hpeer : peer ∈ s.peers) :
    s.hand peer message piece rest = some
      ({ s with peers := setPieces s.peers peer.wsi message rest },
        .notify (.onReceiveProtocol s.server.m_server_id peer.m_client_id piece
            (piece.length % 2 ^ 32) ((getProtocolFromHeader peer.uri).getD [])) ::
          if rest = [] then [.sent peer.m_client_id peer.uri message] else []) := by
  have hgates := hs.handles
  simp only [WebSocketTcpServer.handles, Bool.and_eq_true] at hgates
  rw [hand, callbackWebSocket, if_neg (by simp [hgates.1]), if_neg (by simp [hgates.2])]
  simp only [hs.find_client hpeer, bind, Option.bind_some]
  rfl

/-- What is handed over changes nothing else of a connection. -/
theorem map_setPieces {α : Type} {f : Peer → α} (peers : List Peer)
    (hf : ∀ peer, f { peer with message, pieces } = f peer) :
    (setPieces peers wsi message pieces).map f = peers.map f := by
  rw [setPieces, List.map_map]
  refine List.map_congr_left fun peer _ => ?_
  simp only [Function.comp_apply]
  split
  · exact hf peer
  · rfl

/-- Handing a piece over keeps the registry and the open connections together. -/
theorem Peers.Registered.handed (hs : s.Registered) :
    Peers.Registered { s with peers := setPieces s.peers wsi message pieces } := by
  refine ⟨hs.handles, ?_, ?_, ?_, ?_⟩
  · rw [map_setPieces s.peers fun _ => rfl]
    exact hs.clients
  · rw [map_setPieces s.peers fun _ => rfl]
    exact hs.wsis
  · rw [map_setPieces s.peers fun _ => rfl]
    exact hs.fds
  · rw [map_setPieces s.peers fun _ => rfl]
    exact hs.ids

/-! ### What one input does -/

/-- A callback that is not for a message. -/
theorem Peers.Registered.callback {server : WebSocketTcpServer} {ns : List Notification}
    (hs : s.Registered) (hl : (PeerInput.callback cb).Legal s)
    (h : callbackWebSocket s.server cb = some (server, ns)) :
    Peers.Registered { server, peers := cb.connect s.peers } ∧
      server.m_server_id = s.server.m_server_id ∧
      (ns.map PeerObs.notify).flatMap PeerObs.delivered = [] := by
  obtain ⟨hreceive, hfresh, hconnects⟩ := hl
  cases callbackWebSocket_effect hs.handles h with
  | connected m_client_id uri m_protocol hr hp =>
      obtain ⟨hwsi, hfd⟩ := hconnects m_client_id uri hr
      have hid := (hfresh m_client_id (by rw [hr]; rfl)).2
      rw [hs.clientIds_eq] at hid
      refine ⟨⟨hs.handles, ?_, ?_, ?_, ?_⟩, rfl, rfl⟩
      · simp [WebSocketCallback.connect, hr, hs.clients, Peer.client, hp]
      · simpa only [WebSocketCallback.connect, hr] using Keyed.nodup_map_concat hs.wsis hwsi
      · simpa only [WebSocketCallback.connect, hr] using Keyed.nodup_map_concat hs.fds hfd
      · simpa only [WebSocketCallback.connect, hr] using Keyed.nodup_map_concat hs.ids hid
  | received msg client hr hc => exact absurd hr (hreceive msg)
  | closed hr =>
      have hconnect : cb.connect s.peers = Keyed.remove Peer.client_fd s.peers cb.client_fd := by
        rw [WebSocketCallback.connect]
        cases hreason : cb.reason <;> simp [hreason, WebSocketReason.isClose] at hr ⊢
      have hsub : (Keyed.remove Peer.client_fd s.peers cb.client_fd).Sublist s.peers :=
        Keyed.remove_sublist
      rw [hconnect]
      refine ⟨⟨hs.handles, ?_, hs.wsis.sublist (hsub.map _), hs.fds.sublist (hsub.map _),
        hs.ids.sublist (hsub.map _)⟩, rfl, rfl⟩
      have hids : (clientIds s.server.m_client_list).Nodup := hs.clientIds_eq ▸ hs.ids
      have hfds : (clientFds s.server.m_client_list).Nodup := hs.clientFds_eq ▸ hs.fds
      change (removeClientInfoFd s.server.m_client_list cb.client_fd).1 = _
      rw [removeClientInfoFd_fst hids hfds, hs.clients]
      exact Keyed.remove_map
  | silent hclose hnew =>
      have hconnect : cb.connect s.peers = s.peers := by
        rw [WebSocketCallback.connect]
        cases hreason : cb.reason <;>
          simp [hreason, WebSocketReason.isClose, WebSocketReason.newClientId] at hclose hnew ⊢
      rw [hconnect]
      exact ⟨hs, rfl, rfl⟩

/-- After it no other connection is in the middle of a message. -/
theorem WebSocketCallback.mem_connect (h : peer ∈ cb.connect s.peers) :
    peer ∈ s.peers ∨ peer.pieces = [] := by
  rw [connect] at h
  cases hr : cb.reason <;> simp only [hr] at h
  case established m_client_id uri =>
    rcases List.mem_append.mp h with h | h
    · exact .inl h
    · rw [List.mem_singleton.mp h]
      exact .inr rfl
  case closed => exact .inl (Keyed.remove_sublist.subset h)
  case delPollFd => exact .inl (Keyed.remove_sublist.subset h)
  all_goals exact .inl h

/-- Inversion of a callback without a message. -/
theorem Peers.next_callback (h : s.next (.callback cb) = some (s', o)) :
    ∃ server ns, callbackWebSocket s.server cb = some (server, ns) ∧
      s' = { server, peers := cb.connect s.peers } ∧ o = ns.map .notify := by
  simp only [next, bind, Option.bind_eq_some_iff, Option.some.injEq, Prod.mk.injEq,
    Prod.exists] at h
  obtain ⟨server, ns, hcb, rfl, rfl⟩ := h
  exact ⟨server, ns, hcb, rfl, rfl⟩

/-- Inversion of the beginning of a message: it has no pieces, or its first piece is handed over. -/
theorem Peers.next_message (h : s.next (.message wsi msg pieces) = some (s', o)) :
    ∃ peer ∈ s.peers,
      (pieces = [] ∧ s' = s ∧ o = [.sent peer.m_client_id peer.uri msg]) ∨
      ∃ piece rest, pieces = piece :: rest ∧ s.hand peer msg piece rest = some (s', o) := by
  simp only [next, bind, Option.bind_eq_some_iff] at h
  obtain ⟨peer, hpeer, h⟩ := h
  refine ⟨peer, Keyed.mem_of_find hpeer, ?_⟩
  cases pieces with
  | nil =>
      obtain ⟨rfl, rfl⟩ := Prod.mk.inj (Option.some.inj h)
      exact .inl ⟨rfl, rfl, rfl⟩
  | cons piece rest => exact .inr ⟨piece, rest, rfl, h⟩

/-- Inversion of the next piece. -/
theorem Peers.next_continued (h : s.next (.continued wsi) = some (s', o)) :
    ∃ peer piece rest, peer ∈ s.peers ∧ peer.pieces = piece :: rest ∧
      s.hand peer peer.message piece rest = some (s', o) := by
  simp only [next, bind, Option.bind_eq_some_iff] at h
  obtain ⟨peer, hpeer, h⟩ := h
  cases hpieces : peer.pieces with
  | nil =>
      rw [hpieces] at h
      cases h
  | cons piece rest =>
      rw [hpieces] at h
      exact ⟨peer, piece, rest, Keyed.mem_of_find hpeer, hpieces, h⟩

/-- What an open connection sends next is taken. -/
theorem Peers.message_isSome (hs : s.Registered) (hwsi : wsi ∈ s.peers.map Peer.wsi) :
    (s.next (.message wsi msg pieces)).isSome := by
  obtain ⟨peer, hpeer⟩ := Option.isSome_iff_exists.mp (Keyed.find_isSome_iff.mpr hwsi)
  simp only [next, hpeer, bind, Option.bind_some]
  cases pieces with
  | nil => rfl
  | cons piece rest =>
      change (s.hand peer msg piece rest).isSome
      rw [hs.hand_eq (Keyed.mem_of_find hpeer)]
      rfl

/-- So is what is left of a message. -/
theorem Peers.continued_isSome (hs : s.Registered) (hpeer : peer ∈ s.peers)
    (hne : peer.pieces ≠ []) : (s.next (.continued peer.wsi)).isSome := by
  obtain ⟨piece, rest, hpieces⟩ := List.exists_cons_of_ne_nil hne
  simp only [next, Keyed.find_eq_some_of_mem hs.wsis hpeer, bind, Option.bind_some, hpieces,
    hs.hand_eq hpeer]
  rfl

/-- **One step** keeps the registry and the open connections together. -/
theorem Peers.Registered.step (hs : s.Registered) (ht : Peers.Step s i s' o) :
    s'.Registered ∧ s'.server.m_server_id = s.server.m_server_id := by
  obtain ⟨hl, h⟩ := ht
  cases i with
  | callback cb =>
      obtain ⟨server, ns, hcb, rfl, -⟩ := Peers.next_callback h
      obtain ⟨hs', hid, -⟩ := hs.callback hl hcb
      exact ⟨hs', hid⟩
  | message wsi msg pieces =>
      obtain ⟨peer, hpeer, ⟨-, rfl, -⟩ | ⟨piece, rest, -, hhand⟩⟩ := Peers.next_message h
      · exact ⟨hs, rfl⟩
      · obtain ⟨rfl, -⟩ := Prod.mk.inj (Option.some.inj ((hs.hand_eq hpeer).symm.trans hhand))
        exact ⟨hs.handed, rfl⟩
  | continued wsi =>
      obtain ⟨peer, piece, rest, hpeer, -, hhand⟩ := Peers.next_continued h
      obtain ⟨rfl, -⟩ := Prod.mk.inj (Option.some.inj ((hs.hand_eq hpeer).symm.trans hhand))
      exact ⟨hs.handed, rfl⟩

/-- **A whole run.** -/
theorem Peers.registered_run (h₀ : s₀.Initial) (h : Run Peers.Step s₀ is os s) :
    s.Registered ∧ s.server.m_server_id = s₀.server.m_server_id := by
  refine h.invariant
    (P := fun _ _ s => s.Registered ∧ s.server.m_server_id = s₀.server.m_server_id)
    ⟨h₀.registered, rfl⟩ ?_
  intro is os s i s' o _ hs ht
  obtain ⟨hs', hid⟩ := hs.1.step ht
  exact ⟨hs', hid.trans hs.2⟩

/-! ### Messages sent and messages delivered -/

/-- A callback without a message neither delivers nor sends one. -/
theorem Peers.Registered.quiet (hs : s.Registered) (ht : Peers.Step s (.callback cb) s' o)
    (server_id : ℕ) :
    o.flatMap PeerObs.delivered = [] ∧ o.flatMap (PeerObs.owed server_id) = [] := by
  obtain ⟨hl, h⟩ := ht
  obtain ⟨server, ns, hcb, -, rfl⟩ := Peers.next_callback h
  refine ⟨(hs.callback hl hcb).2.2, ?_⟩
  rw [List.flatMap_map]
  exact List.flatMap_eq_nil_iff.mpr fun _ _ => rfl

/-- One piece is delivered as a message; the message is sent when nothing is left of it. -/
theorem Peers.Registered.hand_counts (hs : s.Registered) (hpeer : peer ∈ s.peers)
    (h : s.hand peer message piece rest = some (s', o)) (server_id : ℕ) :
    (o.flatMap PeerObs.delivered).length = 1 ∧
      (o.flatMap (PeerObs.owed server_id)).length = if rest = [] then 1 else 0 := by
  obtain ⟨-, rfl⟩ := Prod.mk.inj (Option.some.inj ((hs.hand_eq hpeer).symm.trans h))
  by_cases hrest : rest = []
  · simp [hrest, PeerObs.delivered, PeerObs.owed]
  · simp [hrest, PeerObs.delivered, PeerObs.owed]

/-- **The beginning of a message** delivers just what is sent with it exactly if the message comes
in one piece: without a piece nothing is delivered, and the first of several is delivered before the
message is sent. -/
theorem Peers.Registered.begins_iff (hs : s.Registered)
    (ht : Peers.Step s (.message wsi msg pieces) s' o) :
    o.flatMap PeerObs.delivered = o.flatMap (PeerObs.owed s.server.m_server_id) ↔
      pieces.length = 1 := by
  obtain ⟨⟨hhanded, -⟩, h⟩ := ht
  obtain ⟨peer, hpeer, ⟨rfl, -, rfl⟩ | ⟨piece, rest, rfl, hhand⟩⟩ := Peers.next_message h
  · refine iff_of_false (fun heq => ?_) (by simp)
    have hlen := congrArg List.length heq
    simp [PeerObs.delivered, PeerObs.owed] at hlen
  · obtain ⟨hdelivered, howed⟩ := hs.hand_counts hpeer hhand s.server.m_server_id
    by_cases hrest : rest = []
    · subst hrest
      refine iff_of_true ?_ rfl
      have hmsg : piece = msg := by simpa using hhanded.flatten_eq
      have hlen : msg.length ≤ MAX_ECHO_PAYLOAD :=
        not_lt.mp fun hlong => absurd (hhanded.long hlong) (by simp)
      have hmod : msg.length % 2 ^ 32 = msg.length :=
        Nat.mod_eq_of_lt (Nat.lt_of_le_of_lt hlen (by decide))
      obtain ⟨-, rfl⟩ := Prod.mk.inj (Option.some.inj ((hs.hand_eq hpeer).symm.trans hhand))
      rw [hmsg, hmod]
      rfl
    · refine iff_of_false (fun heq => ?_) (by simpa using hrest)
      rw [heq, howed, if_neg hrest] at hdelivered
      cases hdelivered

/-- **A step that delivers what is sent** leaves no connection in the middle of a message, if none
has been. -/
theorem Peers.Registered.pieces_step (hs : s.Registered)
    (hpieces : ∀ peer ∈ s.peers, peer.pieces = []) (ht : Peers.Step s i s' o)
    (hi : ∀ pieces ∈ i.begun, pieces.length = 1) :
    o.flatMap PeerObs.delivered = o.flatMap (PeerObs.owed s.server.m_server_id) ∧
      ∀ peer ∈ s'.peers, peer.pieces = [] := by
  cases i with
  | callback cb =>
      obtain ⟨hdelivered, howed⟩ := hs.quiet ht s.server.m_server_id
      obtain ⟨server, ns, -, rfl, -⟩ := Peers.next_callback ht.2
      refine ⟨by rw [hdelivered, howed], fun peer hpeer => ?_⟩
      rcases WebSocketCallback.mem_connect hpeer with hpeer | hnil
      · exact hpieces peer hpeer
      · exact hnil
  | message wsi msg pieces =>
      have hlen : pieces.length = 1 := hi pieces (List.mem_singleton_self _)
      refine ⟨(hs.begins_iff ht).mpr hlen, ?_⟩
      obtain ⟨peer, hpeer, ⟨rfl, -, -⟩ | ⟨piece, rest, rfl, hhand⟩⟩ := Peers.next_message ht.2
      · cases hlen
      · obtain rfl : rest = [] := by simpa using hlen
        obtain ⟨rfl, -⟩ := Prod.mk.inj (Option.some.inj ((hs.hand_eq hpeer).symm.trans hhand))
        intro p hp
        obtain ⟨q, hq, rfl⟩ := List.mem_map.mp hp
        split
        · rfl
        · exact hpieces q hq
  | continued wsi =>
      obtain ⟨peer, piece, rest, hpeer, hcons, -⟩ := Peers.next_continued ht.2
      rw [hpieces peer hpeer] at hcons
      cases hcons

/-- **Messages of one piece are delivered as they are sent**, and none is left in the middle. -/
theorem delivered_of_onePiece (h₀ : s₀.Initial) (h : Run Peers.Step s₀ is os s)
    (hone : ∀ pieces ∈ is.flatMap PeerInput.begun, pieces.length = 1) :
    os.flatMap PeerObs.delivered = os.flatMap (PeerObs.owed s₀.server.m_server_id) ∧
      ∀ peer ∈ s.peers, peer.pieces = [] := by
  induction h with
  | start => simp [h₀.peers]
  | @step is os s i s' o hrun ht ih =>
      obtain ⟨hs, hid⟩ := Peers.registered_run h₀ hrun
      rw [List.flatMap_append, List.forall_mem_append, List.flatMap_singleton] at hone
      obtain ⟨hsent, hpieces⟩ := ih hone.1
      obtain ⟨hstep, hpieces'⟩ := hs.pieces_step hpieces ht hone.2
      rw [List.flatMap_append, List.flatMap_append, hsent, hstep, hid]
      exact ⟨rfl, hpieces'⟩

/-- **When each message is one call of `onReceive`.** All along a run, what the listeners have been
given is what has been sent, message by message, each with the id and the protocol of its sender,
exactly if every message begun in the run is handed over in one piece. -/
theorem boundaries_kept_iff (h₀ : s₀.Initial) (h : Run Peers.Step s₀ is os s) :
    (∀ pre os' s', pre <+: is → Run Peers.Step s₀ pre os' s' →
      os'.flatMap PeerObs.delivered = os'.flatMap (PeerObs.owed s₀.server.m_server_id)) ↔
      ∀ pieces ∈ is.flatMap PeerInput.begun, pieces.length = 1 := by
  constructor
  · intro hkept pieces hpieces
    obtain ⟨i, hi, hbegun⟩ := List.mem_flatMap.mp hpieces
    obtain ⟨pre, post, rfl⟩ := List.append_of_mem hi
    obtain ⟨s₁, s₂, os₁, o, os₂, hpre, ht, -, -⟩ := h.split_at
    obtain ⟨hs, hid⟩ := Peers.registered_run h₀ hpre
    -- the lists agree before and after the step that begins the message, so they do on it
    have hbefore := hkept pre os₁ s₁ (List.prefix_append _ _) hpre
    have hafter := hkept (pre ++ [i]) (os₁ ++ o) s₂ (by simp) (hpre.step ht)
    rw [List.flatMap_append, List.flatMap_append, hbefore, ← hid] at hafter
    cases i with
    | message wsi msg pieces' =>
        rw [List.mem_singleton.mp hbegun]
        exact (hs.begins_iff ht).mp (List.append_cancel_left hafter)
    | callback _ | continued _ => cases hbegun
  · intro hone pre os' s' hpre hrun
    refine (delivered_of_onePiece h₀ hrun fun pieces hpieces => hone pieces ?_).1
    obtain ⟨i, hi, hbegun⟩ := List.mem_flatMap.mp hpieces
    exact List.mem_flatMap.mpr ⟨i, hpre.subset hi, hbegun⟩

end

/-! ### Messages in one piece and in others -/

/-- A server without connections. -/
def peerServer : Peers :=
  { server := { m_server_id := 1, m_context := true, m_run_thread := true, m_client_list := [] }
    peers := [] }

/-- It has none at the start. -/
theorem peerServer_initial : peerServer.Initial := by
  constructor <;> rfl

/-- A client comes with the path `/a`. -/
def arrival : WebSocketCallback :=
  ⟨0, 5, .established 16 [47, 97]⟩

/-- The server after that. -/
def peerServerA : Peers :=
  { server := { m_server_id := 1, m_context := true, m_run_thread := true,
                m_client_list := [{ m_tcp := true, m_client_id := 16, m_fd := 5, m_wsi := 0,
                                    m_protocol := 97 :: List.replicate 62 0 }] }
    peers := [{ wsi := 0, client_fd := 5, m_client_id := 16, uri := [47, 97], message := [],
                pieces := [] }] }

/-- The client is registered. -/
theorem arrival_step : Peers.Step peerServer (.callback arrival) peerServerA
    [.notify (.onClientConnected 1 16)] := by
  refine ⟨⟨fun msg => ?_, by decide, fun _ _ _ => ⟨List.not_mem_nil, List.not_mem_nil⟩⟩, rfl⟩
  rintro ⟨⟩

/-- A second client comes with the path `/b`. -/
def secondArrival : WebSocketCallback :=
  ⟨1, 6, .established 32 [47, 98]⟩

/-- Each of two clients sends a message. -/
theorem boundaries_kept_iff_twoClients :
    ∃ os s, Run Peers.Step peerServer [.callback arrival, .callback secondArrival,
        .message 1 [7, 8] [[7, 8]], .message 0 [9] [[9]]] os s ∧
      os.flatMap PeerObs.delivered =
        [.onReceiveProtocol 1 32 [7, 8] 2 (98 :: List.replicate 62 0),
          .onReceiveProtocol 1 16 [9] 1 (97 :: List.replicate 62 0)] ∧
      os.flatMap PeerObs.delivered = os.flatMap (PeerObs.owed 1) := by
  have hlegal : PeerInput.Legal peerServerA (.callback secondArrival) := by
    refine ⟨fun msg => ?_, by decide, fun _ _ _ => by decide⟩
    rintro ⟨⟩
  have hshort {msg : Bytes} (hlen : msg.length ≤ MAX_ECHO_PAYLOAD) : Handed msg [msg] :=
    ⟨by simp, fun hlong => absurd hlong (Nat.not_lt.mpr hlen)⟩
  have hrun := (((Run.start.step arrival_step).step
    (show Peers.Step _ (.callback secondArrival) _ _ from ⟨hlegal, rfl⟩)).step
    (show Peers.Step _ (.message 1 [7, 8] [[7, 8]]) _ _ from
      ⟨⟨hshort (by decide), by decide⟩, rfl⟩)).step
    (show Peers.Step _ (.message 0 [9] [[9]]) _ _ from ⟨⟨hshort (by decide), by decide⟩, rfl⟩)
  exact ⟨_, _, hrun, rfl, (boundaries_kept_iff peerServer_initial hrun).mpr (by decide) _ _ _
    List.prefix_rfl hrun⟩

/-- A message of 1025 bytes is given to the listeners as two, and so is one of two bytes that its
sender has split; an empty message is not given to them. -/
theorem boundaries_lost :
    (∃ os s, Run Peers.Step peerServer
        [.callback arrival, .message 0 (List.replicate 1025 7) [List.replicate 1024 7, [7]],
          .continued 0] os s ∧
      (os.flatMap PeerObs.delivered).length = 2 ∧ (os.flatMap (PeerObs.owed 1)).length = 1) ∧
    (∃ os s, Run Peers.Step peerServer
        [.callback arrival, .message 0 [7, 8] [[7], [8]], .continued 0] os s ∧
      (os.flatMap PeerObs.delivered).length = 2 ∧ (os.flatMap (PeerObs.owed 1)).length = 1) ∧
    ∃ os s, Run Peers.Step peerServer [.callback arrival, .message 0 [] []] os s ∧
      (os.flatMap PeerObs.delivered).length = 0 ∧ (os.flatMap (PeerObs.owed 1)).length = 1 := by
  have hflatten : [List.replicate 1024 (7 : UInt8), [7]].flatten = List.replicate 1025 7 := by
    rw [List.flatten_cons, List.flatten_singleton, ← List.replicate_succ']
  have hlong : Peers.Step peerServerA
      (.message 0 (List.replicate 1025 7) [List.replicate 1024 7, [7]]) _ _ :=
    ⟨⟨⟨hflatten, fun _ => Nat.le_refl 2⟩, by decide⟩, rfl⟩
  have hsplit : Peers.Step peerServerA (.message 0 [7, 8] [[7], [8]]) _ _ :=
    ⟨⟨⟨rfl, fun _ => Nat.le_refl 2⟩, by decide⟩, rfl⟩
  have hempty : Peers.Step peerServerA (.message 0 [] []) _ _ :=
    ⟨⟨⟨rfl, fun h => absurd h (by decide)⟩, by decide⟩, rfl⟩
  have hfirst := Run.start.step arrival_step
  exact ⟨⟨_, _, (hfirst.step hlong).step (show Peers.Step _ (.continued 0) _ _ from ⟨trivial, rfl⟩),
      rfl, rfl⟩,
    ⟨_, _, (hfirst.step hsplit).step (show Peers.Step _ (.continued 0) _ _ from ⟨trivial, rfl⟩),
      rfl, rfl⟩,
    ⟨_, _, hfirst.step hempty, rfl, rfl⟩⟩

end AnyServer
