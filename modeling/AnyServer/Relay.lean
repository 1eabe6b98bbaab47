import AnyServer.Broadcast
import AnyServer.ClientIds
import AnyServer.Library.CString

/-!
# Relay by Protocol

A WebSocket client's protocol is the path of its request, `/room` for the protocol `room`. The
listeners are given it with every message, and `sendToServer` with a protocol sends to the
clients that have the same one. The path is captured in a buffer of 64 bytes, and the result of
the copy is not looked at: of a path that does not fit with its NUL nothing is kept, and its
client has the empty protocol.

`Relay` is the factory's servers with the callbacks of the WebSocket servers and with what the
workers of the others do to their registries. `uris` is no member of the source: it has the path
of the request with which each client came, by the client's id.

## Main results

* `getProtocolFromHeader_eq`, `read_protocol`: what is kept of a path, and what `strcmp` sees
  of it.
* `protocol_delivered_iff`: when the protocol delivered with a message is the sender's path.
* `relay_exact_iff`: when a message is relayed to the clients with the sender's path and to no
  others.
-/

namespace AnyServer

open Lts

/-! ### The servers and the paths -/

/-- A path with every `'/'` removed. -/
def withoutSlashes (uri : Bytes) : Bytes :=
  uri.filter (· != 47)

/-- The servers, with the request URI of each client by its id. -/
structure Relay where
  m_servers : List BaseServerImpl
  uris : ℕ → Bytes

/-- A callback of the WebSocket server at `index`, or a change to the registry of a server of
another class. -/
inductive RelayInput
  | callback (index : ℕ) (cb : WebSocketCallback)
  | registry (index : ℕ) (op : RegistryOp)
  deriving DecidableEq, Repr

/-- The paths after a callback. -/
def WebSocketCallback.observe (cb : WebSocketCallback) (uris : ℕ → Bytes) : ℕ → Bytes :=
  match cb.reason with
  | .established m_client_id uri => Function.update uris m_client_id uri
  | _ => uris

/-- A callback of a WebSocket server, or a change to the registry of another one. -/
def Relay.next (s : Relay) : RelayInput → Option (Relay × List Notification)
  | .callback index cb =>
      match s.m_servers[index]? with
      | some (.webSocket server) => do
          let (server', ns) ← callbackWebSocket server cb
          some ({ m_servers := s.m_servers.set index (.webSocket server')
                  uris := cb.observe s.uris }, ns)
      | _ => none
  | .registry index op =>
      match s.m_servers[index]? with
      | none | some (.webSocket _) => none
      | some server => some ({ s with m_servers := s.m_servers.set index (server.change op) }, [])

/-- The id of the client that a change to a registry adds. -/
def RegistryOp.newClientId : RegistryOp → Option ℕ
  | .add m_client_id _ _ _ _ => some m_client_id
  | .removeFd _ | .remove _ => none

/-- The id of the client object that a step allocates. -/
def RelayInput.newClientId : RelayInput → Option ℕ
  | .callback _ cb => cb.reason.newClientId
  | .registry _ op => op.newClientId

/-- The allocator's side of a step: a new client object gets an address that no client of any
server has, and never the null address. -/
abbrev RelayInput.Fresh (s : Relay) (i : RelayInput) : Prop :=
  ∀ m_client_id ∈ i.newClientId,
    m_client_id ≠ 0 ∧ m_client_id ∉ s.m_servers.flatMap BaseServerImpl.clientIds

/-- The servers driven by their workers. -/
abbrev Relay.Step : Lts Relay RelayInput Notification :=
  Lts.guarded (fun s i => i.Fresh s) Relay.next

/-! ### What a relay should do -/

/-- What `client` should be sent of a message from a client that came with `uri`. -/
def Relay.owed (s : Relay) (uri msg : Bytes) : Client → List Write
  | .webSocket client =>
      if withoutSlashes (s.uris client.m_client_id) = withoutSlashes uri then
        [.lwsWrite client.m_wsi msg]
      else []
  | _ => []

/-- A try to send to `client` that writes what the client should be sent. -/
structure Attempt.Relays (s : Relay) (uri msg : Bytes) (a : Attempt) (client : Client) :
    Prop where
  client_id_eq : a.client_id = client.id
  writes_eq : a.outcome.map Prod.snd = some (s.owed uri msg client)

/-- A call of `sendToServer` with the protocol `p` returns, having made one try for each client
of each server with the id, which sends the client what it should be sent. -/
def Relay.Relays (s : Relay) (server_id : ℕ) (p uri msg : Bytes) : Prop :=
  ∃ n, ∀ rs : List SendResults, rs.length = n → ∃ os,
    Run Sending.Step ⟨s.m_servers, .idle⟩
        (.sendToServer server_id (.protocol p) msg :: rs.map .resume) os ⟨s.m_servers, .idle⟩ ∧
      List.Forall₂ (Attempt.Relays s uri msg) os (Sending.targets s.m_servers server_id)

/-- Of two paths of at most 63 bytes, those that differ without their slashes do so before
their first NUL. Of two longer paths both are the same without their slashes. A longer path is
told from a shorter one as if it were empty. -/
structure KeptApart (uri uri' : Bytes) : Prop where
  short : uri.length < 64 → uri'.length < 64 →
    CString.read 0 (withoutSlashes uri) = CString.read 0 (withoutSlashes uri') →
      withoutSlashes uri = withoutSlashes uri'
  long : 64 ≤ uri.length → 64 ≤ uri'.length → withoutSlashes uri = withoutSlashes uri'
  shortLong : uri.length < 64 → 64 ≤ uri'.length →
    (CString.read 0 (withoutSlashes uri) = [] ↔ withoutSlashes uri = withoutSlashes uri')
  longShort : 64 ≤ uri.length → uri'.length < 64 →
    (CString.read 0 (withoutSlashes uri') = [] ↔ withoutSlashes uri = withoutSlashes uri')

/-! ### What is kept of a path -/

section

variable {uri uri' m_protocol : Bytes}

/-- The protocol of a client: of a path that fits into the buffer its bytes without the slashes,
and then the rest of the buffer's NULs; of any other the buffer as it was. -/
theorem getProtocolFromHeader_eq (uri : Bytes) :
    getProtocolFromHeader uri = some (if uri.length < 64 then
      withoutSlashes uri ++ List.replicate (64 - uri.length) 0 else List.replicate 64 0) := by
  have hnuls (n : ℕ) : (List.replicate n (0 : UInt8)).filter (· != 47) = List.replicate n 0 :=
    List.filter_replicate_of_pos (by decide)
  rw [getProtocolFromHeader, replaceAll_single, lwsHdrCopy, List.length_replicate]
  by_cases hlen : uri.length < 64
  · have hrest : [0] ++ (List.replicate 64 (0 : UInt8)).drop (uri.length + 1) =
        List.replicate (64 - uri.length) 0 := by
      rw [List.drop_replicate, List.singleton_append, ← List.replicate_succ]
      congr 1
      omega
    rw [if_pos hlen, if_pos (by omega), List.append_assoc, hrest, List.filter_append, hnuls,
      withoutSlashes]
  · rw [if_neg hlen, if_neg (by omega), hnuls]

/-- Taking out the slashes makes a URI no longer. -/
theorem length_withoutSlashes_le (uri : Bytes) : (withoutSlashes uri).length ≤ uri.length :=
  List.length_filter_le _ _

/-- The buffer's NULs stay at the end of the protocol, or are all of it. -/
theorem protocol_eq_iff (h : getProtocolFromHeader uri = some m_protocol) :
    m_protocol = withoutSlashes uri ↔ withoutSlashes uri = List.replicate 64 0 := by
  rw [getProtocolFromHeader_eq, Option.some.injEq] at h
  subst h
  by_cases hlen : uri.length < 64
  · rw [if_pos hlen]
    refine iff_of_false (fun heq => ?_) (fun heq => ?_)
    · have hlong := congrArg List.length heq
      rw [List.length_append, List.length_replicate] at hlong
      omega
    · have hle := length_withoutSlashes_le uri
      rw [heq, List.length_replicate] at hle
      omega
  · rw [if_neg hlen, eq_comm]

/-- What `strcmp` sees of a client's protocol: of a path that fits into the buffer the part
before the first NUL, without its slashes, and of any other nothing. -/
theorem read_protocol (h : getProtocolFromHeader uri = some m_protocol) :
    CString.read 0 m_protocol =
      if uri.length < 64 then CString.read 0 (withoutSlashes uri) else [] := by
  rw [getProtocolFromHeader_eq, Option.some.injEq] at h
  subst h
  by_cases hlen : uri.length < 64
  · obtain ⟨k, hk⟩ : ∃ k, 64 - uri.length = k + 1 := ⟨63 - uri.length, by omega⟩
    rw [if_pos hlen, if_pos hlen, hk, List.replicate_succ, CString.read_append_cons]
  · rw [if_neg hlen, if_neg hlen]
    rfl

/-- The protocols of two clients tell their paths apart exactly under `KeptApart`. -/
theorem keptApart_iff {m_protocol' : Bytes} (h : getProtocolFromHeader uri = some m_protocol)
    (h' : getProtocolFromHeader uri' = some m_protocol') :
    (CString.read 0 m_protocol = CString.read 0 m_protocol' ↔
      withoutSlashes uri' = withoutSlashes uri) ↔ KeptApart uri uri' := by
  rw [read_protocol h, read_protocol h', eq_comm (a := withoutSlashes uri')]
  by_cases hlen : uri.length < 64
  · by_cases hlen' : uri'.length < 64
    · rw [if_pos hlen, if_pos hlen']
      constructor
      · intro hiff
        exact ⟨fun _ _ => hiff.mp, by omega, by omega, by omega⟩
      · intro hapart
        exact ⟨hapart.short hlen hlen', fun heq => by rw [heq]⟩
    · rw [if_pos hlen, if_neg hlen']
      constructor
      · intro hiff
        exact ⟨by omega, by omega, fun _ _ => hiff, by omega⟩
      · intro hapart
        exact hapart.shortLong hlen (by omega)
  · by_cases hlen' : uri'.length < 64
    · rw [if_neg hlen, if_pos hlen', eq_comm (a := ([] : Bytes))]
      constructor
      · intro hiff
        exact ⟨by omega, by omega, by omega, fun _ _ => hiff⟩
      · intro hapart
        exact hapart.longShort (by omega) hlen'
    · rw [if_neg hlen, if_neg hlen']
      constructor
      · intro hiff
        exact ⟨by omega, fun _ _ => hiff.mp rfl, by omega, by omega⟩
      · intro hapart
        exact ⟨fun _ => hapart.long (by omega) (by omega), fun _ => rfl⟩

end

/-! ### Paths and protocols along a run -/

/-- Each WebSocket client has the protocol that its path gives it, and no two clients share an
id. -/
structure Relay.Captured (s : Relay) : Prop where
  nodup : (s.m_servers.flatMap BaseServerImpl.clientIds).Nodup
  protocol : ∀ server client, .webSocket server ∈ s.m_servers → client ∈ server.m_client_list →
    getProtocolFromHeader (s.uris client.m_client_id) = some client.m_protocol

section

variable {s s' s₀ : Relay} {i : RelayInput} {o os : List Notification} {is : List RelayInput}
  {server server' : BaseServerImpl} {index : ℕ} {op : RegistryOp}

/-- A server changes its registry by removals, or adds one new client. -/
def ChangesTo (ids ids' : List ℕ) (newClientId : Option ℕ) : Prop :=
  ids'.Sublist ids ∨ ∃ id ∈ newClientId, ids' = ids ++ [id]

/-- A change of one server that brings a fresh id keeps all ids distinct. -/
theorem nodup_flatMap_set {l : List BaseServerImpl} (hget : l[index]? = some server)
    {newClientId : Option ℕ}
    (hchange : ChangesTo server.clientIds server'.clientIds newClientId)
    (hfresh : ∀ id ∈ newClientId, id ∉ l.flatMap BaseServerImpl.clientIds)
    (hnd : (l.flatMap BaseServerImpl.clientIds).Nodup) :
    ((l.set index server').flatMap BaseServerImpl.clientIds).Nodup := by
  obtain ⟨hlt, rfl⟩ := List.getElem?_eq_some_iff.mp hget
  have hl : l = l.take index ++ l[index] :: l.drop (index + 1) := by simp
  rw [List.set_eq_take_append_cons_drop, if_pos hlt]
  rw [hl] at hnd hfresh
  simp only [List.flatMap_append, List.flatMap_cons] at hnd hfresh ⊢
  rcases hchange with hsub | ⟨id, hid, heq⟩
  · exact hnd.sublist ((List.Sublist.refl _).append (hsub.append_right _))
  · have hnew := hfresh id hid
    rw [heq]
    have hperm : (l.take index).flatMap BaseServerImpl.clientIds ++
        (l[index].clientIds ++ [id] ++ (l.drop (index + 1)).flatMap BaseServerImpl.clientIds)
        |>.Perm (id :: ((l.take index).flatMap BaseServerImpl.clientIds ++
          (l[index].clientIds ++ (l.drop (index + 1)).flatMap BaseServerImpl.clientIds))) := by
      rw [List.append_assoc, ← List.append_assoc, ← List.append_assoc _ l[index].clientIds]
      exact List.perm_middle
    exact hperm.nodup_iff.mpr (List.nodup_cons.mpr ⟨hnew, hnd⟩)

/-- A change to a registry, over the classes' ways to make and to find a client. -/
theorem RegistryOp.changesTo {C : Type} [IsClientInfo C] {newClient : NewClient C}
    {removeFd : List C → ℤ → List C} {l : List C}
    (hnew : ∀ m_client_id m_fd m_wsi m_sockaddr m_protocol,
      getClientId (newClient m_client_id m_fd m_wsi m_sockaddr m_protocol) = m_client_id)
    (hremove : ∀ fd, (removeFd l fd).Sublist l) :
    ChangesTo (clientIds l) (clientIds (op.change newClient removeFd l)) op.newClientId := by
  cases op with
  | add m_client_id m_fd m_wsi m_sockaddr m_protocol =>
      refine .inr ⟨m_client_id, rfl, ?_⟩
      simp only [change, addClientInfo_fst, clientIds_concat, hnew]
  | removeFd fd => exact .inl ((hremove fd).map _)
  | remove client_id => exact .inl (removeClientInfo_sublist.map _)

/-- A registry call adds or takes away the one client it is about. -/
theorem BaseServerImpl.changesTo_change :
    ChangesTo server.clientIds (server.change op).clientIds op.newClientId := by
  cases server with
  | inetTcp server | unixTcp server | http server | webSocket server =>
      simp only [BaseServerImpl.clientIds, change, EpollServer.change, HttpTcpServer.change,
        WebSocketTcpServer.change]
      apply RegistryOp.changesTo
      · exact fun _ _ _ _ _ => rfl
      · exact fun _ => removeClientInfoFd_sublist
  | inetUdp server | unixUdp server =>
      simp only [BaseServerImpl.clientIds, change, UdpServer.change]
      apply RegistryOp.changesTo
      · exact fun _ _ _ _ _ => rfl
      · exact fun _ => List.Sublist.refl _

/-- What a callback does to the registry: a client leaves or stays as it is, or comes with the
protocol of its path. -/
theorem callbackWebSocket_client_list {server server' : WebSocketTcpServer}
    {cb : WebSocketCallback} {ns : List Notification}
    (h : callbackWebSocket server cb = some (server', ns)) :
    server'.m_client_list.Sublist server.m_client_list ∨
      ∃ m_client_id uri client, cb.reason = .established m_client_id uri ∧
        client.m_client_id = m_client_id ∧
        getProtocolFromHeader uri = some client.m_protocol ∧
        server'.m_client_list = server.m_client_list ++ [client] := by
  rcases callbackWebSocket_cases h with ⟨-, he⟩ | ⟨-, rfl, -⟩
  · cases he with
    | connected m_client_id uri m_protocol hr hp =>
        exact .inr ⟨m_client_id, uri, _, hr, rfl, hp, rfl⟩
    | closed hr => exact .inl removeClientInfoFd_sublist
    | received _ _ _ _ | silent _ _ => exact .inl (List.Sublist.refl _)
  · exact .inl (List.Sublist.refl _)

/-- A callback is about the URI of its own client only. -/
theorem WebSocketCallback.observe_of_ne {cb : WebSocketCallback} {uris : ℕ → Bytes} {id : ℕ}
    (h : id ∉ cb.reason.newClientId) : cb.observe uris id = uris id := by
  rw [observe]
  cases hr : cb.reason with
  | established m_client_id uri =>
      rw [hr] at h
      exact Function.update_of_ne (fun heq => h (by rw [heq]; rfl)) _ _
  | wsiCreate | receive _ | filterProtocolConnection | wsPeerInitiatedClose | closed |
      protocolInit | protocolDestroy | getThreadId | delPollFd | other _ => rfl

/-- What a callback does. -/
theorem Relay.next_callback {cb : WebSocketCallback}
    (h : s.next (.callback index cb) = some (s', o)) :
    ∃ server server', s.m_servers[index]? = some (.webSocket server) ∧
      callbackWebSocket server cb = some (server', o) ∧
      s' = ⟨s.m_servers.set index (.webSocket server'), cb.observe s.uris⟩ := by
  simp only [next] at h
  split at h
  · next server hget =>
    simp only [bind, Option.bind_eq_some_iff, Option.some.injEq, Prod.mk.injEq,
      Prod.exists] at h
    obtain ⟨server', ns, hcb, rfl, rfl⟩ := h
    exact ⟨server, server', hget, hcb, rfl⟩
  · cases h

/-- What a change to a registry does. -/
theorem Relay.next_registry (h : s.next (.registry index op) = some (s', o)) :
    ∃ server, s.m_servers[index]? = some server ∧ (∀ w, server ≠ .webSocket w) ∧
      s' = ⟨s.m_servers.set index (server.change op), s.uris⟩ ∧ o = [] := by
  simp only [next] at h
  split at h
  · cases h
  · cases h
  · next server hweb hget =>
    obtain ⟨rfl, rfl⟩ := Prod.mk.inj (Option.some.inj h)
    exact ⟨server, hget, hweb, rfl, rfl⟩

/-- A callback keeps the ids distinct and the protocols those of the paths. -/
theorem Relay.Captured.callback {cb : WebSocketCallback} (hs : s.Captured)
    (hfresh : (RelayInput.callback index cb).Fresh s)
    (h : s.next (.callback index cb) = some (s', o)) : s'.Captured := by
  obtain ⟨server, server', hget, hcb, rfl⟩ := Relay.next_callback h
  have hmem : BaseServerImpl.webSocket server ∈ s.m_servers := List.mem_of_getElem? hget
  have hlist := callbackWebSocket_client_list hcb
  refine ⟨nodup_flatMap_set hget ?_ (fun id hid => (hfresh id hid).2) hs.nodup, ?_⟩
  · rcases hlist with hsub | ⟨m_client_id, uri, client, hr, hid, -, heq⟩
    · exact .inl (hsub.map _)
    · refine .inr ⟨m_client_id, congrArg WebSocketReason.newClientId hr, ?_⟩
      simp only [BaseServerImpl.clientIds, heq, clientIds_concat]
      rw [← hid]
      rfl
  · -- a client that stays keeps its path, for its id is not the new one
    have hold : ∀ server₁ client, .webSocket server₁ ∈ s.m_servers →
        client ∈ server₁.m_client_list →
        getProtocolFromHeader (cb.observe s.uris client.m_client_id) =
          some client.m_protocol := by
      intro server₁ client hserver₁ hclient
      rw [WebSocketCallback.observe_of_ne]
      · exact hs.protocol server₁ client hserver₁ hclient
      · intro hid
        exact (hfresh _ hid).2 (List.mem_flatMap.mpr
          ⟨_, hserver₁, List.mem_map_of_mem hclient⟩)
    intro server₁ client hserver₁ hclient
    rcases List.mem_or_eq_of_mem_set hserver₁ with hserver₁ | heq
    · exact hold server₁ client hserver₁ hclient
    · obtain rfl := BaseServerImpl.webSocket.inj heq
      rcases hlist with hsub | ⟨m_client_id, uri, client', hr, hid, hp, heq⟩
      · exact hold server client hmem (hsub.subset hclient)
      · rw [heq, List.mem_append, List.mem_singleton] at hclient
        rcases hclient with hclient | rfl
        · exact hold server client hmem hclient
        · simpa [WebSocketCallback.observe, hr, hid] using hp

/-- So does each registry change. -/
theorem Relay.Captured.registry (hs : s.Captured)
    (hfresh : (RelayInput.registry index op).Fresh s)
    (h : s.next (.registry index op) = some (s', o)) : s'.Captured := by
  obtain ⟨server, hget, hweb, rfl, -⟩ := Relay.next_registry h
  refine ⟨nodup_flatMap_set hget BaseServerImpl.changesTo_change
    (fun id hid => (hfresh id hid).2) hs.nodup, ?_⟩
  intro server₁ client hserver₁ hclient
  rcases List.mem_or_eq_of_mem_set hserver₁ with hserver₁ | heq
  · exact hs.protocol server₁ client hserver₁ hclient
  · cases server with
    | webSocket server => exact absurd rfl (hweb server)
    | inetTcp _ | unixTcp _ | inetUdp _ | unixUdp _ | http _ => cases heq

/-- **One step.** -/
theorem Relay.Captured.step (hs : s.Captured) (ht : Relay.Step s i s' o) : s'.Captured := by
  obtain ⟨hfresh, h⟩ := ht
  cases i with
  | callback index cb => exact hs.callback hfresh h
  | registry index op => exact hs.registry hfresh h

/-- **A whole run.** -/
theorem Relay.captured_run (h₀ : ∀ server ∈ s₀.m_servers, server.clientIds = [])
    (h : Run Relay.Step s₀ is os s) : s.Captured := by
  refine h.invariant (P := fun _ _ s => s.Captured) ?_ fun _ hs ht => hs.step ht
  have hnil : s₀.m_servers.flatMap BaseServerImpl.clientIds = [] := List.flatMap_eq_nil_iff.mpr h₀
  refine ⟨by rw [hnil]; exact List.nodup_nil, fun server client hserver hclient => ?_⟩
  have hid : client.m_client_id ∈ s₀.m_servers.flatMap BaseServerImpl.clientIds :=
    List.mem_flatMap.mpr ⟨_, hserver, List.mem_map_of_mem hclient⟩
  rw [hnil] at hid
  cases hid

end

/-! ### One call -/

section

variable {s s₀ s₁ s₂ : Relay} {pre post : List RelayInput} {i : RelayInput}
  {o os os' : List Notification} {server_id client_id n : ℕ} {uri msg delivered p : Bytes}
  {a : Attempt} {c : Client} {r : SendResults}

/-- The protocol delivered with a message is that of the sender's path. -/
theorem Relay.Captured.protocol_delivered (hs : s.Captured)
    (h : s.next i = some (s₁, [.onReceiveProtocol server_id client_id delivered n p])) :
    getProtocolFromHeader (s.uris client_id) = some p := by
  cases i with
  | callback index cb =>
      obtain ⟨server, server', hget, hcb, -⟩ := Relay.next_callback h
      rcases callbackWebSocket_cases hcb with ⟨-, he⟩ | ⟨-, -, hnone⟩
      · cases he with
        | received msg client hr hc =>
            exact hs.protocol server client (List.mem_of_getElem? hget) (Keyed.mem_of_find hc)
      · cases hnone
  | registry index op =>
      obtain ⟨_, -, -, -, ho⟩ := Relay.next_registry h
      cases ho

/-- **When the protocol is the path.** In any run, the protocol delivered with a message is the
path of its sender without the slashes exactly if that is the buffer as it was before anything
was copied into it. -/
theorem protocol_delivered_iff (h₀ : ∀ server ∈ s₀.m_servers, server.clientIds = [])
    (hpre : Run Relay.Step s₀ pre os s₁)
    (hrecv : Relay.Step s₁ i s₂ [.onReceiveProtocol server_id client_id delivered n p]) :
    p = withoutSlashes (s₁.uris client_id) ↔
      withoutSlashes (s₁.uris client_id) = List.replicate 64 0 :=
  protocol_eq_iff ((Relay.captured_run h₀ hpre).protocol_delivered hrecv.2)

/-- A try to send with a protocol is right exactly if `strcmp` tells the two protocols apart
as their paths are. -/
theorem attempt_relays_iff (hfor : Attempt.IsFor (.protocol p) msg r a c) :
    a.Relays s uri msg c ↔ ∀ client, c = .webSocket client →
      (CString.read 0 p = CString.read 0 client.m_protocol ↔
        withoutSlashes (s.uris client.m_client_id) = withoutSlashes uri) := by
  obtain ⟨returned, writes, hsent, hwrites⟩ := hfor.sent
  have hrelays : a.Relays s uri msg c ↔ writes = s.owed uri msg c := by
    refine ⟨fun h => ?_, fun h => ⟨hfor.client_id_eq, by rw [hsent, h]; rfl⟩⟩
    have hwritten := h.writes_eq
    rw [hsent] at hwritten
    exact Option.some.inj hwritten
  rw [hrelays]
  cases c with
  | tcp _ | udp _ _ | http _ =>
      exact iff_of_true hwrites fun client h => by cases h
  | webSocket client =>
      simp only [Client.Writes] at hwrites
      simp only [Relay.owed, hwrites, Client.webSocket.injEq, forall_eq']
      split <;> split <;> simp_all

/-- Once a call has returned there is nothing to resume. -/
theorem Sending.resumes_le {s s' : Sending} {as as' : List Attempt} {input : SendInput}
    (hidle : s'.call = .idle)
    (h : Run Sending.Step s (input :: (List.replicate n r).map .resume) as s')
    {m : ℕ} {s'' : Sending}
    (h' : Run Sending.Step s (input :: (List.replicate m r).map .resume) as' s'') : m ≤ n := by
  by_contra hlt
  obtain ⟨k, rfl⟩ : ∃ k, m = n + (k + 1) := ⟨m - n - 1, by omega⟩
  have hsplit : input :: (List.replicate (n + (k + 1)) r).map SendInput.resume =
      (input :: (List.replicate n r).map .resume) ++
        .resume r :: (List.replicate k r).map .resume := by
    rw [List.replicate_add, List.replicate_succ, List.map_append, List.map_cons, List.cons_append]
  rw [hsplit] at h'
  obtain ⟨s₁, s₂, _, _, _, hrun, ht, -, -⟩ := h'.split_at
  obtain ⟨rfl, -⟩ := hrun.unique deterministic_ofFn h
  have hnone : s₁.next (.resume r) = none := by simp only [next, hidle]
  rw [show s₁.next (.resume r) = some (s₂, _) from ht] at hnone
  cases hnone

/-- A whole call, try by try. -/
theorem forall₂_relays_iff {as : List Attempt} {tries : List (SendResults × Client)}
    (h : List.Forall₂ (fun a x => Attempt.IsFor (.protocol p) msg x.1 a x.2) as tries)
    (hp : getProtocolFromHeader uri = some p)
    (hcs : ∀ client, .webSocket client ∈ tries.map Prod.snd →
      getProtocolFromHeader (s.uris client.m_client_id) = some client.m_protocol) :
    List.Forall₂ (Attempt.Relays s uri msg) as (tries.map Prod.snd) ↔
      ∀ client, .webSocket client ∈ tries.map Prod.snd →
        KeptApart uri (s.uris client.m_client_id) := by
  induction h with
  | nil => simp
  | @cons a x as tries hfor _ ih =>
      obtain ⟨r, c⟩ := x
      simp only [List.map_cons, List.mem_cons, or_imp, forall_and] at hcs ⊢
      have hfirst : a.Relays s uri msg c ↔
          ∀ client, .webSocket client = c → KeptApart uri (s.uris client.m_client_id) := by
        rw [attempt_relays_iff hfor]
        refine forall_congr' fun client => ?_
        rw [eq_comm]
        exact forall_congr' fun hc => keptApart_iff hp (hcs.1 client hc)
      rw [List.forall₂_cons, hfirst, ih hcs.2]

/-- A client that a broadcast goes to is a client of some server. -/
theorem mem_clients_of_mem_targets {servers : List BaseServerImpl}
    (hc : c ∈ Sending.targets servers server_id) :
    ∃ server ∈ servers, c ∈ server.clients := by
  obtain ⟨server, hserver, hc⟩ := List.mem_flatMap.mp hc
  exact ⟨server, List.mem_of_mem_filter hserver, hc⟩

/-- A WebSocket client is a client of a WebSocket server. -/
theorem BaseServerImpl.webSocket_of_mem_clients {server : BaseServerImpl}
    {client : WebSocketTcpClientInfo} (hc : .webSocket client ∈ server.clients) :
    ∃ webSocket, server = .webSocket webSocket ∧ client ∈ webSocket.m_client_list := by
  cases server with
  | webSocket server =>
      obtain ⟨client', hclient, heq⟩ := List.mem_map.mp hc
      exact ⟨server, rfl, Client.webSocket.inj heq ▸ hclient⟩
  | inetTcp _ | unixTcp _ | inetUdp _ | unixUdp _ | http _ =>
      obtain ⟨_, _, heq⟩ := List.mem_map.mp hc
      cases heq

/-- **When one call is exact.** -/
theorem Relay.relays_iff (hs : s.Captured) (hp : getProtocolFromHeader uri = some p) :
    s.Relays server_id p uri msg ↔
      ∀ client, .webSocket client ∈ Sending.targets s.m_servers server_id →
        KeptApart uri (s.uris client.m_client_id) := by
  let s' : Sending := ⟨s.m_servers, .idle⟩
  have hcs : ∀ client, .webSocket client ∈ Sending.targets s.m_servers server_id →
      getProtocolFromHeader (s.uris client.m_client_id) = some client.m_protocol := by
    intro client hclient
    obtain ⟨server, hserver, hc⟩ := mem_clients_of_mem_targets hclient
    obtain ⟨webSocket, rfl, hmem⟩ := BaseServerImpl.webSocket_of_mem_clients hc
    exact hs.protocol webSocket client hserver hmem
  obtain ⟨moves, hmoves, hsends⟩ : ∃ moves,
      moves.reduceOption = Sending.targets s'.m_servers server_id ∧
      Sending.Sends (.protocol p) msg { s' with call := .server server_id (.protocol p) msg 0 }
        moves s' := Sending.sends_targets rfl hs.nodup
  -- the call returns, and whether it relays as it should is a question of the paths
  have hexact : ∀ rs : List SendResults, rs.length = moves.length → ∃ os,
      Run Sending.Step s' (.sendToServer server_id (.protocol p) msg :: rs.map .resume) os s' ∧
        (List.Forall₂ (Attempt.Relays s uri msg) os (Sending.targets s.m_servers server_id) ↔
          ∀ client, .webSocket client ∈ Sending.targets s.m_servers server_id →
            KeptApart uri (s.uris client.m_client_id)) := by
    intro rs hrs
    obtain ⟨os, hrun, hos⟩ := hsends rs hrs
    have hcalled : s'.next (.sendToServer server_id (.protocol p) msg) =
        some ({ s' with call := .server server_id (.protocol p) msg 0 }, []) := rfl
    have htargets : (Sending.tried rs moves).map Prod.snd =
        Sending.targets s.m_servers server_id := (Sending.map_snd_tried hrs).trans hmoves
    refine ⟨os, Run.cons (T := Sending.Step) hcalled hrun, ?_⟩
    rw [← htargets] at hcs ⊢
    exact forall₂_relays_iff hos hp hcs
  constructor
  · rintro ⟨m, hrelays⟩
    obtain ⟨os, hrun, hiff⟩ :=
      hexact _ (List.length_replicate (n := moves.length) (a := allWritten))
    obtain ⟨os', hrun', hos'⟩ := hrelays _ (List.length_replicate (n := m) (a := allWritten))
    obtain rfl : m = moves.length := Nat.le_antisymm (Sending.resumes_le rfl hrun hrun')
      (Sending.resumes_le rfl hrun' hrun)
    obtain ⟨-, rfl⟩ := hrun.unique deterministic_ofFn hrun'
    exact hiff.mp hos'
  · intro hapart
    refine ⟨moves.length, fun rs hrs => ?_⟩
    obtain ⟨os, hrun, hiff⟩ := hexact rs hrs
    exact ⟨os, hrun, hiff.mpr hapart⟩

/-- **When a relay is exact.** In any run, and whatever happens between the delivery of a
message and the relay, a call of `sendToServer` with the protocol delivered sends exactly one
message to each client with the sender's path and none to any other, exactly if the paths of
all clients are kept apart from the sender's. -/
theorem relay_exact_iff (h₀ : ∀ server ∈ s₀.m_servers, server.clientIds = [])
    (hpre : Run Relay.Step s₀ pre os s₁)
    (hrecv : Relay.Step s₁ i s₂ [.onReceiveProtocol server_id client_id delivered n p])
    (hpost : Run Relay.Step s₂ post os' s) :
    s.Relays server_id p (s₁.uris client_id) msg ↔
      ∀ client, .webSocket client ∈ Sending.targets s.m_servers server_id →
        KeptApart (s₁.uris client_id) (s.uris client.m_client_id) := by
  have hs₁ : s₁.Captured := Relay.captured_run h₀ hpre
  have hs : s.Captured := Relay.captured_run h₀ ((hpre.step hrecv).append hpost)
  exact Relay.relays_iff hs (hs₁.protocol_delivered hrecv.2)

end

/-! ### Two clients -/

/-- A WebSocket server without clients. -/
def relayServer : Relay :=
  { m_servers := [.webSocket { m_server_id := 1, m_context := true, m_run_thread := true,
                               m_client_list := [] }]
    uris := fun _ => [] }

/-- Two clients connect, each with its path. -/
def twoClients (uri uri' : Bytes) : List RelayInput :=
  [.callback 0 ⟨0, 5, .established 16 uri⟩, .callback 0 ⟨1, 6, .established 32 uri'⟩]

/-- The first client sends a byte. -/
def message : RelayInput :=
  .callback 0 ⟨0, 5, .receive [7]⟩

/-- `/` and 63 equal bytes. -/
def longPath (x : UInt8) : Bytes :=
  47 :: List.replicate 63 x

/-- The server after both have come with the path `/a`. -/
def sharedRoom : Relay :=
  { m_servers := [.webSocket { m_server_id := 1, m_context := true, m_run_thread := true,
                               m_client_list :=
                                 [{ m_tcp := true, m_client_id := 16, m_fd := 5, m_wsi := 0,
                                    m_protocol := 97 :: List.replicate 62 0 },
                                  { m_tcp := true, m_client_id := 32, m_fd := 6, m_wsi := 1,
                                    m_protocol := 97 :: List.replicate 62 0 }] }]
    uris := Function.update (Function.update (fun _ => []) 16 [47, 97]) 32 [47, 97] }

/-- Two clients connect with the same path. -/
theorem run_sharedRoom :
    Run Relay.Step relayServer (twoClients [47, 97] [47, 97])
      [.onClientConnected 1 16, .onClientConnected 1 32] sharedRoom :=
  run_guarded_of_exec rfl

/-- The message of one of them is reported with its protocol. -/
theorem message_sharedRoom :
    Relay.Step sharedRoom message sharedRoom
      [.onReceiveProtocol 1 16 [7] 1 (97 :: List.replicate 62 0)] :=
  ⟨by decide, rfl⟩

/-- For these two: the message is relayed exactly if their paths are kept apart. -/
theorem relay_exact_iff_sharedRoom :
    sharedRoom.Relays 1 (97 :: List.replicate 62 0) (sharedRoom.uris 16) [7] ↔
      ∀ client, .webSocket client ∈ Sending.targets sharedRoom.m_servers 1 →
        KeptApart (sharedRoom.uris 16) (sharedRoom.uris client.m_client_id) :=
  relay_exact_iff (by decide) run_sharedRoom message_sharedRoom .start

/-- For this path: with the NULs behind it, it is delivered as it is only if it were 64 NULs. -/
theorem protocol_delivered_iff_sharedRoom :
    97 :: List.replicate 62 0 = withoutSlashes (sharedRoom.uris 16) ↔
      withoutSlashes (sharedRoom.uris 16) = List.replicate 64 0 :=
  protocol_delivered_iff (by decide) run_sharedRoom message_sharedRoom

/-- The path `/a`: the protocol delivered is `a` and 62 NULs. -/
theorem protocol_padded :
    ∃ os s, Run Relay.Step relayServer (twoClients [47, 97] [47, 97]) os s ∧
      Relay.Step s message s [.onReceiveProtocol 1 16 [7] 1 (97 :: List.replicate 62 0)] ∧
      97 :: List.replicate 62 0 ≠ withoutSlashes (s.uris 16) :=
  ⟨_, _, run_sharedRoom, message_sharedRoom, by decide⟩

/-- Two paths of 64 bytes that differ: both clients get the empty protocol, and a message of the
one is relayed to the other. -/
theorem longPaths_mixed :
    ∃ os s, Run Relay.Step relayServer (twoClients (longPath 97) (longPath 98) ++ [message]) os s ∧
      .onReceiveProtocol 1 16 [7] 1 (List.replicate 64 0) ∈ os ∧
      ¬ s.Relays 1 (List.replicate 64 0) (longPath 97) [7] := by
  have hrun : Run Relay.Step relayServer
      (twoClients (longPath 97) (longPath 98) ++ [message]) _ _ := run_guarded_of_exec rfl
  refine ⟨_, _, hrun, by decide, fun hrelays => ?_⟩
  have hs := Relay.captured_run (by decide) hrun
  have hp : getProtocolFromHeader (longPath 97) = some (List.replicate 64 0) := by decide
  have hapart := (Relay.relays_iff hs hp).mp hrelays
    { m_tcp := true, m_client_id := 32, m_fd := 6, m_wsi := 1, m_protocol := List.replicate 64 0 }
    (by decide)
  exact absurd (hapart.long (by decide) (by decide)) (by decide)

end AnyServer
