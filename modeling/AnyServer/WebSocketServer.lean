import AnyServer.Library.Lts
import AnyServer.Library.Replace
import AnyServer.ClientRegistry

/-!
# The WebSocket Server's Callback

`WebSocketTcpServer` is driven by libwebsockets like `HttpTcpServer`, through
`__callback_websocket__`. A client is registered under `LWS_CALLBACK_ESTABLISHED`, together
with the path of its request as its protocol: `__getProtocolFromHeader__` copies the URI
into a string of 64 NULs and drops the slashes with `__replaceAll__`.

`__replaceAll__` is a search loop. It is modelled with fuel, `none` being a loop that has
not ended; the fuel given is enough for every nonempty pattern (`replaceAll_isSome`).

As for the HTTP server, a callback comes with the connection, the fd that
`lws_get_socket_fd` returns for it, and for a new client the id of the object allocated.

## Main results

* `replaceAll_standard`: the search loop ends, and leaves the standard replacement.
* `replaceAll_single`: what it leaves when one byte is replaced by nothing.
* `callbackWebSocket_effect`: what a callback that passes the gates does, by its reason.
* `callbackWebSocket_idle`: a callback that the gates reject changes and reports nothing.
-/

namespace AnyServer

/-! ### The protocol of a client -/

/-- `std::string::find(from, pos)`; `none` is `npos`. -/
def stringFind (str from_ : Bytes) (pos : ℕ) : Option ℕ :=
  (List.range' pos (str.length + 1 - pos)).find? fun i => from_.isPrefixOf (str.drop i)

/-- The loop of `__replaceAll__`. -/
def replaceAllLoop (from_ to_ : Bytes) : ℕ → Bytes → ℕ → Option Bytes
  | 0, _, _ => none
  | fuel + 1, str, start_pos =>
      match stringFind str from_ start_pos with
      | none => some str
      | some pos =>
          replaceAllLoop from_ to_ fuel (str.take pos ++ to_ ++ str.drop (pos + from_.length))
            (pos + to_.length)

/-- `WebSocketTcpServer::__replaceAll__`. -/
def replaceAll (str from_ to_ : Bytes) : Option Bytes :=
  replaceAllLoop from_ to_ (str.length + 1) str 0

/-- `lws_hdr_copy` of a header that holds `hdr`: it copies the header and a NUL when both
fit in `dest`, and otherwise fails and copies nothing. -/
def lwsHdrCopy (dest hdr : Bytes) : Bytes :=
  if hdr.length + 1 ≤ dest.length then hdr ++ [0] ++ dest.drop (hdr.length + 1) else dest

/-- `WebSocketTcpServer::__getProtocolFromHeader__`; `47` is `'/'`. The result of
`lws_hdr_copy` is not looked at. -/
def getProtocolFromHeader (uri : Bytes) : Option Bytes :=
  replaceAll (lwsHdrCopy (List.replicate 64 0) uri) [47] []

/-! ### The search loop -/

section

variable {str from_ to_ done rest : Bytes} {pos fuel : ℕ}

/-- When `find` finds nothing, the string does not occur in what is left. -/
theorem stringFind_eq_none (hfrom : from_ ≠ [])
    (h : stringFind (done ++ rest) from_ done.length = none) : ¬ from_ <:+: rest := by
  rw [stringFind, List.find?_range'_eq_none] at h
  rw [Replace.infix_iff_exists_drop]
  rintro ⟨i, hi, hpre⟩
  have hlen := List.length_pos_of_ne_nil hfrom
  have hle := hpre.length_le
  have hnot := h (done.length + i) (by omega) (by rw [List.length_append]; omega)
  rw [← List.drop_drop, List.drop_left, Bool.not_eq_true',
    List.isPrefixOf_iff_prefix.mpr hpre] at hnot
  exact Bool.noConfusion hnot

/-- The search stops at the first occurrence in what it has not passed. -/
theorem stringFind_eq_some (h : stringFind (done ++ rest) from_ done.length = some pos) :
    ∃ before after, rest = before ++ (from_ ++ after) ∧ pos = (done ++ before).length ∧
      Replace.IsFirst from_ before after := by
  rw [stringFind, List.find?_range'_eq_some] at h
  obtain ⟨hpre, hmem, hbefore⟩ := h
  rw [List.mem_range'_1, List.length_append] at hmem
  obtain ⟨i, rfl⟩ := Nat.exists_eq_add_of_le hmem.1
  rw [List.isPrefixOf_iff_prefix, ← List.drop_drop, List.drop_left] at hpre
  obtain ⟨after, hafter⟩ := hpre
  have hrest : rest = rest.take i ++ (from_ ++ after) := by rw [hafter, List.take_append_drop]
  have hi : (rest.take i).length = i := List.length_take_of_le (by omega)
  refine ⟨rest.take i, after, hrest, by rw [List.length_append, hi], fun j hj => ?_⟩
  have hnot := hbefore (done.length + j) (by omega) (by omega)
  rw [← List.drop_drop, List.drop_left] at hnot
  rw [← hrest, ← List.isPrefixOf_iff_prefix, Bool.not_eq_true]
  simpa using hnot

/-- One round of the loop: the first occurrence is cut out of the rest. -/
theorem replaceAllLoop_cut {before after : Bytes} :
    (done ++ (before ++ (from_ ++ after))).take (done ++ before).length ++ to_ ++
        (done ++ (before ++ (from_ ++ after))).drop ((done ++ before).length + from_.length) =
      (done ++ before ++ to_) ++ after := by
  rw [← List.append_assoc, List.take_left, ← List.drop_drop, List.drop_left, List.drop_left]

/-- **The loop leaves what it has passed and replaces in the rest.** The induction is on the
fuel; a round takes the occurrence that ends `before` out of `rest`, so that `after`, in
which the search goes on, is a piece of the original string. -/
theorem replaceAllLoop_replaced (to_ : Bytes) (hfrom : from_ ≠ []) (done : Bytes)
    (hfuel : rest.length < fuel) :
    ∃ out, replaceAllLoop from_ to_ fuel (done ++ rest) done.length = some (done ++ out) ∧
      Replace.Replaced from_ to_ rest out := by
  induction fuel generalizing done rest with
  | zero => omega
  | succ fuel ih =>
      rw [replaceAllLoop]
      cases hf : stringFind (done ++ rest) from_ done.length with
      | none => exact ⟨rest, rfl, .done (stringFind_eq_none hfrom hf)⟩
      | some pos =>
          obtain ⟨before, after, rfl, rfl, hfirst⟩ := stringFind_eq_some hf
          have hafter : after.length < fuel := by
            have hlen := List.length_pos_of_ne_nil hfrom
            simp only [List.length_append] at hfuel
            omega
          obtain ⟨out, hloop, hout⟩ := ih (done ++ before ++ to_) hafter
          refine ⟨before ++ (to_ ++ out), ?_, .next hfirst hout⟩
          simp only [replaceAllLoop_cut]
          rw [← List.length_append, hloop, List.append_assoc, List.append_assoc]

/-- The loop of `__replaceAll__` ends for every nonempty pattern. -/
theorem replaceAll_isSome (hfrom : from_ ≠ []) : (replaceAll str from_ to_).isSome := by
  obtain ⟨out, hloop, -⟩ := replaceAllLoop_replaced to_ hfrom [] (Nat.lt_succ_self str.length)
  exact Option.isSome_of_eq_some hloop

/-- `__replaceAll__` of one byte by nothing. -/
theorem replaceAll_single {x : UInt8} :
    replaceAll str [x] [] = some (str.filter (· != x)) := by
  obtain ⟨out, hloop, hout⟩ :=
    replaceAllLoop_replaced [] (List.cons_ne_nil x []) [] (Nat.lt_succ_self str.length)
  rw [hout.unique (Replace.replaced_single x str)] at hloop
  exact hloop

/-- **`__replaceAll__` ends, and is the standard replacement**: with fuel for every byte of the
string, and with any more of it, the loop leaves the one string that has the occurrences of
`from` replaced from left to right. -/
theorem replaceAll_standard (str : Bytes) {from_ : Bytes} (to_ : Bytes) (hfrom : from_ ≠ []) :
    (∃ out, replaceAll str from_ to_ = some out ∧
      (∀ fuel, str.length < fuel → replaceAllLoop from_ to_ fuel str 0 = some out) ∧
      ∀ out', Replace.Replaced from_ to_ str out' ↔ out' = out) ∧
    replaceAll str [47] [] = some (str.filter (· != 47)) := by
  obtain ⟨out, hloop, hout⟩ :=
    replaceAllLoop_replaced to_ hfrom [] (Nat.lt_succ_self str.length)
  refine ⟨⟨out, hloop, fun fuel hfuel => ?_, fun out' => ?_⟩, replaceAll_single⟩
  · obtain ⟨out', hloop', hout'⟩ := replaceAllLoop_replaced to_ hfrom [] hfuel
    rw [hout'.unique hout] at hloop'
    exact hloop'
  · exact ⟨fun hout' => hout'.unique hout, fun heq => heq ▸ hout⟩

/-- `to` contains `from` here. -/
theorem replaceAll_standard_aba :
    (∃ out, replaceAll [97, 98, 97] [97] [97, 97] = some out ∧
      (∀ fuel, 3 < fuel → replaceAllLoop [97] [97, 97] fuel [97, 98, 97] 0 = some out) ∧
      ∀ out', Replace.Replaced [97] [97, 97] ([97, 98, 97] : Bytes) out' ↔ out' = out) ∧
    replaceAll [97, 98, 97] [47] [] = some [97, 98, 97] :=
  replaceAll_standard [97, 98, 97] [97, 97] (List.cons_ne_nil 97 [])

end

/-! ### The callback -/

/-- The `reason` argument of `__callback_websocket__` with the data that comes with it. -/
inductive WebSocketReason
  | wsiCreate
  | established (m_client_id : ℕ) (uri : Bytes)
  | receive (msg : Bytes)
  | filterProtocolConnection
  | wsPeerInitiatedClose
  | closed
  | protocolInit
  | protocolDestroy
  | getThreadId
  | delPollFd
  | other (reason : ℕ)
  deriving DecidableEq, Repr

/-- One call of `__callback_websocket__`. -/
structure WebSocketCallback where
  wsi : ℕ
  client_fd : ℤ
  reason : WebSocketReason
  deriving DecidableEq, Repr

/-- What `__callback_websocket__` reads and writes. -/
structure WebSocketTcpServer where
  m_server_id : ℕ
  m_context : Bool
  m_run_thread : Bool
  m_client_list : List WebSocketTcpClientInfo
  deriving DecidableEq, Repr

/-- Whether a callback gets past the two tests at the top of the function. -/
def WebSocketTcpServer.handles (server : WebSocketTcpServer) : Bool :=
  server.m_context && server.m_run_thread

/-- `WebSocketTcpServer::__callback_websocket__`. The result is `none` where the source goes
through a null client. -/
def callbackWebSocket (server : WebSocketTcpServer) (cb : WebSocketCallback) :
    Option (WebSocketTcpServer × List Notification) :=
  if server.m_context = false then some (server, [])
  else if server.m_run_thread = false then some (server, [])
  else
    match cb.reason with
    | .wsiCreate => some (server, [])
    | .established m_client_id uri => do
        let m_protocol ← getProtocolFromHeader uri
        let client : WebSocketTcpClientInfo :=
          { m_tcp := true, m_client_id, m_fd := cb.client_fd, m_wsi := cb.wsi, m_protocol }
        let r := addClientInfo server.m_client_list client
        some ({ server with m_client_list := r.1 },
          [.onClientConnected server.m_server_id r.2])
    | .receive msg => do
        let client ← findClientInfoFd server.m_client_list cb.client_fd
        some (server,
          [.onReceiveProtocol server.m_server_id (getClientId client) msg
            (msg.length % 2 ^ 32) client.m_protocol])
    | .filterProtocolConnection => some (server, [])
    | .wsPeerInitiatedClose => some (server, [])
    | .closed =>
        let r := removeClientInfoFd server.m_client_list cb.client_fd
        some ({ server with m_client_list := r.1 },
          [.onClientDisconnected server.m_server_id r.2])
    | .protocolInit => some (server, [])
    | .protocolDestroy => some (server, [])
    | .getThreadId => some (server, [])
    | .delPollFd =>
        let r := removeClientInfoFd server.m_client_list cb.client_fd
        some ({ server with m_client_list := r.1 },
          [.onClientDisconnected server.m_server_id r.2])
    | .other _ => some (server, [])

/-- The id of the client object that the callback allocates. -/
def WebSocketReason.newClientId : WebSocketReason → Option ℕ
  | .established m_client_id _ => some m_client_id
  | _ => none

/-- The allocator's side of a callback: a new client object gets an address that no live
client has, and never the null address. -/
abbrev WebSocketCallback.Fresh (cb : WebSocketCallback)
    (m_client_list : List WebSocketTcpClientInfo) : Prop :=
  ∀ m_client_id ∈ cb.reason.newClientId,
    m_client_id ≠ 0 ∧ m_client_id ∉ clientIds m_client_list

/-- The server driven by its callbacks. -/
abbrev WebSocketTcpServer.Step : Lts WebSocketTcpServer WebSocketCallback Notification :=
  Lts.guarded (fun server cb => cb.Fresh server.m_client_list) callbackWebSocket

/-- The two reasons under which the callback removes a client. -/
def WebSocketReason.isClose : WebSocketReason → Bool
  | .closed => true
  | .delPollFd => true
  | _ => false

/-- What a callback that passes the gates does, by its reason. -/
inductive WebSocketEffect (server : WebSocketTcpServer) (cb : WebSocketCallback) :
    WebSocketTcpServer → List Notification → Prop
  | connected (m_client_id : ℕ) (uri m_protocol : Bytes)
      (hr : cb.reason = .established m_client_id uri)
      (hp : getProtocolFromHeader uri = some m_protocol) :
      WebSocketEffect server cb
        { server with
          m_client_list := server.m_client_list ++
            [{ m_tcp := true, m_client_id, m_fd := cb.client_fd, m_wsi := cb.wsi,
               m_protocol }] }
        [.onClientConnected server.m_server_id m_client_id]
  | received (msg : Bytes) (client : WebSocketTcpClientInfo) (hr : cb.reason = .receive msg)
      (hc : findClientInfoFd server.m_client_list cb.client_fd = some client) :
      WebSocketEffect server cb server
        [.onReceiveProtocol server.m_server_id (getClientId client) msg
          (msg.length % 2 ^ 32) client.m_protocol]
  | closed (hr : cb.reason.isClose = true) :
      WebSocketEffect server cb
        { server with
          m_client_list := (removeClientInfoFd server.m_client_list cb.client_fd).1 }
        [.onClientDisconnected server.m_server_id
          (removeClientInfoFd server.m_client_list cb.client_fd).2]
  | silent (hc : cb.reason.isClose = false) (hn : cb.reason.newClientId = none) :
      WebSocketEffect server cb server []

section

variable {server server' : WebSocketTcpServer} {cb : WebSocketCallback}
  {o : List Notification}

/-- A callback that the gates reject changes nothing and reports nothing. -/
theorem callbackWebSocket_idle (h : server.handles = false) :
    callbackWebSocket server cb = some (server, []) := by
  simp only [WebSocketTcpServer.handles, Bool.and_eq_false_iff] at h
  rcases h with h | h <;> simp [callbackWebSocket, h]

/-- **Inversion of a callback** that passes the gates. -/
theorem callbackWebSocket_effect (hg : server.handles = true)
    (h : callbackWebSocket server cb = some (server', o)) :
    WebSocketEffect server cb server' o := by
  simp only [WebSocketTcpServer.handles, Bool.and_eq_true] at hg
  rw [callbackWebSocket, if_neg (by simp [hg.1]), if_neg (by simp [hg.2])] at h
  cases hr : cb.reason with
  | established m_client_id uri =>
      simp only [hr, bind, Option.bind_eq_some_iff] at h
      obtain ⟨m_protocol, hp, h⟩ := h
      obtain ⟨rfl, rfl⟩ := Prod.mk.inj (Option.some.inj h)
      exact .connected m_client_id uri m_protocol hr hp
  | receive msg =>
      simp only [hr, bind, Option.bind_eq_some_iff] at h
      obtain ⟨client, hc, h⟩ := h
      obtain ⟨rfl, rfl⟩ := Prod.mk.inj (Option.some.inj h)
      exact .received msg client hr hc
  | closed | delPollFd =>
      simp only [hr] at h
      obtain ⟨rfl, rfl⟩ := Prod.mk.inj (Option.some.inj h)
      exact .closed (by rw [hr]; rfl)
  | wsiCreate | filterProtocolConnection | wsPeerInitiatedClose | protocolInit |
      protocolDestroy | getThreadId | other n =>
      simp only [hr] at h
      obtain ⟨rfl, rfl⟩ := Prod.mk.inj (Option.some.inj h)
      exact .silent (by rw [hr]; rfl) (by rw [hr]; rfl)

/-- **Inversion of any callback.** -/
theorem callbackWebSocket_cases (h : callbackWebSocket server cb = some (server', o)) :
    server.handles = true ∧ WebSocketEffect server cb server' o ∨
      server.handles = false ∧ server' = server ∧ o = [] := by
  cases hg : server.handles with
  | true => exact .inl ⟨rfl, callbackWebSocket_effect hg h⟩
  | false =>
      rw [callbackWebSocket_idle hg] at h
      obtain ⟨rfl, rfl⟩ := Prod.mk.inj (Option.some.inj h)
      exact .inr ⟨rfl, rfl, rfl⟩

/-- A callback with a new client registers and reports it. -/
theorem WebSocketEffect.connects {client_id : ℕ} (he : WebSocketEffect server cb server' o)
    (hnew : client_id ∈ cb.reason.newClientId) :
    client_id ∈ clientIds server'.m_client_list ∧
      o = [.onClientConnected server'.m_server_id client_id] := by
  cases he with
  | connected m_client_id uri m_protocol hr hp =>
      obtain rfl : m_client_id = client_id := by
        simpa [hr, WebSocketReason.newClientId] using hnew
      refine ⟨?_, rfl⟩
      rw [clientIds_concat]
      exact List.mem_append_right _ (List.mem_singleton_self _)
  | received _ _ hr _ | closed hr | silent _ hr =>
      cases hreason : cb.reason <;>
        simp_all [WebSocketReason.newClientId, WebSocketReason.isClose]

end

end AnyServer
