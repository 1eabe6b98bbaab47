import AnyServer.Library.Lts
import AnyServer.ClientRegistry

/-!
# The HTTP Server's Callback

`HttpTcpServer` hands its sockets to libwebsockets and lives in one callback,
`__callback_http__`. libwebsockets calls it with a `wsi` (the connection), a reason and
the reason's data; all connections of the server share the one callback, and the worker
thread makes the calls one after the other.

The state of `HttpTcpServer` below is what the callback reads and writes: the static
`m_context`, the flag `m_run_thread`, the registry, and `req_body`, a `static string`
inside the function.

What a callback sees of the outside world comes with it as `HttpCallback`: the connection,
the fd that `lws_get_socket_fd` returns for it, and for a new connection the id (the
address) of the `HttpTcpClientInfo` it allocates. The header queries made under
`LWS_CALLBACK_HTTP` only feed debug output and are left out.

## Main results

* `callbackHttp_effect` / `callbackHttp_of_effect`: what a callback that passes the gates
  does, by its reason.
* `callbackHttp_idle`: a callback that the gates reject changes and reports nothing.
* `HttpTcpServer.handles_run`: no run of callbacks opens or shuts the gates.
-/

namespace AnyServer

/-- The `reason` argument of `__callback_http__` with the data that comes with it. -/
inductive HttpReason
  | serverNewClientInstantiated (m_client_id : ℕ)
  | closedHttp
  | http
  | httpBody (body : Bytes)
  | httpBodyCompletion
  | httpWriteable
  | protocolInit
  | getThreadId
  | delPollFd
  | other (reason : ℕ)
  deriving DecidableEq, Repr

/-- One call of `__callback_http__`. -/
structure HttpCallback where
  wsi : ℕ
  client_fd : ℤ
  reason : HttpReason
  deriving DecidableEq, Repr

/-- What `__callback_http__` reads and writes. `m_context` says whether the static context
pointer is set; its user pointer is this server. -/
structure HttpTcpServer where
  m_server_id : ℕ
  m_context : Bool
  m_run_thread : Bool
  m_client_list : List HttpTcpClientInfo
  req_body : Bytes
  deriving DecidableEq, Repr

/-- Whether a callback gets past the two tests at the top of the function. -/
def HttpTcpServer.handles (server : HttpTcpServer) : Bool :=
  server.m_context && server.m_run_thread

/-- `HttpTcpServer::__callback_http__`. The result is `none` where the source goes through
a null client. -/
def callbackHttp (server : HttpTcpServer) (cb : HttpCallback) :
    Option (HttpTcpServer × List Notification) :=
  if server.m_context = false then some (server, [])
  else if server.m_run_thread = false then some (server, [])
  else
    match cb.reason with
    | .serverNewClientInstantiated m_client_id =>
        let client : HttpTcpClientInfo :=
          { m_tcp := true, m_client_id, m_fd := cb.client_fd, m_wsi := cb.wsi }
        let r := addClientInfo server.m_client_list client
        some ({ server with m_client_list := r.1 },
          [.onClientConnected server.m_server_id r.2])
    | .closedHttp =>
        let r := removeClientInfoFd server.m_client_list cb.client_fd
        some ({ server with m_client_list := r.1 },
          [.onClientDisconnected server.m_server_id r.2])
    | .http => some ({ server with req_body := [] }, [])
    | .httpBody body => some ({ server with req_body := server.req_body ++ body }, [])
    | .httpBodyCompletion => do
        let client ← findClientInfoFd server.m_client_list cb.client_fd
        some (server,
          [.onReceive server.m_server_id (getClientId client) server.req_body
            (server.req_body.length % 2 ^ 32)])
    | .httpWriteable => some (server, [])
    | .protocolInit => some (server, [])
    | .getThreadId => some (server, [])
    | .delPollFd =>
        let r := removeClientInfoFd server.m_client_list cb.client_fd
        some ({ server with m_client_list := r.1 },
          [.onClientDisconnected server.m_server_id r.2])
    | .other _ => some (server, [])

/-- The id of the client object that the callback allocates. -/
def HttpReason.newClientId : HttpReason → Option ℕ
  | .serverNewClientInstantiated m_client_id => some m_client_id
  | _ => none

/-- The allocator's side of a callback: a new client object gets an address that no live
client has, and never the null address. -/
abbrev HttpCallback.Fresh (cb : HttpCallback) (m_client_list : List HttpTcpClientInfo) :
    Prop :=
  ∀ m_client_id ∈ cb.reason.newClientId,
    m_client_id ≠ 0 ∧ m_client_id ∉ clientIds m_client_list

/-- A callback that brings no client has a fresh id. -/
theorem HttpCallback.fresh_of_none {cb : HttpCallback} {m_client_list : List HttpTcpClientInfo}
    (h : cb.reason.newClientId = none) : cb.Fresh m_client_list := by
  intro m_client_id hid
  rw [h] at hid
  cases hid

/-- The server driven by its callbacks. -/
abbrev HttpTcpServer.Step : Lts HttpTcpServer HttpCallback Notification :=
  Lts.guarded (fun server cb => cb.Fresh server.m_client_list) callbackHttp

/-- The two reasons under which the callback removes a client. -/
def HttpReason.isClose : HttpReason → Bool
  | .closedHttp => true
  | .delPollFd => true
  | _ => false

/-- What a callback that passes the gates does, by its reason. -/
inductive HttpEffect (server : HttpTcpServer) (cb : HttpCallback) :
    HttpTcpServer → List Notification → Prop
  | connected (m_client_id : ℕ)
      (hr : cb.reason = .serverNewClientInstantiated m_client_id) :
      HttpEffect server cb
        { server with
          m_client_list := server.m_client_list ++
            [{ m_tcp := true, m_client_id, m_fd := cb.client_fd, m_wsi := cb.wsi }] }
        [.onClientConnected server.m_server_id m_client_id]
  | closed (hr : cb.reason.isClose = true) :
      HttpEffect server cb
        { server with
          m_client_list := (removeClientInfoFd server.m_client_list cb.client_fd).1 }
        [.onClientDisconnected server.m_server_id
          (removeClientInfoFd server.m_client_list cb.client_fd).2]
  | request (hr : cb.reason = .http) :
      HttpEffect server cb { server with req_body := [] } []
  | body (b : Bytes) (hr : cb.reason = .httpBody b) :
      HttpEffect server cb { server with req_body := server.req_body ++ b } []
  | completion (client : HttpTcpClientInfo) (hr : cb.reason = .httpBodyCompletion)
      (hc : findClientInfoFd server.m_client_list cb.client_fd = some client) :
      HttpEffect server cb server
        [.onReceive server.m_server_id (getClientId client) server.req_body
          (server.req_body.length % 2 ^ 32)]
  | silent (hr : cb.reason = .httpWriteable ∨ cb.reason = .protocolInit ∨
        cb.reason = .getThreadId ∨ ∃ n, cb.reason = .other n) :
      HttpEffect server cb server []

section

variable {server server' : HttpTcpServer} {cb : HttpCallback} {o : List Notification}

/-- A callback that the gates reject changes nothing and reports nothing. -/
theorem callbackHttp_idle (h : server.handles = false) :
    callbackHttp server cb = some (server, []) := by
  simp only [HttpTcpServer.handles, Bool.and_eq_false_iff] at h
  rcases h with h | h <;> simp [callbackHttp, h]

/-- **Inversion of a callback** that passes the gates. -/
theorem callbackHttp_effect (hg : server.handles = true)
    (h : callbackHttp server cb = some (server', o)) : HttpEffect server cb server' o := by
  simp only [HttpTcpServer.handles, Bool.and_eq_true] at hg
  rw [callbackHttp, if_neg (by simp [hg.1]), if_neg (by simp [hg.2])] at h
  cases hr : cb.reason with
  | serverNewClientInstantiated m_client_id =>
      simp only [hr] at h
      obtain ⟨rfl, rfl⟩ := Prod.mk.inj (Option.some.inj h)
      exact .connected m_client_id hr
  | closedHttp =>
      simp only [hr] at h
      obtain ⟨rfl, rfl⟩ := Prod.mk.inj (Option.some.inj h)
      exact .closed (by rw [hr]; rfl)
  | http =>
      simp only [hr] at h
      obtain ⟨rfl, rfl⟩ := Prod.mk.inj (Option.some.inj h)
      exact .request hr
  | httpBody body =>
      simp only [hr] at h
      obtain ⟨rfl, rfl⟩ := Prod.mk.inj (Option.some.inj h)
      exact .body body hr
  | httpBodyCompletion =>
      simp only [hr, bind, Option.bind_eq_some_iff] at h
      obtain ⟨client, hc, h⟩ := h
      obtain ⟨rfl, rfl⟩ := Prod.mk.inj (Option.some.inj h)
      exact .completion client hr hc
  | httpWriteable =>
      simp only [hr] at h
      obtain ⟨rfl, rfl⟩ := Prod.mk.inj (Option.some.inj h)
      exact .silent (.inl hr)
  | protocolInit =>
      simp only [hr] at h
      obtain ⟨rfl, rfl⟩ := Prod.mk.inj (Option.some.inj h)
      exact .silent (.inr (.inl hr))
  | getThreadId =>
      simp only [hr] at h
      obtain ⟨rfl, rfl⟩ := Prod.mk.inj (Option.some.inj h)
      exact .silent (.inr (.inr (.inl hr)))
  | delPollFd =>
      simp only [hr] at h
      obtain ⟨rfl, rfl⟩ := Prod.mk.inj (Option.some.inj h)
      exact .closed (by rw [hr]; rfl)
  | other n =>
      simp only [hr] at h
      obtain ⟨rfl, rfl⟩ := Prod.mk.inj (Option.some.inj h)
      exact .silent (.inr (.inr (.inr ⟨n, hr⟩)))

/-- A callback that passes the gates does all that `HttpEffect` says it may do. -/
theorem callbackHttp_of_effect (hg : server.handles = true)
    (h : HttpEffect server cb server' o) : callbackHttp server cb = some (server', o) := by
  simp only [HttpTcpServer.handles, Bool.and_eq_true] at hg
  rw [callbackHttp, if_neg (by simp [hg.1]), if_neg (by simp [hg.2])]
  cases h with
  | connected m_client_id hr => rw [hr]; rfl
  | closed hr => cases hc : cb.reason <;> simp_all [HttpReason.isClose]
  | request hr => rw [hr]
  | body b hr => rw [hr]
  | completion client hr hc => simp [hr, hc]
  | silent hr => rcases hr with hr | hr | hr | ⟨n, hr⟩ <;> rw [hr]

/-- **Inversion of any callback.** -/
theorem callbackHttp_cases (h : callbackHttp server cb = some (server', o)) :
    server.handles = true ∧ HttpEffect server cb server' o ∨
      server.handles = false ∧ server' = server ∧ o = [] := by
  cases hg : server.handles with
  | true => exact .inl ⟨rfl, callbackHttp_effect hg h⟩
  | false =>
      rw [callbackHttp_idle hg] at h
      obtain ⟨rfl, rfl⟩ := Prod.mk.inj (Option.some.inj h)
      exact .inr ⟨rfl, rfl, rfl⟩

/-- A callback with a new client registers and reports it. -/
theorem HttpEffect.connects {client_id : ℕ} (he : HttpEffect server cb server' o)
    (hnew : client_id ∈ cb.reason.newClientId) :
    client_id ∈ clientIds server'.m_client_list ∧
      o = [.onClientConnected server'.m_server_id client_id] := by
  cases he with
  | connected m_client_id hr =>
      obtain rfl : m_client_id = client_id := by simpa [hr, HttpReason.newClientId] using hnew
      refine ⟨?_, rfl⟩
      rw [clientIds_concat]
      exact List.mem_append_right _ (List.mem_singleton_self _)
  | closed hr | request hr | body _ hr | completion _ hr _ | silent hr =>
      cases hreason : cb.reason <;> simp_all [HttpReason.newClientId, HttpReason.isClose]

/-- No callback touches what it is gated on. -/
theorem callbackHttp_handles (h : callbackHttp server cb = some (server', o)) :
    server'.handles = server.handles := by
  rcases callbackHttp_cases h with ⟨-, he⟩ | ⟨-, rfl, -⟩
  · cases he <;> rfl
  · rfl

/-- The gates stay open, or stay shut, along every run. -/
theorem HttpTcpServer.handles_run {cbs : List HttpCallback} {os : List Notification}
    {s₀ s : HttpTcpServer} (h : Lts.Run HttpTcpServer.Step s₀ cbs os s) :
    s.handles = s₀.handles := by
  induction h with
  | start => rfl
  | step _ ht ih => rw [← ih, callbackHttp_handles ht.2]

end

end AnyServer
