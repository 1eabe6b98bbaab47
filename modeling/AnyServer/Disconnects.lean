import AnyServer.HttpServer
import AnyServer.WebSocketServer

/-!
# Disconnects Reported by the lws Servers

`__callback_http__` and `__callback_websocket__` remove a client under two reasons each, the
protocol's own close and `LWS_CALLBACK_DEL_POLL_FD`, and report whatever id
`removeClientInfo` returns, also the not-found value `0`.

Both servers are instances of `LwsServer`, a registry that callbacks announce clients to
and remove fds from while a flag allows it: `HttpTcpServer.driven_simulates` and
`WebSocketTcpServer.driven_simulates`. What decides whether the reported disconnects match
the clients announced is then a property of the sequence of callbacks alone: each close
callback that is handled must find an fd that was announced and has not been closed since
(`ClosesFindClients`). `openFds` computes these fds from the callbacks.

A server's worker and its owner store to `m_run_thread` between callbacks; such stores are
inputs here too.

## Main results

* `closesMatched_iff`: for the registry, the disconnects reported match the clients
  announced exactly when every close finds a client.
* `disconnects_matched_iff`: the same for the two servers.
-/

namespace AnyServer

open Lts Session

/-! ### The registry behind the callbacks -/

/-- What an lws server keeps of its clients, and what it is gated on. -/
structure LwsServer (C : Type) where
  m_context : Bool
  m_run_thread : Bool
  m_client_list : List C

/-- Whether a callback gets past the two tests at its top. -/
def LwsServer.handles {C : Type} (server : LwsServer C) : Bool :=
  server.m_context && server.m_run_thread

/-- What an input means for the registry. -/
inductive LwsInput (C : Type)
  | store (m_run_thread : Bool)
  | announce (client : C)
  | close (client_fd : ℤ)
  | other

/-- How the registry and the log go on. -/
inductive LwsServer.Step {C : Type} [IsTcpClientInfo C] :
    Lts (LwsServer C) (LwsInput C) (Event ℕ Bytes)
  | store {server : LwsServer C} (m_run_thread : Bool) :
      LwsServer.Step server (.store m_run_thread) { server with m_run_thread } []
  | idle {server : LwsServer C} {i : LwsInput C} (h : server.handles = false)
      (hi : ∀ m_run_thread, i ≠ .store m_run_thread) : LwsServer.Step server i server []
  | announce {server : LwsServer C} {client : C} (h : server.handles = true)
      (h0 : getClientId client ≠ 0) (hnew : getClientId client ∉ clientIds server.m_client_list) :
      LwsServer.Step server (.announce client)
        { server with m_client_list := server.m_client_list ++ [client] }
        [.opened (getClientId client)]
  | close {server : LwsServer C} {client_fd : ℤ} (h : server.handles = true) :
      LwsServer.Step server (.close client_fd)
        { server with m_client_list := (removeClientInfoFd server.m_client_list client_fd).1 }
        [.closed (removeClientInfoFd server.m_client_list client_fd).2]
  | other {server : LwsServer C} {o : List (Event ℕ Bytes)} (h : server.handles = true)
      (ho : ∀ e ∈ o, ∃ id d, e = .data id d) : LwsServer.Step server .other server o

/-! ### Descriptors announced and not closed -/

/-- What can be told of a server from its inputs alone. -/
structure OpenFds where
  m_context : Bool
  m_run_thread : Bool
  fds : List ℤ
  deriving DecidableEq, Repr

/-- Whether a callback gets past the two tests, as far as the inputs tell. -/
def OpenFds.handles (t : OpenFds) : Bool :=
  t.m_context && t.m_run_thread

section OpenFds

variable {C : Type} [IsTcpClientInfo C]

/-- What an input makes of that. -/
def OpenFds.next (t : OpenFds) : LwsInput C → OpenFds
  | .store m_run_thread => { t with m_run_thread }
  | .announce client => if t.handles then { t with fds := t.fds ++ [getFd client] } else t
  | .close client_fd => if t.handles then { t with fds := t.fds.erase client_fd } else t
  | .other => t

/-- The fds announced and not closed again by the callbacks handled among `is`. -/
def openFds (m_context m_run_thread : Bool) (is : List (LwsInput C)) : OpenFds :=
  is.foldl OpenFds.next ⟨m_context, m_run_thread, []⟩

/-- Every close callback that is handled finds an fd announced and not closed since. -/
def ClosesFindClients (m_context m_run_thread : Bool) (is : List (LwsInput C)) : Prop :=
  ∀ pre client_fd post, is = pre ++ .close client_fd :: post →
    (openFds m_context m_run_thread pre).handles = true →
      client_fd ∈ (openFds m_context m_run_thread pre).fds

variable {m_context m_run_thread : Bool} {is : List (LwsInput C)} {i : LwsInput C}

/-- The next callback changes the descriptors that are open by its own effect. -/
@[simp] theorem openFds_concat :
    openFds m_context m_run_thread (is ++ [i]) =
      (openFds m_context m_run_thread is).next i := by
  simp [openFds]

/-- Without callbacks nothing has been closed. -/
theorem closesFindClients_nil :
    ClosesFindClients m_context m_run_thread ([] : List (LwsInput C)) := by
  intro pre fd post h
  simp at h

/-- The condition is decided input by input. -/
theorem closesFindClients_concat :
    ClosesFindClients m_context m_run_thread (is ++ [i]) ↔
      ClosesFindClients m_context m_run_thread is ∧
        ∀ client_fd, i = .close client_fd →
          (openFds m_context m_run_thread is).handles = true →
            client_fd ∈ (openFds m_context m_run_thread is).fds :=
  forall_split_concat (f := LwsInput.close)
    (Q := fun pre client_fd => (openFds m_context m_run_thread pre).handles = true →
      client_fd ∈ (openFds m_context m_run_thread pre).fds)

end OpenFds

/-! ### The registry and its log -/

section Registry

variable {C : Type} [IsTcpClientInfo C] {server₀ server server' : LwsServer C}
  {is : List (LwsInput C)} {i : LwsInput C} {os : List (Event ℕ Bytes)}
  {o : List (Event ℕ Bytes)}

/-- The registry holds distinct nonzero ids, and the fds that the inputs leave open. -/
structure LwsServer.Tracked (server : LwsServer C) (t : OpenFds) : Prop where
  ids_nodup : (clientIds server.m_client_list).Nodup
  zero_notMem : 0 ∉ clientIds server.m_client_list
  open_eq : t = ⟨server.m_context, server.m_run_thread, clientFds server.m_client_list⟩

/-- What the callbacks say of the context and the run flag is what the server has. -/
theorem LwsServer.Tracked.handles {t : OpenFds} (h : server.Tracked t) :
    t.handles = server.handles := by
  rw [h.open_eq]
  rfl

/-- One callback keeps the open descriptors and the client list in step. -/
theorem LwsServer.Step.tracked {t : OpenFds} (h : server.Tracked t)
    (ht : LwsServer.Step server i server' o) : server'.Tracked (t.next i) := by
  have hh := h.handles
  obtain ⟨hnd, h0, rfl⟩ := h
  cases ht with
  | store m_run_thread => exact ⟨hnd, h0, rfl⟩
  | idle hg hi =>
      refine ⟨hnd, h0, ?_⟩
      cases i with
      | store m_run_thread => exact absurd rfl (hi m_run_thread)
      | announce client => simp [OpenFds.next, hh, hg]
      | close client_fd => simp [OpenFds.next, hh, hg]
      | other => rfl
  | announce hg hne hnew =>
      refine ⟨Keyed.nodup_map_concat hnd hnew, ?_, ?_⟩
      · simpa [Ne.symm hne] using h0
      · simp [OpenFds.next, hh, hg]
  | close hg =>
      refine ⟨nodup_clientIds_removeClientInfoFd hnd, ?_, ?_⟩
      · exact fun hm => h0 ((removeClientInfoFd_sublist.map _).subset hm)
      · simp [OpenFds.next, hh, hg, clientFds_removeClientInfoFd hnd]
  | other hg ho => exact ⟨hnd, h0, rfl⟩

/-- Along every run from an empty registry, `openFds` of the inputs is what the registry
holds. -/
theorem LwsServer.run_tracked (h0 : server₀.m_client_list = [])
    (h : Run LwsServer.Step server₀ is os server) :
    server.Tracked (openFds server₀.m_context server₀.m_run_thread is) := by
  refine h.invariant (P := fun is _ s =>
    s.Tracked (openFds server₀.m_context server₀.m_run_thread is)) ?_ ?_
  · exact ⟨by simp [h0], by simp [h0], by simp [h0, openFds]⟩
  · intro is os s i s' o _ ih ht
    rw [openFds_concat]
    exact ht.tracked ih

/-- **Matched disconnects, for the registry.** From an empty registry, the disconnects
reported match the clients announced exactly when every close that is handled finds a
client; and then the ids announced and not yet reported disconnected are the registered
ones. -/
theorem closesMatched_iff (h0 : server₀.m_client_list = [])
    (h : Run LwsServer.Step server₀ is os server) :
    (ClosesMatched os ↔ ClosesFindClients server₀.m_context server₀.m_run_thread is) ∧
      (ClosesMatched os → (outstanding os).Perm (clientIds server.m_client_list)) := by
  induction h with
  | start => exact ⟨iff_of_true closesMatched_nil closesFindClients_nil, by simp [h0]⟩
  | @step is os server i server' o hrun ht ih =>
      obtain ⟨ih, hperm⟩ := ih
      have htr := LwsServer.run_tracked h0 hrun
      rw [closesFindClients_concat, htr.handles]
      cases ht with
      | store m_run_thread => simpa using ⟨ih, hperm⟩
      | idle hg hi => simpa [hg] using ⟨ih, hperm⟩
      | @announce _ client hg hne hnew =>
          simp only [closesMatched_concat, outstanding_concat, reduceCtorEq, false_implies,
            implies_true, and_true, Event.effect]
          refine ⟨ih, fun hm => ?_⟩
          have := (hperm hm).cons (getClientId client)
          exact this.trans (by simpa using (List.perm_append_singleton _ _).symm)
      | @close _ client_fd hg =>
          -- both sides ask whether the fd is registered
          have hlast : ClosesMatched os →
              ((removeClientInfoFd server.m_client_list client_fd).2 ∈ outstanding os ↔
                client_fd ∈ clientFds server.m_client_list) := fun hm => by
            rw [(hperm hm).mem_iff, removeClientInfoFd_mem_iff htr.zero_notMem]
          simp only [closesMatched_concat, outstanding_concat, Event.closed.injEq,
            forall_eq', LwsInput.close.injEq, hg, forall_const, Event.effect, htr.open_eq]
          refine ⟨?_, fun hm => ?_⟩
          · rw [← ih]
            exact and_congr_right hlast
          · rw [clientIds_removeClientInfoFd htr.ids_nodup htr.zero_notMem]
            exact (hperm hm.1).erase _
      | other hg ho =>
          have hsame : (ClosesMatched (os ++ o) ↔ ClosesMatched os) ∧
              outstanding (os ++ o) = outstanding os := by
            clear hperm ih htr
            induction o using List.reverseRecOn with
            | nil => simp
            | append_singleton o e iho =>
                obtain ⟨id, d, rfl⟩ := ho e (by simp)
                obtain ⟨h1, h2⟩ := iho fun e he => ho e (by simp [he])
                rw [← List.append_assoc, closesMatched_concat, outstanding_concat, h1, h2]
                simp [Event.effect]
          simpa [hsame.1, hsame.2] using ⟨ih, hperm⟩

end Registry

/-! ### The two servers -/

/-- What an lws server takes: a callback, or a store to its flag by `start`'s worker or by
`stop`. -/
inductive ServerInput (CB : Type)
  | callback (cb : CB)
  | store (m_run_thread : Bool)
  deriving DecidableEq, Repr

/-- A server with stores to its flag between the callbacks. -/
def withStores {S CB : Type} (T : Lts S CB Notification) (store : S → Bool → S) :
    Lts S (ServerInput CB) Notification :=
  fun server i server' o =>
    match i with
    | .callback cb => T server cb server' o
    | .store m_run_thread => server' = store server m_run_thread ∧ o = []

/-- A run of callbacks is one of the server whose run flag nobody stores to. -/
theorem run_withStores {S CB : Type} {T : Lts S CB Notification} {store : S → Bool → S}
    {server₀ server : S} {cbs : List CB} {os : List Notification}
    (h : Run T server₀ cbs os server) :
    Run (withStores T store) server₀ (cbs.map .callback) os server := by
  induction h with
  | start => exact .start
  | step _ ht ih =>
      rw [List.map_append]
      exact ih.step ht

/-- The http server driven by its callbacks and by stores to its flag. -/
def HttpTcpServer.Driven : Lts HttpTcpServer (ServerInput HttpCallback) Notification :=
  withStores HttpTcpServer.Step fun server m_run_thread => { server with m_run_thread }

/-- The WebSocket server driven so. -/
def WebSocketTcpServer.Driven :
    Lts WebSocketTcpServer (ServerInput WebSocketCallback) Notification :=
  withStores WebSocketTcpServer.Step fun server m_run_thread => { server with m_run_thread }

/-- What the http server keeps of its clients. -/
def HttpTcpServer.lws (server : HttpTcpServer) : LwsServer HttpTcpClientInfo :=
  { m_context := server.m_context, m_run_thread := server.m_run_thread,
    m_client_list := server.m_client_list }

/-- What the WebSocket server keeps of them. -/
def WebSocketTcpServer.lws (server : WebSocketTcpServer) :
    LwsServer WebSocketTcpClientInfo :=
  { m_context := server.m_context, m_run_thread := server.m_run_thread,
    m_client_list := server.m_client_list }

/-- `LWS_CALLBACK_SERVER_NEW_CLIENT_INSTANTIATED` announces a client,
`LWS_CALLBACK_CLOSED_HTTP` and `LWS_CALLBACK_DEL_POLL_FD` close one. -/
def HttpCallback.lws : ServerInput HttpCallback → LwsInput HttpTcpClientInfo
  | .store m_run_thread => .store m_run_thread
  | .callback ⟨m_wsi, client_fd, reason⟩ =>
      match reason with
      | .serverNewClientInstantiated m_client_id =>
          .announce { m_tcp := true, m_client_id, m_fd := client_fd, m_wsi }
      | .closedHttp => .close client_fd
      | .delPollFd => .close client_fd
      | _ => .other

/-- `LWS_CALLBACK_ESTABLISHED` announces a client, `LWS_CALLBACK_CLOSED` and
`LWS_CALLBACK_DEL_POLL_FD` close one. -/
def WebSocketCallback.lws : ServerInput WebSocketCallback → LwsInput WebSocketTcpClientInfo
  | .store m_run_thread => .store m_run_thread
  | .callback ⟨m_wsi, client_fd, reason⟩ =>
      match reason with
      | .established m_client_id uri =>
          .announce
            { m_tcp := true, m_client_id, m_fd := client_fd, m_wsi,
              m_protocol := (getProtocolFromHeader uri).getD [] }
      | .closed => .close client_fd
      | .delPollFd => .close client_fd
      | _ => .other

/-- Each step of `HttpTcpServer` is a step of the registry. -/
theorem HttpTcpServer.driven_simulates {server server' : HttpTcpServer}
    {i : ServerInput HttpCallback} {o : List Notification}
    (h : HttpTcpServer.Driven server i server' o) :
    LwsServer.Step server.lws (HttpCallback.lws i) server'.lws (o.map Notification.event) := by
  rcases i with ⟨wsi, client_fd, reason⟩ | m_run_thread
  · obtain ⟨hfresh, h⟩ := h
    rcases callbackHttp_cases h with ⟨hg, he⟩ | ⟨hg, rfl, rfl⟩
    · cases he with
      | connected m_client_id hr =>
          obtain rfl : reason = _ := hr
          obtain ⟨h0, hnew⟩ := hfresh m_client_id rfl
          exact .announce hg h0 hnew
      | closed hr =>
          cases reason <;> simp only [HttpReason.isClose, Bool.false_eq_true] at hr <;>
            exact .close hg
      | request hr =>
          obtain rfl : reason = _ := hr
          exact .other hg (by simp)
      | body b hr =>
          obtain rfl : reason = _ := hr
          exact .other hg (by simp)
      | completion client hr _ =>
          obtain rfl : reason = _ := hr
          exact .other hg (by simp [Notification.event])
      | silent hr =>
          have hi : HttpCallback.lws (.callback ⟨wsi, client_fd, reason⟩) = .other := by
            rcases hr with hr | hr | hr | ⟨n, hr⟩ <;> obtain rfl : reason = _ := hr <;> rfl
          rw [hi]
          exact .other hg (by simp)
    · refine .idle hg fun m_run_thread => ?_
      cases reason <;> simp [HttpCallback.lws]
  · obtain ⟨rfl, rfl⟩ := h
    exact .store m_run_thread

/-- Each step of `WebSocketTcpServer` is a step of the registry. -/
theorem WebSocketTcpServer.driven_simulates {server server' : WebSocketTcpServer}
    {i : ServerInput WebSocketCallback} {o : List Notification}
    (h : WebSocketTcpServer.Driven server i server' o) :
    LwsServer.Step server.lws (WebSocketCallback.lws i) server'.lws
      (o.map Notification.event) := by
  rcases i with ⟨wsi, client_fd, reason⟩ | m_run_thread
  · obtain ⟨hfresh, h⟩ := h
    rcases callbackWebSocket_cases h with ⟨hg, he⟩ | ⟨hg, rfl, rfl⟩
    · cases he with
      | connected m_client_id uri m_protocol hr hp =>
          obtain rfl : reason = _ := hr
          obtain ⟨h0, hnew⟩ := hfresh m_client_id rfl
          have hi : WebSocketCallback.lws
              (.callback ⟨wsi, client_fd, .established m_client_id uri⟩) =
              .announce { m_tcp := true, m_client_id, m_fd := client_fd, m_wsi := wsi,
                          m_protocol } := by
            simp [WebSocketCallback.lws, hp]
          rw [hi]
          exact .announce hg h0 hnew
      | received msg client hr hc =>
          obtain rfl : reason = _ := hr
          exact .other hg (by simp [Notification.event])
      | closed hr =>
          cases reason <;> simp only [WebSocketReason.isClose, Bool.false_eq_true] at hr <;>
            exact .close hg
      | silent hc hn =>
          have hi : WebSocketCallback.lws (.callback ⟨wsi, client_fd, reason⟩) = .other := by
            cases reason <;>
              simp_all [WebSocketReason.isClose, WebSocketReason.newClientId] <;> rfl
          rw [hi]
          exact .other hg (by simp)
    · refine .idle hg fun m_run_thread => ?_
      cases reason <;> simp [WebSocketCallback.lws]
  · obtain ⟨rfl, rfl⟩ := h
    exact .store m_run_thread

/-- **When disconnects are reported for connected clients only.** For either server and
every sequence of callbacks from an empty registry, every `onClientDisconnected` names a
client announced and not yet reported disconnected exactly when every close callback that
is handled finds an fd announced and not closed since. -/
theorem disconnects_matched_iff (os : List Notification) :
    (∀ (server₀ server : HttpTcpServer) (is : List (ServerInput HttpCallback)),
      server₀.m_client_list = [] →
      Run HttpTcpServer.Driven server₀ is os server →
      (ClosesMatched (os.map Notification.event) ↔
        ClosesFindClients server₀.m_context server₀.m_run_thread (is.map HttpCallback.lws))) ∧
    (∀ (server₀ server : WebSocketTcpServer) (is : List (ServerInput WebSocketCallback)),
      server₀.m_client_list = [] →
      Run WebSocketTcpServer.Driven server₀ is os server →
      (ClosesMatched (os.map Notification.event) ↔
        ClosesFindClients server₀.m_context server₀.m_run_thread
          (is.map WebSocketCallback.lws))) := by
  constructor
  · intro server₀ server is h0 hrun
    exact (closesMatched_iff h0
      (hrun.simulate _ _ _ fun h => HttpTcpServer.driven_simulates h)).1
  · intro server₀ server is h0 hrun
    exact (closesMatched_iff h0
      (hrun.simulate _ _ _ fun h => WebSocketTcpServer.driven_simulates h)).1

/-- A running WebSocket server without clients. -/
def webSocketServer : WebSocketTcpServer :=
  { m_server_id := 2, m_context := true, m_run_thread := true, m_client_list := [] }

/-- One client that connects and goes. -/
def oneSession : List WebSocketCallback :=
  [⟨0, 5, .established 16 [47, 97]⟩, ⟨0, 5, .closed⟩]

/-- A client connects and leaves again. -/
theorem oneSession_run :
    Run WebSocketTcpServer.Step webSocketServer oneSession
      [.onClientConnected 2 16, .onClientDisconnected 2 16] webSocketServer :=
  run_guarded_of_exec rfl

/-- The disconnect of that client is matched with its connect. -/
theorem disconnects_matched_iff_oneSession :
    ClosesMatched ([Notification.onClientConnected 2 16, .onClientDisconnected 2 16].map
        Notification.event) ↔
      ClosesFindClients true true
        ((oneSession.map ServerInput.callback).map WebSocketCallback.lws) :=
  (disconnects_matched_iff _).2 webSocketServer _ _ rfl (run_withStores oneSession_run)

/-- Both close callbacks of one connection, as libwebsockets makes them. -/
def closedTwice : List WebSocketCallback :=
  oneSession ++ [⟨0, 5, .delPollFd⟩]

/-- The second close callback of a connection reports client `0`. -/
theorem closedTwice_unmatched :
    ∃ os server, Run WebSocketTcpServer.Driven webSocketServer
        (closedTwice.map ServerInput.callback) os server ∧
      Notification.onClientDisconnected 2 0 ∈ os ∧
      ¬ ClosesMatched (os.map Notification.event) := by
  have hlast : Run WebSocketTcpServer.Step webSocketServer [⟨0, 5, .delPollFd⟩]
      [.onClientDisconnected 2 0] webSocketServer := run_guarded_of_exec rfl
  refine ⟨_, _, run_withStores (oneSession_run.append hlast), by decide, fun h => ?_⟩
  exact absurd (h [.opened 16, .closed 16] 0 [] rfl) (by decide)

end AnyServer
