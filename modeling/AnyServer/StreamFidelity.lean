import AnyServer.EpollServer

/-!
# TCP Streams through Reused Descriptors

The loop of the epoll servers finds the client of an event by its fd number, in a list
that it adds to at every `accept` and removes from at every close, while the kernel hands
the numbers out again. This module shows that the numbers never mislead it: what the
listeners are told about each accepted connection is that connection's own story.

Two invariants carry the proof. `Tables` says that registry and kernel agree in every
state of the loop: the open connections are registered under their fds, each once, and
every event of a batch still to be handled is for the listening socket or an open
connection, because only the event's own handling closes an fd. `Sessions` says that the
story told so far of each connection (`Session.Logs`) is live exactly while the connection
is registered.

A call of `accept` that fails is also reported as a connected client, with fd `-1`. It
takes a connection number of its own, and nothing is ever read from it.

## Main results

* `Tables.step` / `Sessions.step`: the two invariants are kept by every step.
* `stream_fidelity`: along every run, each connection's notifications are one connect, its
  data in order, and at most one disconnect, under one id; the data are the bytes read.
-/

namespace AnyServer

open Lts Session

/-! ### What is observed of a connection -/

/-- The notifications made, each with the connection that caused it. -/
def notifications (os : List EpollObs) : List (Option ℕ × Event ℕ Bytes) :=
  os.filterMap fun o =>
    match o with
    | .notify conn n => some (conn, n.event)
    | .read _ _ => none

/-- What the listeners were told because of connection `k`. -/
def connectionLog (k : ℕ) (os : List EpollObs) : List (Event ℕ Bytes) :=
  Session.of (some k) (notifications os)

/-- The bytes read from connection `k`. -/
def bytesRead (k : ℕ) (os : List EpollObs) : Bytes :=
  os.flatMap fun o =>
    match o with
    | .read conn bs => if conn = some k then bs else []
    | .notify _ _ => []

/-- The reports of two parts are those of the one and then the other. -/
@[simp] theorem notifications_append (os o : List EpollObs) :
    notifications (os ++ o) = notifications os ++ notifications o := by
  simp [notifications]

/-- So are the bytes read. -/
@[simp] theorem bytesRead_append (k : ℕ) (os o : List EpollObs) :
    bytesRead k (os ++ o) = bytesRead k os ++ bytesRead k o := by
  simp [bytesRead]

/-! ### Registry and kernel agree -/

/-- The events of a batch that are still to be handled. -/
def EpollPc.events : EpollPc → List ℤ
  | .batch events => events
  | _ => []

/-- Registry, kernel and batch agree. -/
structure Tables (w : EpollWorker) : Prop where
  ids_nodup : (clientIds w.server.m_client_list).Nodup
  zero_notMem : 0 ∉ clientIds w.server.m_client_list
  registered_open : ∀ c ∈ w.server.m_client_list, 0 ≤ c.m_fd →
    (w.kernel.conn c.m_fd).isSome
  open_registered : ∀ fd k, w.kernel.conn fd = some k →
    ∃ c ∈ w.server.m_client_list, c.m_fd = fd
  fds_inj : ∀ c ∈ w.server.m_client_list, ∀ c' ∈ w.server.m_client_list, 0 ≤ c.m_fd →
    c.m_fd = c'.m_fd → c = c'
  conn_nonneg : ∀ fd k, w.kernel.conn fd = some k → 0 ≤ fd
  conn_lt : ∀ fd k, w.kernel.conn fd = some k → k < w.kernel.accepts
  server_fd : w.kernel.conn w.server.m_server_fd = none
  interest : ∀ fd ∈ w.kernel.interest,
    fd = w.server.m_server_fd ∨ (w.kernel.conn fd).isSome
  events_nodup : w.pc.events.Nodup
  events_open : ∀ fd ∈ w.pc.events,
    fd = w.server.m_server_fd ∨ (w.kernel.conn fd).isSome

/-- How the story of each connection stands. -/
structure Sessions (w : EpollWorker) (σ : Option ℕ → State ℕ Bytes) : Prop where
  live_registered : ∀ k id ds, σ k = .live id ds → id ∈ clientIds w.server.m_client_list
  open_live : ∀ c ∈ w.server.m_client_list, ∀ k, w.kernel.conn c.m_fd = some k →
    ∃ ds, σ (some k) = .live c.m_client_id ds
  unused : ∀ k, w.kernel.accepts ≤ k → σ (some k) = .idle
  used : ∀ k < w.kernel.accepts, σ (some k) ≠ .idle
  none_idle : σ none = .idle

/-- What was delivered of each connection is what was read from it. -/
structure Delivered (os : List EpollObs) (σ : Option ℕ → State ℕ Bytes) : Prop where
  flatten : ∀ k, (σ (some k)).data.flatten = bytesRead k os
  length : ∀ k, ∀ d ∈ (σ (some k)).data, 1 ≤ d.length ∧ d.length ≤ BUFFER_LENGTH

section Tables

variable {w w' : EpollWorker} {fd : ℤ} {events : List ℤ} {sys : SysResults}

/-- Without clients and connections the tables agree. -/
theorem EpollWorker.Initial.tables (h : w.Initial) : Tables w := by
  obtain ⟨hpc, hfd, hl, hconn, hint, hacc⟩ := h
  constructor <;> simp [hl, hconn, hint, hpc, EpollPc.events]

/-- The client that an event's fd is looked up for. -/
theorem Tables.find (h : Tables w) {k : ℕ} (hk : w.kernel.conn fd = some k) :
    ∃ c ∈ w.server.m_client_list, c.m_fd = fd ∧
      findClientInfoFd w.server.m_client_list fd = some c := by
  obtain ⟨c, hc, hfd⟩ := h.open_registered fd k hk
  have hmem : fd ∈ clientFds w.server.m_client_list := List.mem_map.mpr ⟨c, hc, hfd⟩
  obtain ⟨c', hc'⟩ := Option.isSome_iff_exists.mp (findClientInfoFd_isSome_iff.mpr hmem)
  exact ⟨c', Keyed.mem_of_find hc', Keyed.key_of_find hc', hc'⟩

/-- Closing the listening socket closes no connection. -/
theorem Tables.conn_close_server_fd (h : Tables w) :
    (w.kernel.close w.server.m_server_fd).conn = w.kernel.conn := by
  simp [Kernel.close, Function.update_eq_self_iff, h.server_fd]

/-- Two registered clients with one id are the same. -/
theorem Tables.eq_of_id (h : Tables w) {c c' : TcpClientInfo}
    (hc : c ∈ w.server.m_client_list) (hc' : c' ∈ w.server.m_client_list)
    (hid : c.m_client_id = c'.m_client_id) : c = c' :=
  List.inj_on_of_nodup_map h.ids_nodup hc hc' hid

/-- A step that leaves registry and connections alone keeps the tables. -/
theorem Tables.of_same (h : Tables w) (hl : w'.server.m_client_list = w.server.m_client_list)
    (hfd : w'.server.m_server_fd = w.server.m_server_fd) (hconn : w'.kernel.conn = w.kernel.conn)
    (hacc : w'.kernel.accepts = w.kernel.accepts)
    (hint : ∀ fd ∈ w'.kernel.interest, fd ∈ w.kernel.interest)
    (hnd : w'.pc.events.Nodup)
    (hev : ∀ fd ∈ w'.pc.events, fd = w.server.m_server_fd ∨ (w.kernel.conn fd).isSome) :
    Tables w' := by
  constructor
  · rw [hl]; exact h.ids_nodup
  · rw [hl]; exact h.zero_notMem
  · rw [hl, hconn]; exact h.registered_open
  · rw [hl, hconn]; exact h.open_registered
  · rw [hl]; exact h.fds_inj
  · rw [hconn]; exact h.conn_nonneg
  · rw [hconn, hacc]; exact h.conn_lt
  · rw [hfd, hconn]; exact h.server_fd
  · rw [hfd, hconn]; exact fun fd hfd => h.interest fd (hint fd hfd)
  · exact hnd
  · rw [hfd, hconn]; exact hev

/-- What `accept` returns names no open connection. -/
theorem Tables.accept_free (h : Tables w) (hfd : fd = w.server.m_server_fd)
    (hl : sys.Legal w fd) : w.kernel.conn sys.accept = none := by
  rcases hl.accept hfd with ⟨hneg, -⟩ | ⟨-, hnone, -⟩
  · cases hc : w.kernel.conn sys.accept with
    | none => rfl
    | some k =>
        have := h.conn_nonneg _ k hc
        omega
  · exact hnone

/-- What `accept` returns is the fd of no registered client. -/
theorem Tables.accept_ne (h : Tables w) (hfd : fd = w.server.m_server_fd) (hl : sys.Legal w fd)
    {c : TcpClientInfo} (hc : c ∈ w.server.m_client_list) (hpos : 0 ≤ c.m_fd) :
    c.m_fd ≠ sys.accept := by
  intro heq
  have hopen := h.registered_open c hc hpos
  rw [heq, h.accept_free hfd hl] at hopen
  cases hopen

/-- An accepted connection, or a failed call of `accept`, is registered. -/
theorem Tables.accepted (h : Tables w) (hpc : w.pc = .batch (fd :: events))
    (hfd : fd = w.server.m_server_fd) (hl : sys.Legal w fd) :
    Tables
      { server := { w.server with
          m_client_list := w.server.m_client_list ++
            [{ m_tcp := true, m_client_id := sys.m_client_id, m_fd := sys.accept }] }
        kernel := (w.kernel.accept sys.accept).epollCtlAdd sys.accept sys.epoll_ctl
        pc := .batch events } := by
  obtain ⟨hid0, hidnew⟩ := hl.client_id hfd
  have hacc := hl.accept hfd
  have hfree := h.accept_free hfd hl
  have hkeep : ∀ fd, (w.kernel.conn fd).isSome →
      ((w.kernel.accept sys.accept).conn fd).isSome := by
    intro fd hs
    obtain ⟨k, hk⟩ := Option.isSome_iff_exists.mp hs
    rw [Kernel.conn_accept_of_some hfree hk]
    rfl
  have hevents : ∀ fd ∈ events, fd ∈ w.pc.events := fun fd hfd => by
    rw [hpc]; exact List.mem_cons_of_mem _ hfd
  constructor
  · exact Keyed.nodup_map_concat h.ids_nodup hidnew
  · rw [clientIds_concat]
    intro hm
    rcases List.mem_append.mp hm with hm | hm
    · exact h.zero_notMem hm
    · exact hid0 (List.mem_singleton.mp hm).symm
  · intro c hc hpos
    rw [Kernel.conn_epollCtlAdd]
    rcases List.mem_append.mp hc with hc | hc
    · exact hkeep _ (h.registered_open c hc hpos)
    · obtain rfl := List.mem_singleton.mp hc
      rw [Kernel.conn_accept_self hpos]
      rfl
  · intro fd k hk
    rw [Kernel.conn_epollCtlAdd] at hk
    rcases Kernel.conn_accept_cases hk with hk | ⟨rfl, -, -⟩
    · obtain ⟨c, hc, hcfd⟩ := h.open_registered fd k hk
      exact ⟨c, List.mem_append_left _ hc, hcfd⟩
    · exact ⟨_, List.mem_append_right _ (List.mem_singleton_self _), rfl⟩
  · intro c hc c' hc' hpos heq
    rcases List.mem_append.mp hc with hc | hc <;> rcases List.mem_append.mp hc' with hc' | hc'
    · exact h.fds_inj c hc c' hc' hpos heq
    · obtain rfl := List.mem_singleton.mp hc'
      exact absurd heq (h.accept_ne hfd hl hc hpos)
    · obtain rfl := List.mem_singleton.mp hc
      exact absurd heq.symm (h.accept_ne hfd hl hc' (heq ▸ hpos))
    · rw [List.mem_singleton.mp hc, List.mem_singleton.mp hc']
  · intro fd k hk
    rw [Kernel.conn_epollCtlAdd] at hk
    rcases Kernel.conn_accept_cases hk with hk | ⟨-, hpos, -⟩
    · exact h.conn_nonneg fd k hk
    · exact hpos
  · intro fd k hk
    rw [Kernel.conn_epollCtlAdd] at hk
    rw [Kernel.accepts_epollCtlAdd, Kernel.accepts_accept]
    rcases Kernel.conn_accept_cases hk with hk | ⟨-, -, rfl⟩
    · have := h.conn_lt fd k hk
      omega
    · omega
  · rw [Kernel.conn_epollCtlAdd]
    rcases hacc with ⟨hneg, -⟩ | ⟨-, -, hne⟩
    · rw [Kernel.conn_accept_of_neg (by omega)]
      exact h.server_fd
    · rw [Kernel.conn_accept_of_ne (Ne.symm hne)]
      exact h.server_fd
  · intro fd hfd
    rw [Kernel.conn_epollCtlAdd]
    rcases Kernel.mem_interest_epollCtlAdd hfd with hfd | ⟨hok, rfl⟩
    · exact (h.interest fd hfd).imp_right (hkeep fd)
    · rcases hacc with ⟨-, hno⟩ | ⟨hpos, -, -⟩
      · simp [hno] at hok
      · exact .inr (by rw [Kernel.conn_accept_self hpos]; rfl)
  · have := h.events_nodup
    rw [hpc] at this
    exact (List.nodup_cons.mp this).2
  · intro fd hfd
    rw [Kernel.conn_epollCtlAdd]
    exact (h.events_open fd (hevents fd hfd)).imp_right (hkeep fd)

/-- The client of an event that ends in a close. -/
theorem Tables.remove (h : Tables w) {k : ℕ} (hk : w.kernel.conn fd = some k) :
    ∃ c ∈ w.server.m_client_list, c.m_fd = fd ∧
      removeClientInfoFd w.server.m_client_list fd =
        (Keyed.remove getClientId w.server.m_client_list c.m_client_id, c.m_client_id) := by
  obtain ⟨c, hc, hfd, hfind⟩ := h.find hk
  have hmem : fd ∈ clientFds w.server.m_client_list := List.mem_map.mpr ⟨c, hc, hfd⟩
  obtain ⟨c', hc', hr⟩ := removeClientInfoFd_present hmem
  obtain rfl : c = c' := Option.some.inj (hfind.symm.trans hc')
  exact ⟨c, hc, hfd, hr⟩

/-- A closed connection is gone from registry and kernel. -/
theorem Tables.disconnected (h : Tables w) (hpc : w.pc = .batch (fd :: events))
    (hfd : fd ≠ w.server.m_server_fd) {k : ℕ} (hk : w.kernel.conn fd = some k) {ok : Bool} :
    Tables
      { server := { w.server with
          m_client_list := (removeClientInfoFd w.server.m_client_list fd).1 }
        kernel := (w.kernel.epollCtlDel fd ok).close fd
        pc := .batch events } := by
  obtain ⟨c, hc, hcfd, hr⟩ := h.remove hk
  have hpos := h.conn_nonneg fd k hk
  rw [hr]
  have hevents := h.events_nodup
  rw [hpc] at hevents
  obtain ⟨hnotin, hnd⟩ := List.nodup_cons.mp hevents
  -- whoever stays registered has another fd, if any
  have hother : ∀ c' ∈ w.server.m_client_list, c'.m_client_id ≠ c.m_client_id →
      c'.m_fd ≠ fd := by
    intro c' hc' hid heq
    have := h.fds_inj c hc c' hc' (by omega) (by omega)
    exact hid (by rw [this])
  have hback : ∀ fd' k', ((w.kernel.epollCtlDel fd ok).close fd).conn fd' = some k' →
      fd' ≠ fd ∧ w.kernel.conn fd' = some k' := by
    intro fd' k' hk'
    have hopen := Kernel.conn_close_cases hk'
    rwa [Kernel.conn_epollCtlDel] at hopen
  constructor
  · exact Keyed.nodup_map_remove h.ids_nodup
  · exact fun hm => h.zero_notMem ((Keyed.remove_sublist.map _).subset hm)
  · intro c' hc' hpos'
    obtain ⟨hmem, hid⟩ := Keyed.mem_remove.mp hc'
    show (((w.kernel.epollCtlDel fd ok).close fd).conn c'.m_fd).isSome
    rw [Kernel.conn_epollCtlDel_close_of_ne (hother c' hmem hid)]
    exact h.registered_open c' hmem hpos'
  · intro fd' k' hk'
    obtain ⟨hne, hk'⟩ := hback fd' k' hk'
    obtain ⟨c', hc', hc'fd⟩ := h.open_registered fd' k' hk'
    refine ⟨c', Keyed.mem_remove.mpr ⟨hc', fun hid => ?_⟩, hc'fd⟩
    rw [h.eq_of_id hc' hc hid] at hc'fd
    exact hne (hc'fd.symm.trans hcfd)
  · intro c₁ hc₁ c₂ hc₂
    exact h.fds_inj c₁ (Keyed.mem_remove.mp hc₁).1 c₂ (Keyed.mem_remove.mp hc₂).1
  · exact fun fd' k' hk' => h.conn_nonneg fd' k' (hback fd' k' hk').2
  · intro fd' k' hk'
    rw [Kernel.accepts_close, Kernel.accepts_epollCtlDel]
    exact h.conn_lt fd' k' (hback fd' k' hk').2
  · show ((w.kernel.epollCtlDel fd ok).close fd).conn w.server.m_server_fd = none
    rw [Kernel.conn_epollCtlDel_close_of_ne (Ne.symm hfd)]
    exact h.server_fd
  · intro fd' hfd'
    obtain ⟨hmem, hne⟩ := Kernel.mem_interest_close hfd'
    show _ ∨ (((w.kernel.epollCtlDel fd ok).close fd).conn fd').isSome
    rw [Kernel.conn_epollCtlDel_close_of_ne hne]
    exact h.interest fd' (Kernel.mem_interest_epollCtlDel hmem)
  · exact hnd
  · intro fd' hfd'
    have hne : fd' ≠ fd := by
      rintro rfl
      exact hnotin hfd'
    show _ ∨ (((w.kernel.epollCtlDel fd ok).close fd).conn fd').isSome
    rw [Kernel.conn_epollCtlDel_close_of_ne hne]
    exact h.events_open fd' (by rw [hpc]; exact List.mem_cons_of_mem _ hfd')

/-- The connection of an event that is not for the listening socket. -/
theorem Tables.event_conn (h : Tables w) (hpc : w.pc = .batch (fd :: events))
    (hfd : fd ≠ w.server.m_server_fd) : ∃ k, w.kernel.conn fd = some k := by
  have := h.events_open fd (by rw [hpc]; exact List.mem_cons_self)
  exact Option.isSome_iff_exists.mp (this.resolve_left hfd)

/-- **The tables are kept by every step.** -/
theorem Tables.step {kind : EpollKind} {i : EpollInput} {o : List EpollObs} (h : Tables w)
    (ht : EpollWorker.Step kind w i w' o) : Tables w' := by
  cases ht with
  | store b =>
      exact h.of_same rfl rfl rfl rfl (fun _ hfd => hfd) h.events_nodup h.events_open
  | entry hpc =>
      exact h.of_same rfl rfl rfl rfl (fun _ hfd => hfd) .nil (by simp [EpollPc.events])
  | enter hpc hr =>
      exact h.of_same rfl rfl rfl rfl (fun _ hfd => hfd) .nil (by simp [EpollPc.events])
  | leave hpc hr =>
      refine h.of_same rfl rfl ?_ ?_ ?_ .nil (by simp [EpollPc.events])
      · cases kind with
        | inet => exact h.conn_close_server_fd
        | unix => rfl
      · cases kind <;> rfl
      · intro fd hfd
        cases kind with
        | inet => exact (Kernel.mem_interest_close hfd).1
        | unix => exact hfd
  | wait events hpc hl =>
      exact h.of_same rfl rfl rfl rfl (fun _ hfd => hfd) hl.nodup
        fun fd hfd => h.interest fd (hl.registered fd hfd)
  | handle sys hpc hl hs =>
      cases handleEvent_effect hs with
      | accepted hfd => exact h.accepted hpc hfd hl
      | disconnected hfd hread =>
          obtain ⟨k, hk⟩ := h.event_conn hpc hfd
          exact h.disconnected hpc hfd hk
      | received bs client hfd hread hbs hc =>
          have hnd := h.events_nodup
          rw [hpc] at hnd
          refine h.of_same rfl rfl rfl rfl (fun _ hfd => hfd) (List.nodup_cons.mp hnd).2 ?_
          exact fun fd hfd => h.events_open fd (by rw [hpc]; exact List.mem_cons_of_mem _ hfd)
  | again hpc =>
      exact h.of_same rfl rfl rfl rfl (fun _ hfd => hfd) .nil (by simp [EpollPc.events])

/-- A client that is looked up is found. -/
theorem Tables.handleEvent_isSome (h : Tables w) (hpc : w.pc = .batch (fd :: events)) :
    (handleEvent w.server w.kernel fd sys).isSome := by
  refine AnyServer.handleEvent_isSome ?_
  by_cases hfd : fd = w.server.m_server_fd
  · exact .inl hfd
  · obtain ⟨k, hk⟩ := h.event_conn hpc hfd
    obtain ⟨c, hc, hcfd⟩ := h.open_registered fd k hk
    exact .inr (List.mem_map.mpr ⟨c, hc, hcfd⟩)

end Tables

/-! ### The story of each connection -/

section Sessions

variable {w : EpollWorker} {σ : Option ℕ → State ℕ Bytes} {fd : ℤ} {events : List ℤ}
  {sys : SysResults} {os : List EpollObs} {log : List (Option ℕ × Event ℕ Bytes)}

/-- Every connection is idle at the start. -/
theorem EpollWorker.Initial.sessions (h : w.Initial) : Sessions w fun _ => .idle := by
  constructor <;> simp [h.client_list, h.accepts]

/-- Nothing has been delivered of nothing. -/
theorem Delivered.nil : Delivered [] fun _ => .idle := by
  constructor <;> simp [State.data, bytesRead]

/-- A step that leaves registry and connections alone keeps the stories. -/
theorem Sessions.of_same {w' : EpollWorker} (hs : Sessions w σ)
    (hl : w'.server.m_client_list = w.server.m_client_list)
    (hconn : w'.kernel.conn = w.kernel.conn) (hacc : w'.kernel.accepts = w.kernel.accepts) :
    Sessions w' σ := by
  constructor
  · rw [hl]; exact hs.live_registered
  · rw [hl, hconn]; exact hs.open_live
  · rw [hacc]; exact hs.unused
  · rw [hacc]; exact hs.used
  · exact hs.none_idle

/-- `accept` opens the story of a new connection. -/
theorem Sessions.accepted (h : Tables w) (hs : Sessions w σ) (hfd : fd = w.server.m_server_fd)
    (hl : sys.Legal w fd) {pc : EpollPc} :
    Sessions
      { server := { w.server with
          m_client_list := w.server.m_client_list ++
            [{ m_tcp := true, m_client_id := sys.m_client_id, m_fd := sys.accept }] }
        kernel := (w.kernel.accept sys.accept).epollCtlAdd sys.accept sys.epoll_ctl
        pc }
      (Function.update σ (some w.kernel.accepts) (.live sys.m_client_id [])) := by
  have hfree := h.accept_free hfd hl
  constructor
  · intro k id ds hk
    rw [clientIds_concat]
    by_cases hka : k = some w.kernel.accepts
    · subst hka
      rw [Function.update_self] at hk
      obtain ⟨rfl, -⟩ := State.live.inj hk
      exact List.mem_append_right _ (List.mem_singleton_self _)
    · rw [Function.update_of_ne hka] at hk
      exact List.mem_append_left _ (hs.live_registered k id ds hk)
  · intro c hc k hk
    rw [Kernel.conn_epollCtlAdd] at hk
    rcases List.mem_append.mp hc with hc | hc
    · rcases Kernel.conn_accept_cases hk with hk | ⟨heq, hpos, -⟩
      · have hlt := h.conn_lt _ k hk
        rw [Function.update_of_ne (by simp only [ne_eq, Option.some.injEq]; omega)]
        exact hs.open_live c hc k hk
      · exact absurd heq (h.accept_ne hfd hl hc hpos)
    · obtain rfl := List.mem_singleton.mp hc
      rcases Kernel.conn_accept_cases hk with hk | ⟨-, -, rfl⟩
      · cases hfree.symm.trans hk
      · exact ⟨[], Function.update_self ..⟩
  · intro k hk
    rw [Kernel.accepts_epollCtlAdd, Kernel.accepts_accept] at hk
    rw [Function.update_of_ne (by simp only [ne_eq, Option.some.injEq]; omega)]
    exact hs.unused k (by omega)
  · intro k hk
    rw [Kernel.accepts_epollCtlAdd, Kernel.accepts_accept] at hk
    by_cases hka : k = w.kernel.accepts
    · rw [hka, Function.update_self]
      simp
    · rw [Function.update_of_ne (by simpa using hka)]
      exact hs.used k (by omega)
  · rw [Function.update_of_ne (by simp)]
    exact hs.none_idle

/-- A close ends the story of a connection. -/
theorem Sessions.disconnected (h : Tables w) (hs : Sessions w σ) (hlog : Logs log σ) {k : ℕ}
    (hk : w.kernel.conn fd = some k) {c : TcpClientInfo} {ds : List Bytes}
    (hlive : σ (some k) = .live c.m_client_id ds) {ok : Bool} {pc : EpollPc} :
    Sessions
      { server := { w.server with
          m_client_list := Keyed.remove getClientId w.server.m_client_list c.m_client_id }
        kernel := (w.kernel.epollCtlDel fd ok).close fd
        pc }
      (Function.update σ (some k) (.ended c.m_client_id ds)) := by
  have hkeys : clientIds (Keyed.remove getClientId w.server.m_client_list c.m_client_id) =
      (clientIds w.server.m_client_list).erase c.m_client_id := Keyed.map_remove h.ids_nodup
  constructor
  · intro k' id ds' hk'
    by_cases hkk : k' = some k
    · simp [hkk] at hk'
    · rw [Function.update_of_ne hkk] at hk'
      show id ∈ clientIds (Keyed.remove getClientId w.server.m_client_list c.m_client_id)
      rw [hkeys]
      refine (List.mem_erase_of_ne ?_).mpr (hs.live_registered k' id ds' hk')
      rintro rfl
      -- one id has one owner
      have h1 := hlog.owner_eq_some_iff.mpr ⟨ds', hk'⟩
      have h2 := hlog.owner_eq_some_iff.mpr ⟨ds, hlive⟩
      exact hkk (Option.some.inj (h1.symm.trans h2))
  · intro c' hc' k' hk'
    obtain ⟨hmem, hid⟩ := Keyed.mem_remove.mp hc'
    have hne : c'.m_fd ≠ fd := by
      rintro heq
      rw [heq, Kernel.conn_close_self] at hk'
      cases hk'
    rw [Kernel.conn_epollCtlDel_close_of_ne hne] at hk'
    obtain ⟨ds', hlive'⟩ := hs.open_live c' hmem k' hk'
    refine ⟨ds', ?_⟩
    rw [Function.update_of_ne, hlive']
    rintro hkk
    rw [hkk, hlive] at hlive'
    exact hid (State.live.inj hlive').1.symm
  · intro k' hk'
    rw [Kernel.accepts_close, Kernel.accepts_epollCtlDel] at hk'
    have hlt := h.conn_lt fd k hk
    rw [Function.update_of_ne (by simp only [ne_eq, Option.some.injEq]; omega)]
    exact hs.unused k' hk'
  · intro k' hk'
    rw [Kernel.accepts_close, Kernel.accepts_epollCtlDel] at hk'
    by_cases hkk : k' = k
    · rw [hkk, Function.update_self]
      simp
    · rw [Function.update_of_ne (by simpa using hkk)]
      exact hs.used k' hk'
  · rw [Function.update_of_ne (by simp)]
    exact hs.none_idle

/-- A successful read goes on with the story of a connection. -/
theorem Sessions.received (h : Tables w) (hs : Sessions w σ) {k : ℕ}
    (hk : w.kernel.conn fd = some k) {id : ℕ} {ds : List Bytes} {d : Bytes}
    (hlive : σ (some k) = .live id ds) {pc : EpollPc} :
    Sessions { w with pc } (Function.update σ (some k) (.live id (ds ++ [d]))) := by
  constructor
  · intro k' id' ds' hk'
    by_cases hkk : k' = some k
    · rw [hkk, Function.update_self] at hk'
      obtain ⟨rfl, -⟩ := State.live.inj hk'
      exact hs.live_registered _ _ _ hlive
    · rw [Function.update_of_ne hkk] at hk'
      exact hs.live_registered k' id' ds' hk'
  · intro c hc k' hk'
    obtain ⟨ds', hlive'⟩ := hs.open_live c hc k' hk'
    by_cases hkk : k' = k
    · subst hkk
      rw [hlive] at hlive'
      obtain ⟨rfl, -⟩ := State.live.inj hlive'
      exact ⟨_, Function.update_self ..⟩
    · rw [Function.update_of_ne (by simpa using hkk)]
      exact ⟨ds', hlive'⟩
  · intro k' hk'
    have hlt := h.conn_lt fd k hk
    dsimp only at hk'
    rw [Function.update_of_ne (by simp only [ne_eq, Option.some.injEq]; omega)]
    exact hs.unused k' hk'
  · intro k' hk'
    by_cases hkk : k' = k
    · rw [hkk, Function.update_self]
      simp
    · rw [Function.update_of_ne (by simpa using hkk)]
      exact hs.used k' hk'
  · rw [Function.update_of_ne (by simp)]
    exact hs.none_idle

/-- An update that keeps the data of a session keeps what was delivered. -/
theorem Delivered.update_same (hd : Delivered os σ) {k : ℕ} {s : State ℕ Bytes}
    (hs : s.data = (σ (some k)).data) {o : List EpollObs} (ho : ∀ k, bytesRead k o = []) :
    Delivered (os ++ o) (Function.update σ (some k) s) := by
  have hdata : ∀ k', (Function.update σ (some k) s (some k')).data = (σ (some k')).data := by
    intro k'
    by_cases hkk : k' = k
    · rw [hkk, Function.update_self, hs]
    · rw [Function.update_of_ne (by simpa using hkk)]
  constructor
  · intro k'
    rw [hdata, hd.flatten, bytesRead_append, ho, List.append_nil]
  · intro k'
    rw [hdata]
    exact hd.length k'

/-- Handing over what was just read keeps what was delivered. -/
theorem Delivered.received (hd : Delivered os σ) {k id : ℕ} {ds : List Bytes} {bs : Bytes}
    (hlive : σ (some k) = .live id ds) (hbs : bs ≠ []) (hle : bs.length ≤ BUFFER_LENGTH)
    {n : Notification} :
    Delivered (os ++ [.read (some k) bs, .notify (some k) n])
      (Function.update σ (some k) (.live id (ds ++ [bs]))) := by
  have hpos := List.length_pos_of_ne_nil hbs
  constructor
  · intro k'
    rw [bytesRead_append, ← hd.flatten]
    by_cases hkk : k' = k
    · subst hkk
      simp [hlive, State.data, bytesRead]
    · have hkk' : ¬ k = k' := fun he => hkk he.symm
      rw [Function.update_of_ne (by simpa using hkk)]
      simp [bytesRead, hkk']
  · intro k' d hmem
    by_cases hkk : k' = k
    · subst hkk
      rw [Function.update_self] at hmem
      rcases List.mem_append.mp hmem with hmem | hmem
      · exact hd.length k' d (by rw [hlive]; exact hmem)
      · rw [List.mem_singleton.mp hmem]
        omega
    · rw [Function.update_of_ne (by simpa using hkk)] at hmem
      exact hd.length k' d hmem

/-- The bytes that were read are at the front of the buffer. -/
theorem take_readBuffer (bs : Bytes) : (readBuffer bs).take bs.length = bs := by
  simp [readBuffer]

/-- What a state of the worker and the observations made so far say together. -/
def Story (os : List EpollObs) (w : EpollWorker) : Prop :=
  Tables w ∧ ∃ σ, Logs (notifications os) σ ∧ Sessions w σ ∧ Delivered os σ

/-- **The story is kept by every step.** -/
theorem Story.step {kind : EpollKind} {w' : EpollWorker} {i : EpollInput} {o : List EpollObs}
    (h : Story os w) (ht : EpollWorker.Step kind w i w' o) : Story (os ++ o) w' := by
  obtain ⟨htab, σ, hlog, hs, hd⟩ := h
  refine ⟨htab.step ht, ?_⟩
  cases ht with
  | handle sys hpc hl heff =>
      cases handleEvent_effect heff with
      | accepted hfd =>
          obtain ⟨-, hnew⟩ := hl.client_id hfd
          refine ⟨_, ?_, Sessions.accepted htab hs hfd hl, ?_⟩
          · rw [notifications_append]
            exact hlog.opened (hs.unused _ (Nat.le_refl _))
              fun k ds hk => hnew (hs.live_registered k _ ds hk)
          · refine hd.update_same ?_ fun k => rfl
            rw [hs.unused _ (Nat.le_refl _)]
            rfl
      | disconnected hfd hread =>
          obtain ⟨k, hk⟩ := htab.event_conn hpc hfd
          obtain ⟨c, hc, hcfd, hr⟩ := htab.remove hk
          obtain ⟨ds, hlive⟩ := hs.open_live c hc k (by rw [hcfd]; exact hk)
          rw [hr, hk]
          refine ⟨_, ?_, Sessions.disconnected htab hs hlog hk hlive, ?_⟩
          · rw [notifications_append]
            exact hlog.closed hlive
          · refine hd.update_same ?_ fun k => rfl
            rw [hlive]
            rfl
      | received bs c hfd hread hbs hfind =>
          obtain ⟨k, hk⟩ := htab.event_conn hpc hfd
          have hc := Keyed.mem_of_find hfind
          have hcfd : c.m_fd = _ := Keyed.key_of_find hfind
          obtain ⟨ds, hlive⟩ := hs.open_live c hc k (by rw [hcfd]; exact hk)
          rw [hk]
          refine ⟨_, ?_, Sessions.received htab hs hk hlive (d := bs),
            hd.received hlive hbs (hl.read hfd bs hread)⟩
          rw [notifications_append]
          have hev : notifications [.read (some k) bs, .notify (some k)
              (.onReceive w.server.m_server_id (getClientId c) (readBuffer bs) bs.length)] =
              [(some k, .data c.m_client_id bs)] := by
            simp [notifications, Notification.event, take_readBuffer, getClientId]
          rw [hev]
          exact hlog.data hlive
  | store b | entry _ | enter _ _ | wait _ _ _ | again _ =>
      exact ⟨σ, by simpa [notifications] using hlog, hs.of_same rfl rfl rfl, by simpa using hd⟩
  | leave hpc hr =>
      refine ⟨σ, by simpa [notifications] using hlog, hs.of_same rfl ?_ ?_, by simpa using hd⟩
      · cases kind with
        | inet => exact htab.conn_close_server_fd
        | unix => rfl
      · cases kind <;> rfl

/-- The story holds along every run of a worker that `start` has just created. -/
theorem story_run {kind : EpollKind} {w₀ : EpollWorker} {is : List EpollInput}
    (h₀ : w₀.Initial) (h : Run (EpollWorker.Step kind) w₀ is os w) : Story os w := by
  refine h.invariant (P := fun _ os w => Story os w) ?_ fun _ ih ht => ih.step ht
  exact ⟨h₀.tables, _, .nil, h₀.sessions, .nil⟩

/-- **TCP stream fidelity.** Along every run of the loop: the notifications that each
accepted connection causes are one connect, its data, and at most one disconnect, all under
one id; the data are between one byte and a buffer long and together are the bytes read
from the connection; nothing is reported for anything but an accepted connection; every
datum is reported under an id that its own connection holds at that moment; and no event
makes the loop go through a null client. -/
theorem stream_fidelity {kind : EpollKind} {w₀ : EpollWorker} {is : List EpollInput}
    (h₀ : w₀.Initial) (h : Run (EpollWorker.Step kind) w₀ is os w) :
    (∀ k < w.kernel.accepts, ∃ (id : ℕ) (ds : List Bytes),
      (connectionLog k os = .opened id :: ds.map (.data id) ∨
        connectionLog k os = .opened id :: ds.map (.data id) ++ [.closed id]) ∧
      (∀ d ∈ ds, 1 ≤ d.length ∧ d.length ≤ BUFFER_LENGTH) ∧
      ds.flatten = bytesRead k os) ∧
    (∀ conn e, (conn, e) ∈ notifications os → ∃ k < w.kernel.accepts, conn = some k) ∧
    (∀ pre conn id d post, notifications os = pre ++ (conn, .data id d) :: post →
      owner pre id = some conn) ∧
    (∀ fd events sys, w.pc = .batch (fd :: events) →
      (handleEvent w.server w.kernel fd sys).isSome) := by
  obtain ⟨htab, σ, hlog, hs, hd⟩ := story_run h₀ h
  refine ⟨?_, ?_, ?_, fun fd events sys hpc => htab.handleEvent_isSome hpc⟩
  · intro k hk
    have hof : connectionLog k os = (σ (some k)).log := hlog.of_eq (some k)
    have hflat := hd.flatten k
    have hlen := hd.length k
    cases hσ : σ (some k) with
    | idle => exact absurd hσ (hs.used k hk)
    | live id ds =>
        rw [hσ] at hof hflat hlen
        exact ⟨id, ds, .inl hof, hlen, hflat⟩
    | ended id ds =>
        rw [hσ] at hof hflat hlen
        exact ⟨id, ds, .inr hof, hlen, hflat⟩
  · intro conn e hmem
    -- a connection without a story has caused nothing
    have hne : σ conn ≠ .idle := by
      intro hidle
      have hof := hlog.of_eq conn
      rw [hidle] at hof
      have hin : e ∈ Session.of conn (notifications os) :=
        List.mem_map.mpr ⟨(conn, e), List.mem_filter.mpr ⟨hmem, by simp⟩, rfl⟩
      rw [hof] at hin
      cases hin
    cases conn with
    | none => exact absurd hs.none_idle hne
    | some k =>
        refine ⟨k, ?_, rfl⟩
        by_contra hk
        exact hne (hs.unused k (by omega))
  · intro pre conn id d post hsplit
    rw [hsplit] at hlog
    exact hlog.data_owner

end Sessions

/-! ### One connection -/

/-- A worker for a server that listens on fd `3`. -/
def listening : EpollWorker :=
  { server := { m_server_id := 1, m_server_fd := 3, m_run_thread := false,
                m_client_list := [] }
    kernel := { conn := fun _ => none, interest := [3], accepts := 0 }
    pc := .entry }

/-- The server listens and has no clients. -/
theorem listening_initial : listening.Initial := by
  constructor <;> first | rfl | decide

/-- Accept a connection on fd `5`, read two bytes from it, then its end. -/
theorem listening_run :
    ∃ is w, Run InetDomainSocketTcpServer.Step listening is
      [.notify (some 0) (.onClientConnected 1 16), .read (some 0) [7, 8],
        .notify (some 0) (.onReceive 1 16 (readBuffer [7, 8]) 2),
        .notify (some 0) (.onClientDisconnected 1 16)] w ∧ w.kernel.accepts = 1 := by
  have h₀ : Run InetDomainSocketTcpServer.Step listening [] [] listening := .start
  have h₁ := ((h₀.step (.entry rfl)).step (.enter rfl rfl)).step
    (.wait [3] rfl ⟨by decide, by decide, by decide⟩)
  have h₂ := h₁.step (.handle ⟨5, true, 16, none⟩ rfl
    ⟨fun _ => .inr ⟨by decide, rfl, by decide⟩, fun _ => by decide, fun h => absurd rfl h⟩ rfl)
  have h₃ := ((h₂.step (.again rfl)).step (.enter rfl rfl)).step
    (.wait [5] rfl ⟨by decide, by decide, by decide⟩)
  have h₄ := h₃.step (.handle ⟨0, true, 0, some [7, 8]⟩ rfl
    ⟨by decide, by decide, fun _ bs h => by cases h; decide⟩ rfl)
  have h₅ := ((h₄.step (.again rfl)).step (.enter rfl rfl)).step
    (.wait [5] rfl ⟨by decide, by decide, by decide⟩)
  have h₆ := h₅.step (.handle ⟨0, true, 0, some []⟩ rfl
    ⟨by decide, by decide, fun _ bs h => by cases h; decide⟩ rfl)
  exact ⟨_, _, h₆, rfl⟩

/-- A client that sends two bytes and leaves has both of them delivered. -/
theorem stream_fidelity_listening :
    ∃ ds : List Bytes, ds.flatten = bytesRead 0
      [.notify (some 0) (.onClientConnected 1 16), .read (some 0) [7, 8],
        .notify (some 0) (.onReceive 1 16 (readBuffer [7, 8]) 2),
        .notify (some 0) (.onClientDisconnected 1 16)] ∧
      ∀ d ∈ ds, 1 ≤ d.length ∧ d.length ≤ BUFFER_LENGTH := by
  obtain ⟨is, w, hrun, hacc⟩ := listening_run
  obtain ⟨id, ds, -, hlen, hflat⟩ := (stream_fidelity listening_initial hrun).1 0 (by omega)
  exact ⟨ds, hflat, hlen⟩

end AnyServer
