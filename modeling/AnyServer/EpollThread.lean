import AnyServer.EpollServer
import AnyServer.ServerLoops

/-!
# The Epoll Worker, One Call at a Time

`EpollWorker` handles an event in one step. Here every system call of `__epoll_thread__`, every
lookup and every change of the registry is a step of its own, for a server that shares its fd
numbers with other servers of the process.

A connection is known by the position of the server that has accepted it and by the number of
connections accepted before it; each client carries the connection that it was made for.

## Main results

* `EpollThread.next_effect`: what a worker's step does.
* `EpollThread.handles`: the steps of a worker put together are `handleEvent`.
-/

namespace AnyServer

open Lts

/-! ### Descriptors and the clients made for them -/

/-- A connection. -/
structure Connection where
  server : ℕ
  number : ℕ
  deriving DecidableEq, Repr

/-- The connections that fds name, and how many have been accepted. -/
structure Descriptors where
  conn : ℤ → Option Connection
  accepts : ℕ

/-- What an `accept` of the server at position `k` has accepted. -/
def Descriptors.accepted (fds : Descriptors) (k : ℕ) (client_fd : ℤ) : Option Connection :=
  if 0 ≤ client_fd then some { server := k, number := fds.accepts } else none

/-- `accept`, returning `client_fd`; a failed call is counted too. -/
def Descriptors.accept (fds : Descriptors) (k : ℕ) (client_fd : ℤ) : Descriptors :=
  { conn :=
      if 0 ≤ client_fd then Function.update fds.conn client_fd (fds.accepted k client_fd)
      else fds.conn
    accepts := fds.accepts + 1 }

/-- `close`. -/
def Descriptors.close (fds : Descriptors) (fd : ℤ) : Descriptors :=
  { fds with conn := Function.update fds.conn fd none }

/-- A client with the connection that it was made for, `none` if `accept` had failed. -/
structure ConnectedClient extends TcpClientInfo where
  conn : Option Connection
  deriving DecidableEq, Repr

instance : IsTcpClientInfo ConnectedClient where
  getClientId c := c.m_client_id
  getFd c := c.m_fd

/-! ### A worker, one call at a time -/

/-- Where `__epoll_thread__` is. In a batch, `events` are the events left after the one that is
handled. -/
inductive ThreadPc
  | entry
  | test
  | wait
  | batch (events : List ℤ)
  | accepted (client_fd : ℤ) (conn : Option Connection) (events : List ℤ)
  | added (client_fd : ℤ) (conn : Option Connection) (events : List ℤ)
  | received (fd : ℤ) (bs : Bytes) (events : List ℤ)
  | ended (fd : ℤ) (events : List ℤ)
  | deleted (fd : ℤ) (events : List ℤ)
  | closed (fd : ℤ) (events : List ℤ)
  | left
  deriving DecidableEq, Repr

/-- A server with its worker, and what its epoll instance has registered besides the listening
socket. -/
structure EpollThread where
  kind : EpollKind
  m_server_id : ℕ
  m_server_fd : ℤ
  m_run_thread : Bool
  m_client_list : List ConnectedClient
  interest : List (ℤ × Connection)
  pc : ThreadPc
  deriving DecidableEq, Repr

/-- The inet server closes its listening socket when it leaves. -/
def EpollThread.listens (t : EpollThread) : Bool :=
  t.kind = .unix || t.pc ≠ .left

/-- A step of a worker, with the result of the call that it makes, or a store to
`m_run_thread` by another thread. -/
inductive ThreadAct
  | store (m_run_thread : Bool)
  | advance
  | epollWait (events : List ℤ)
  | accept (client_fd : ℤ)
  | epollCtl (ok : Bool)
  | newClient (m_client_id : ℕ)
  | read (bs : Option Bytes)
  deriving DecidableEq, Repr

/-- `epoll_ctl` with `EPOLL_CTL_ADD`. -/
def addInterest (interest : List (ℤ × Connection)) (fd : ℤ) (ok : Bool) :
    Option Connection → List (ℤ × Connection)
  | some conn => if ok then interest ++ [(fd, conn)] else interest
  | none => interest

/-- `epoll_ctl` with `EPOLL_CTL_DEL`. -/
def deleteInterest (interest : List (ℤ × Connection)) (fd : ℤ) (ok : Bool) :
    List (ℤ × Connection) :=
  if ok then interest.filter (·.1 ≠ fd) else interest

/-- `EPOLL_CTL_ADD` adds its own descriptor and no other. -/
theorem mem_addInterest {interest : List (ℤ × Connection)} {fd : ℤ} {ok : Bool}
    {conn : Option Connection} {p : ℤ × Connection} (h : p ∈ addInterest interest fd ok conn) :
    p ∈ interest ∨ fd = p.1 ∧ conn = some p.2 := by
  cases conn with
  | none => exact .inl h
  | some conn =>
      simp only [addInterest] at h
      split at h
      · rcases List.mem_append.mp h with h | h
        · exact .inl h
        · rw [List.mem_singleton.mp h]
          exact .inr ⟨rfl, rfl⟩
      · exact .inl h

/-- `EPOLL_CTL_DEL` adds nothing. -/
theorem mem_of_mem_deleteInterest {interest : List (ℤ × Connection)} {fd : ℤ} {ok : Bool}
    {p : ℤ × Connection} (h : p ∈ deleteInterest interest fd ok) : p ∈ interest := by
  simp only [deleteInterest] at h
  split at h
  · exact List.mem_of_mem_filter h
  · exact h

/-- `__epoll_thread__` of the server at position `k`. The result is `none` where the act is not
what comes next, and where the source goes through a null client. -/
def EpollThread.next (k : ℕ) (s : EpollThread × Descriptors) (act : ThreadAct) :
    Option ((EpollThread × Descriptors) × List Notification) :=
  let t := s.1
  let fds := s.2
  match act, t.pc with
  | .store m_run_thread, _ => some (({ t with m_run_thread }, fds), [])
  | .advance, .entry => some (({ t with m_run_thread := true, pc := .test }, fds), [])
  | .advance, .test =>
      some (({ t with pc := if t.m_run_thread then .wait else .left }, fds), [])
  | .epollWait events, .wait => some (({ t with pc := .batch events }, fds), [])
  | .advance, .batch [] => some (({ t with pc := .test }, fds), [])
  | .accept client_fd, .batch (fd :: events) =>
      if fd = t.m_server_fd then
        some (({ t with pc := .accepted client_fd (fds.accepted k client_fd) events },
          fds.accept k client_fd), [])
      else none
  | .epollCtl ok, .accepted client_fd conn events =>
      some (({ t with
        interest := addInterest t.interest client_fd ok conn
        pc := .added client_fd conn events }, fds), [])
  | .newClient m_client_id, .added client_fd conn events =>
      let r := addClientInfo t.m_client_list
        { m_tcp := true, m_client_id, m_fd := client_fd, conn }
      some (({ t with m_client_list := r.1, pc := .batch events }, fds),
        [.onClientConnected t.m_server_id r.2])
  | .read bs, .batch (fd :: events) =>
      if fd = t.m_server_fd then none
      else if bs.getD [] = [] then some (({ t with pc := .ended fd events }, fds), [])
      else some (({ t with pc := .received fd (bs.getD []) events }, fds), [])
  | .advance, .received fd bs events => do
      let client ← findClientInfoFd t.m_client_list fd
      some (({ t with pc := .batch events }, fds),
        [.onReceive t.m_server_id (getClientId client) (readBuffer bs) bs.length])
  | .epollCtl ok, .ended fd events =>
      some (({ t with
        interest := deleteInterest t.interest fd ok
        pc := .deleted fd events }, fds), [])
  | .advance, .deleted fd events =>
      some (({ t with pc := .closed fd events }, fds.close fd), [])
  | .advance, .closed fd events =>
      let r := removeClientInfoFd t.m_client_list fd
      some (({ t with m_client_list := r.1, pc := .batch events }, fds),
        [.onClientDisconnected t.m_server_id r.2])
  | _, _ => none

/-! ### What a worker does -/

/-- What a step of a thread does, by its action. -/
inductive ThreadEffect (k : ℕ) (t : EpollThread) (fds : Descriptors) :
    ThreadAct → EpollThread → Descriptors → List Notification → Prop
  | store (m_run_thread : Bool) :
      ThreadEffect k t fds (.store m_run_thread) { t with m_run_thread } fds []
  | entry (hpc : t.pc = .entry) :
      ThreadEffect k t fds .advance { t with m_run_thread := true, pc := .test } fds []
  | test (hpc : t.pc = .test) :
      ThreadEffect k t fds .advance
        { t with pc := if t.m_run_thread then .wait else .left } fds []
  | wait (events : List ℤ) (hpc : t.pc = .wait) :
      ThreadEffect k t fds (.epollWait events) { t with pc := .batch events } fds []
  | again (hpc : t.pc = .batch []) :
      ThreadEffect k t fds .advance { t with pc := .test } fds []
  | accept (client_fd : ℤ) {events : List ℤ} (hpc : t.pc = .batch (t.m_server_fd :: events)) :
      ThreadEffect k t fds (.accept client_fd)
        { t with pc := .accepted client_fd (fds.accepted k client_fd) events }
        (fds.accept k client_fd) []
  | add (ok : Bool) {client_fd : ℤ} {conn : Option Connection} {events : List ℤ}
      (hpc : t.pc = .accepted client_fd conn events) :
      ThreadEffect k t fds (.epollCtl ok)
        { t with
          interest := addInterest t.interest client_fd ok conn
          pc := .added client_fd conn events } fds []
  | connected (m_client_id : ℕ) {client_fd : ℤ} {conn : Option Connection} {events : List ℤ}
      (hpc : t.pc = .added client_fd conn events) :
      ThreadEffect k t fds (.newClient m_client_id)
        { t with
          m_client_list := t.m_client_list ++ [⟨⟨⟨true, m_client_id⟩, client_fd⟩, conn⟩]
          pc := .batch events } fds [.onClientConnected t.m_server_id m_client_id]
  | ended (bs : Option Bytes) {fd : ℤ} {events : List ℤ} (hpc : t.pc = .batch (fd :: events))
      (hfd : fd ≠ t.m_server_fd) (hbs : bs.getD [] = []) :
      ThreadEffect k t fds (.read bs) { t with pc := .ended fd events } fds []
  | read (bs : Option Bytes) {fd : ℤ} {events : List ℤ} (hpc : t.pc = .batch (fd :: events))
      (hfd : fd ≠ t.m_server_fd) (hbs : bs.getD [] ≠ []) :
      ThreadEffect k t fds (.read bs) { t with pc := .received fd (bs.getD []) events } fds []
  | received {fd : ℤ} {bs : Bytes} {events : List ℤ} {client : ConnectedClient}
      (hpc : t.pc = .received fd bs events)
      (hc : findClientInfoFd t.m_client_list fd = some client) :
      ThreadEffect k t fds .advance { t with pc := .batch events } fds
        [.onReceive t.m_server_id (getClientId client) (readBuffer bs) bs.length]
  | delete (ok : Bool) {fd : ℤ} {events : List ℤ} (hpc : t.pc = .ended fd events) :
      ThreadEffect k t fds (.epollCtl ok)
        { t with
          interest := deleteInterest t.interest fd ok
          pc := .deleted fd events } fds []
  | close {fd : ℤ} {events : List ℤ} (hpc : t.pc = .deleted fd events) :
      ThreadEffect k t fds .advance { t with pc := .closed fd events } (fds.close fd) []
  | disconnected {fd : ℤ} {events : List ℤ} (hpc : t.pc = .closed fd events) :
      ThreadEffect k t fds .advance
        { t with
          m_client_list := (removeClientInfoFd t.m_client_list fd).1
          pc := .batch events } fds
        [.onClientDisconnected t.m_server_id (removeClientInfoFd t.m_client_list fd).2]

section

variable {k : ℕ} {t t' : EpollThread} {fds fds' : Descriptors} {act : ThreadAct}
  {ns : List Notification}

/-- **Inversion of a worker's step.** -/
theorem EpollThread.next_effect (h : EpollThread.next k (t, fds) act = some ((t', fds'), ns)) :
    ThreadEffect k t fds act t' fds' ns := by
  have hsome : ∀ {a : EpollThread} {b : Descriptors} {c : List Notification},
      some ((a, b), c) = some ((t', fds'), ns) → t' = a ∧ fds' = b ∧ ns = c := by
    intro a b c heq
    obtain ⟨hab, hc⟩ := Prod.mk.inj (Option.some.inj heq)
    obtain ⟨ha, hb⟩ := Prod.mk.inj hab
    exact ⟨ha.symm, hb.symm, hc.symm⟩
  simp only [EpollThread.next] at h
  split at h
  · obtain ⟨rfl, rfl, rfl⟩ := hsome h
    exact .store _
  · next hpc =>
    obtain ⟨rfl, rfl, rfl⟩ := hsome h
    exact .entry hpc
  · next hpc =>
    obtain ⟨rfl, rfl, rfl⟩ := hsome h
    exact .test hpc
  · next hpc =>
    obtain ⟨rfl, rfl, rfl⟩ := hsome h
    exact .wait _ hpc
  · next hpc =>
    obtain ⟨rfl, rfl, rfl⟩ := hsome h
    exact .again hpc
  · next hpc =>
    rw [Option.ite_none_right_eq_some] at h
    obtain ⟨hfd, h⟩ := h
    obtain ⟨rfl, rfl, rfl⟩ := hsome h
    exact .accept _ (hfd ▸ hpc)
  · next hpc =>
    obtain ⟨rfl, rfl, rfl⟩ := hsome h
    exact .add _ hpc
  · next hpc =>
    obtain ⟨rfl, rfl, rfl⟩ := hsome h
    exact .connected _ hpc
  · next hpc =>
    rw [Option.ite_none_left_eq_some] at h
    obtain ⟨hfd, h⟩ := h
    split at h
    · next hbs =>
      obtain ⟨rfl, rfl, rfl⟩ := hsome h
      exact .ended _ hpc hfd hbs
    · next hbs =>
      obtain ⟨rfl, rfl, rfl⟩ := hsome h
      exact .read _ hpc hfd hbs
  · next hpc =>
    simp only [bind, Option.bind_eq_some_iff] at h
    obtain ⟨client, hc, h⟩ := h
    obtain ⟨rfl, rfl, rfl⟩ := hsome h
    exact .received hpc hc
  · next hpc =>
    obtain ⟨rfl, rfl, rfl⟩ := hsome h
    exact .delete _ hpc
  · next hpc =>
    obtain ⟨rfl, rfl, rfl⟩ := hsome h
    exact .close hpc
  · next hpc =>
    obtain ⟨rfl, rfl, rfl⟩ := hsome h
    exact .disconnected hpc
  · cases h

/-- A worker's step changes nothing else of its server. -/
theorem ThreadEffect.frame (h : ThreadEffect k t fds act t' fds' ns) :
    t'.m_server_id = t.m_server_id ∧ t'.m_server_fd = t.m_server_fd := by
  cases h <;> exact ⟨rfl, rfl⟩

/-- The clients after a step are those before it, but for a new one. -/
theorem ThreadEffect.clients (h : ThreadEffect k t fds act t' fds' ns) {client : ConnectedClient}
    (hc : client ∈ t'.m_client_list) :
    client ∈ t.m_client_list ∨ ∃ events, t.pc = .added client.m_fd client.conn events := by
  cases h with
  | connected m_client_id hpc =>
      rcases List.mem_append.mp hc with hc | hc
      · exact .inl hc
      · obtain rfl := List.mem_singleton.mp hc
        exact .inr ⟨_, hpc⟩
  | disconnected hpc => exact .inl (removeClientInfoFd_sublist.subset hc)
  | store _ | entry _ | test _ | wait _ _ | again _ | accept _ _ | add _ _ | ended _ _ _ _
  | read _ _ _ _ | received _ _ | delete _ _ | close _ => exact .inl hc

/-- The number that an `accept` returns names the new connection, and all others what they have
named. -/
theorem Descriptors.conn_accept (fds : Descriptors) {client_fd fd : ℤ} :
    (fds.accept k client_fd).conn fd =
      if 0 ≤ client_fd ∧ fd = client_fd then some { server := k, number := fds.accepts }
      else fds.conn fd := by
  by_cases h0 : 0 ≤ client_fd
  · by_cases hfd : fd = client_fd
    · simp [Descriptors.accept, Descriptors.accepted, h0, hfd]
    · simp [Descriptors.accept, h0, hfd]
  · simp [Descriptors.accept, h0]

/-- An accept returns a number that names nothing. -/
theorem Descriptors.accept_keeps (fds : Descriptors) {client_fd fd : ℤ} {conn : Connection}
    (hfree : 0 ≤ client_fd → fds.conn client_fd = none) (h : fds.conn fd = some conn) :
    (fds.accept k client_fd).conn fd = some conn := by
  have hne : ¬ (0 ≤ client_fd ∧ fd = client_fd) := by
    rintro ⟨h0, rfl⟩
    rw [hfree h0] at h
    cases h
  rw [fds.conn_accept, if_neg hne]
  exact h

/-- Closing a descriptor leaves the others alone. -/
theorem Descriptors.conn_close_of_ne (fds : Descriptors) {fd fd' : ℤ} (hne : fd' ≠ fd) :
    (fds.close fd).conn fd' = fds.conn fd' :=
  Function.update_of_ne hne _ _

/-- A closed descriptor stands for no connection. -/
theorem Descriptors.conn_close (fds : Descriptors) {fd : ℤ} : (fds.close fd).conn fd = none :=
  Function.update_self ..

/-- Only an `accept` makes a number name something. -/
theorem ThreadEffect.conn (h : ThreadEffect k t fds act t' fds' ns) :
    (∃ client_fd, act = .accept client_fd ∧ fds' = fds.accept k client_fd ∧
      t'.m_client_list = t.m_client_list) ∨
    fds'.accepts = fds.accepts ∧ (∀ client_fd, act ≠ .accept client_fd) ∧
      ∀ fd, fds'.conn fd = fds.conn fd ∨ fds'.conn fd = none := by
  cases h with
  | accept client_fd hpc => exact .inl ⟨client_fd, rfl, rfl, rfl⟩
  | @close fd events hpc =>
      refine .inr ⟨rfl, by simp, fun fd' => ?_⟩
      by_cases hfd : fd' = fd
      · exact .inr (hfd ▸ fds.conn_close)
      · exact .inl (fds.conn_close_of_ne hfd)
  | store _ | entry _ | test _ | wait _ _ | again _ | add _ _ | connected _ _ | ended _ _ _ _
  | read _ _ _ _ | received _ _ | delete _ _ | disconnected _ =>
      exact .inr ⟨rfl, by simp, fun fd => .inl rfl⟩

end

/-! ### The steps of a worker put together -/

/-- The server as `handleEvent` has it. -/
def EpollThread.server (t : EpollThread) : EpollServer :=
  { m_server_id := t.m_server_id, m_server_fd := t.m_server_fd, m_run_thread := t.m_run_thread,
    m_client_list := t.m_client_list.map ConnectedClient.toTcpClientInfo }

/-- What the kernel of `handleEvent` and the descriptors of the process agree on. -/
structure Kernel.Agrees (kernel : Kernel) (fds : Descriptors) : Prop where
  conn : ∀ fd, kernel.conn fd = (fds.conn fd).map Connection.number
  accepts : kernel.accepts = fds.accepts

section

variable {k : ℕ} {t : EpollThread} {fds : Descriptors} {kernel kernel' : Kernel} {fd : ℤ}
  {sys : SysResults} {server' : EpollServer} {o : List EpollObs} {events : List ℤ}

/-- A lookup does not depend on the connection a client came from. -/
theorem findClientInfoFd_map (l : List ConnectedClient) (fd : ℤ) :
    findClientInfoFd (l.map ConnectedClient.toTcpClientInfo) fd =
      (findClientInfoFd l fd).map ConnectedClient.toTcpClientInfo := by
  rw [findClientInfoFd, Keyed.find, List.find?_map]
  rfl

/-- Nor does a removal. -/
theorem removeClientInfoFd_map (l : List ConnectedClient) (fd : ℤ) :
    removeClientInfoFd (l.map ConnectedClient.toTcpClientInfo) fd =
      ((removeClientInfoFd l fd).1.map ConnectedClient.toTcpClientInfo,
        (removeClientInfoFd l fd).2) := by
  have hfind := findClientInfoFd_map l fd
  rw [findClientInfoFd, findClientInfoFd] at hfind
  cases hl : Keyed.find getFd l fd with
  | none =>
      rw [hl] at hfind
      simp only [removeClientInfoFd, hl, hfind, Option.map_none]
  | some client =>
      rw [hl] at hfind
      simp only [removeClientInfoFd, hl, hfind, Option.map_some, Keyed.remove, List.filter_map]
      rfl

/-- The one server's view of the kernel follows an `accept` of the shared one. -/
theorem Kernel.Agrees.accept (hk : kernel.Agrees fds) (k : ℕ) (client_fd : ℤ) (ok : Bool) :
    ((kernel.accept client_fd).epollCtlAdd client_fd ok).Agrees (fds.accept k client_fd) := by
  constructor
  · intro fd
    rw [Kernel.conn_epollCtlAdd, fds.conn_accept]
    by_cases hfd : 0 ≤ client_fd ∧ fd = client_fd
    · rw [if_pos hfd, hfd.2, Kernel.conn_accept_self hfd.1, hk.accepts]
      rfl
    · rw [if_neg hfd, ← hk.conn]
      by_cases h0 : 0 ≤ client_fd
      · exact Kernel.conn_accept_of_ne fun heq => hfd ⟨h0, heq⟩
      · rw [Kernel.conn_accept_of_neg (by omega)]
  · rw [Kernel.accepts_epollCtlAdd, Kernel.accepts_accept, hk.accepts]
    rfl

/-- It follows a `close` too. -/
theorem Kernel.Agrees.close (hk : kernel.Agrees fds) (fd : ℤ) (ok : Bool) :
    ((kernel.epollCtlDel fd ok).close fd).Agrees (fds.close fd) := by
  constructor
  · intro fd'
    by_cases hfd : fd' = fd
    · rw [hfd, Kernel.conn_close_self, fds.conn_close]
      rfl
    · rw [Kernel.conn_epollCtlDel_close_of_ne hfd, fds.conn_close_of_ne hfd, hk.conn]
  · rw [Kernel.accepts_close, Kernel.accepts_epollCtlDel]
    exact hk.accepts

/-- **The steps of a worker put together are `handleEvent`.** -/
theorem EpollThread.handles (hpc : t.pc = .batch (fd :: events)) (hk : kernel.Agrees fds)
    (h : handleEvent t.server kernel fd sys = some (server', kernel', o)) :
    ∃ acts t' fds', Run (ofFn (EpollThread.next k)) (t, fds) acts
        (o.flatMap EpollObs.notification) (t', fds') ∧
      t'.server = server' ∧ t'.pc = .batch events ∧ kernel'.Agrees fds' := by
  cases handleEvent_effect h with
  | accepted hfd =>
      have haccept : EpollThread.next k (t, fds) (.accept sys.accept) =
          some (({ t with pc := .accepted sys.accept (fds.accepted k sys.accept) events },
            fds.accept k sys.accept), []) := by
        simp only [EpollThread.next, hpc]
        exact if_pos hfd
      have hrun : ∃ t', Run (ofFn (EpollThread.next k)) (t, fds)
          [.accept sys.accept, .epollCtl sys.epoll_ctl, .newClient sys.m_client_id]
          [.onClientConnected t.m_server_id sys.m_client_id] (t', fds.accept k sys.accept) ∧
          t'.server = { t.server with
            m_client_list := t.server.m_client_list ++
              [{ m_tcp := true, m_client_id := sys.m_client_id, m_fd := sys.accept }] } ∧
          t'.pc = .batch events :=
        ⟨_, run_of_exec (by rw [exec, haccept]; rfl),
          by simp [EpollThread.server], rfl⟩
      obtain ⟨t', hrun, hserver, hpc'⟩ := hrun
      exact ⟨_, t', _, hrun, hserver, hpc', hk.accept k sys.accept sys.epoll_ctl⟩
  | disconnected hfd hread =>
      have hread' : EpollThread.next k (t, fds) (.read sys.read) =
          some (({ t with pc := .ended fd events }, fds), []) := by
        have hfd : fd ≠ t.m_server_fd := hfd
        simp only [EpollThread.next, hpc]
        rw [if_neg hfd, if_pos hread]
      have hrun : ∃ t', Run (ofFn (EpollThread.next k)) (t, fds)
          [.read sys.read, .epollCtl sys.epoll_ctl, .advance, .advance]
          [.onClientDisconnected t.m_server_id (removeClientInfoFd t.m_client_list fd).2]
          (t', fds.close fd) ∧
          t'.server = { t.server with
            m_client_list := (removeClientInfoFd t.server.m_client_list fd).1 } ∧
          t'.pc = .batch events :=
        ⟨_, run_of_exec (by rw [exec, hread']; rfl),
          by simp [EpollThread.server, removeClientInfoFd_map], rfl⟩
      obtain ⟨t', hrun, hserver, hpc'⟩ := hrun
      have hid : (removeClientInfoFd t.server.m_client_list fd).2 =
          (removeClientInfoFd t.m_client_list fd).2 := by
        rw [EpollThread.server, removeClientInfoFd_map]
      exact ⟨_, t', _, by rw [hid]; exact hrun, hserver, hpc', hk.close fd sys.epoll_ctl⟩
  | received bs client hfd hread hbs hc =>
      have hread' : EpollThread.next k (t, fds) (.read sys.read) =
          some (({ t with pc := .received fd bs events }, fds), []) := by
        have hfd : fd ≠ t.m_server_fd := hfd
        simp only [EpollThread.next, hpc, hread, Option.getD_some]
        rw [if_neg hfd, if_neg hbs]
      obtain ⟨client', hc', hclient⟩ :=
        Option.map_eq_some_iff.mp ((findClientInfoFd_map t.m_client_list fd).symm.trans hc)
      have hreceived : EpollThread.next k ({ t with pc := .received fd bs events }, fds) .advance =
          some (({ t with pc := .batch events }, fds),
            [.onReceive t.m_server_id (getClientId client) (readBuffer bs) bs.length]) := by
        simp only [EpollThread.next, hc', bind, Option.bind_some, ← hclient]
        rfl
      refine ⟨[.read sys.read, .advance], { t with pc := .batch events }, fds,
        run_of_exec ?_, rfl, rfl, hk⟩
      rw [exec, hread']
      simp only [exec, bind, Option.bind_some, hreceived]
      rfl

end

end AnyServer
