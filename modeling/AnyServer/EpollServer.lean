import Mathlib.Logic.Function.Basic
import AnyServer.Library.Lts
import AnyServer.ClientRegistry

/-!
# The Epoll Servers' Worker

`InetDomainSocketTcpServer` and `UnixDomainSocketTcpServer` run the same loop,
`__epoll_thread__`: wait for a batch of events, and handle each one by accepting a
connection or by reading from one. The two functions differ in what follows the loop: the
inet server closes its listening socket, the unix server does not. Here they are one
worker with an `EpollKind`.

The worker sees connections only through fd numbers, which the kernel reuses after a
close. `Kernel` keeps what the numbers mean: `conn fd` is the connection an open fd
belongs to, connections being numbered by the calls of `accept`, and `interest` are the
fds registered with epoll. The results of system calls are inputs (`SysResults`), as is
the address of a client object; what the kernel and the allocator promise about them is
`SysResults.Legal` and `LegalBatch`.

What the worker does is observed as the bytes it reads and the notifications it makes,
each with the connection that caused it.

## Main results

* `handleEvent_effect`: the three things that handling an event can do.
* `EpollWorker.Step`: the worker, one event at a time.
-/

namespace AnyServer

/-- `EPOLL_SIZE`. -/
def EPOLL_SIZE : ℕ := 20

/-- `BUFFER_LENGTH` of `__epoll_thread__`. -/
def BUFFER_LENGTH : ℕ := 2048

/-! ### The kernel -/

/-- What fd numbers mean to the kernel. -/
structure Kernel where
  conn : ℤ → Option ℕ
  interest : List ℤ
  accepts : ℕ

/-- `accept`, returning `fd`; a failed call is counted too. -/
def Kernel.accept (kernel : Kernel) (fd : ℤ) : Kernel :=
  { kernel with
    conn := if 0 ≤ fd then Function.update kernel.conn fd (some kernel.accepts)
      else kernel.conn
    accepts := kernel.accepts + 1 }

/-- `epoll_ctl` with `EPOLL_CTL_ADD`; `ok` is whether it succeeds. -/
def Kernel.epollCtlAdd (kernel : Kernel) (fd : ℤ) (ok : Bool) : Kernel :=
  if ok then { kernel with interest := kernel.interest ++ [fd] } else kernel

/-- `epoll_ctl` with `EPOLL_CTL_DEL`. -/
def Kernel.epollCtlDel (kernel : Kernel) (fd : ℤ) (ok : Bool) : Kernel :=
  if ok then { kernel with interest := kernel.interest.filter (· ≠ fd) } else kernel

/-- `close`: the number is free again and epoll forgets it. -/
def Kernel.close (kernel : Kernel) (fd : ℤ) : Kernel :=
  { kernel with
    conn := Function.update kernel.conn fd none
    interest := kernel.interest.filter (· ≠ fd) }

section Kernel

variable {kernel : Kernel} {fd fd' : ℤ} {ok : Bool} {k : ℕ}

/-- Watching a descriptor opens no connection. -/
@[simp] theorem Kernel.conn_epollCtlAdd : (kernel.epollCtlAdd fd ok).conn = kernel.conn := by
  cases ok <;> rfl

/-- Watching a descriptor accepts no connection. -/
@[simp] theorem Kernel.accepts_epollCtlAdd :
    (kernel.epollCtlAdd fd ok).accepts = kernel.accepts := by
  cases ok <;> rfl

/-- No longer watching a descriptor closes no connection. -/
@[simp] theorem Kernel.conn_epollCtlDel : (kernel.epollCtlDel fd ok).conn = kernel.conn := by
  cases ok <;> rfl

/-- No longer watching a descriptor accepts no connection. -/
@[simp] theorem Kernel.accepts_epollCtlDel :
    (kernel.epollCtlDel fd ok).accepts = kernel.accepts := by
  cases ok <;> rfl

/-- Each accepted connection has the next number. -/
@[simp] theorem Kernel.accepts_accept : (kernel.accept fd).accepts = kernel.accepts + 1 := rfl

@[simp] theorem Kernel.accepts_close : (kernel.close fd).accepts = kernel.accepts := rfl

/-- The descriptor of an accepted connection stands for it. -/
theorem Kernel.conn_accept_self (h : 0 ≤ fd) :
    (kernel.accept fd).conn fd = some kernel.accepts := by
  simp [Kernel.accept, h]

/-- `accept` leaves the other descriptors alone. -/
theorem Kernel.conn_accept_of_ne (h : fd' ≠ fd) :
    (kernel.accept fd).conn fd' = kernel.conn fd' := by
  by_cases hfd : 0 ≤ fd <;> simp [Kernel.accept, hfd, h]

/-- A failed `accept` opens nothing. -/
theorem Kernel.conn_accept_of_neg (h : fd < 0) : (kernel.accept fd).conn = kernel.conn := by
  simp [Kernel.accept, Int.not_le.mpr h]

/-- An accept opens at most the number that it returns. -/
theorem Kernel.conn_accept_cases {k : ℕ} (h : (kernel.accept fd).conn fd' = some k) :
    kernel.conn fd' = some k ∨ fd' = fd ∧ 0 ≤ fd' ∧ k = kernel.accepts := by
  by_cases hfd : fd' = fd
  · subst hfd
    rcases Int.lt_or_le fd' 0 with hneg | hpos
    · rw [Kernel.conn_accept_of_neg hneg] at h
      exact .inl h
    · rw [Kernel.conn_accept_self hpos] at h
      exact .inr ⟨rfl, hpos, (Option.some.inj h).symm⟩
  · rw [Kernel.conn_accept_of_ne hfd] at h
    exact .inl h

/-- What is open stays open when a free number is accepted. -/
theorem Kernel.conn_accept_of_some {k : ℕ} (hfree : kernel.conn fd = none)
    (h : kernel.conn fd' = some k) : (kernel.accept fd).conn fd' = some k := by
  rw [Kernel.conn_accept_of_ne, h]
  rintro rfl
  cases hfree.symm.trans h

/-- A closed descriptor stands for no connection. -/
theorem Kernel.conn_close_self : (kernel.close fd).conn fd = none := by
  simp [Kernel.close]

/-- `close` leaves the other descriptors alone. -/
theorem Kernel.conn_close_of_ne (h : fd' ≠ fd) :
    (kernel.close fd).conn fd' = kernel.conn fd' := by
  simp [Kernel.close, h]

/-- The loop body's `epoll_ctl` and `close` leave the other connections alone. -/
theorem Kernel.conn_epollCtlDel_close_of_ne (h : fd' ≠ fd) :
    ((kernel.epollCtlDel fd ok).close fd).conn fd' = kernel.conn fd' := by
  rw [Kernel.conn_close_of_ne h, Kernel.conn_epollCtlDel]

/-- And so do its `accept` and `epoll_ctl`. -/
theorem Kernel.conn_accept_epollCtlAdd_of_ne (h : fd' ≠ fd) :
    ((kernel.accept fd).epollCtlAdd fd ok).conn fd' = kernel.conn fd' := by
  rw [Kernel.conn_epollCtlAdd, Kernel.conn_accept_of_ne h]

/-- What is open after a `close` was open before it, and is another descriptor. -/
theorem Kernel.conn_close_cases {k : ℕ} (h : (kernel.close fd).conn fd' = some k) :
    fd' ≠ fd ∧ kernel.conn fd' = some k := by
  by_cases hfd : fd' = fd
  · rw [hfd, Kernel.conn_close_self] at h
    cases h
  · rw [Kernel.conn_close_of_ne hfd] at h
    exact ⟨hfd, h⟩

/-- A closed descriptor is not watched any more. -/
theorem Kernel.mem_interest_close (h : fd' ∈ (kernel.close fd).interest) :
    fd' ∈ kernel.interest ∧ fd' ≠ fd := by
  simpa [Kernel.close] using h

/-- `EPOLL_CTL_DEL` watches nothing new. -/
theorem Kernel.mem_interest_epollCtlDel (h : fd' ∈ (kernel.epollCtlDel fd ok).interest) :
    fd' ∈ kernel.interest := by
  cases ok with
  | false => exact h
  | true => exact (List.mem_filter.mp h).1

/-- `EPOLL_CTL_ADD` watches one descriptor more, if it succeeds. -/
theorem Kernel.mem_interest_epollCtlAdd (h : fd' ∈ (kernel.epollCtlAdd fd ok).interest) :
    fd' ∈ kernel.interest ∨ ok = true ∧ fd' = fd := by
  cases ok with
  | false => exact .inl h
  | true => simpa [Kernel.epollCtlAdd] using h

end Kernel

/-! ### The worker -/

/-- The two classes that share the loop. -/
inductive EpollKind
  | inet
  | unix
  deriving DecidableEq, Repr

/-- What the loop reads and writes of its server. -/
structure EpollServer where
  m_server_id : ℕ
  m_server_fd : ℤ
  m_run_thread : Bool
  m_client_list : List TcpClientInfo
  deriving DecidableEq, Repr

/-- Where `__epoll_thread__` is: before its first statement, at the test of the loop, in
`epoll_wait`, inside a batch with these events left, or returned. -/
inductive EpollPc
  | entry
  | test
  | wait
  | batch (events : List ℤ)
  | left
  deriving DecidableEq, Repr

/-- A worker of an epoll server, with its server and the kernel's side of its descriptors. -/
structure EpollWorker where
  server : EpollServer
  kernel : Kernel
  pc : EpollPc

/-- The results of the calls that one event makes: `accept`, `epoll_ctl`, the address of a
client object allocated, and `read`, where `none` is `-1`. -/
structure SysResults where
  accept : ℤ
  epoll_ctl : Bool
  m_client_id : ℕ
  read : Option Bytes
  deriving DecidableEq, Repr

/-- What can be seen of the worker. -/
inductive EpollObs
  | read (conn : Option ℕ) (bs : Bytes)
  | notify (conn : Option ℕ) (n : Notification)
  deriving DecidableEq, Repr

/-- The buffer after `memset` and a `read` of `bs`. -/
def readBuffer (bs : Bytes) : Bytes :=
  bs ++ List.replicate (BUFFER_LENGTH - bs.length) 0

/-- The body of the `for` loop of `__epoll_thread__`, for an event on `fd`. The result is
`none` where the source goes through a null client. -/
def handleEvent (server : EpollServer) (kernel : Kernel) (fd : ℤ) (sys : SysResults) :
    Option (EpollServer × Kernel × List EpollObs) :=
  if fd = server.m_server_fd then
    let client_fd := sys.accept
    let kernel' := (kernel.accept client_fd).epollCtlAdd client_fd sys.epoll_ctl
    let r := addClientInfo server.m_client_list
      { m_tcp := true, m_client_id := sys.m_client_id, m_fd := client_fd }
    some ({ server with m_client_list := r.1 }, kernel',
      [.notify (some kernel.accepts) (.onClientConnected server.m_server_id r.2)])
  else
    let bs := sys.read.getD []
    if bs = [] then
      let kernel' := (kernel.epollCtlDel fd sys.epoll_ctl).close fd
      let r := removeClientInfoFd server.m_client_list fd
      some ({ server with m_client_list := r.1 }, kernel',
        [.notify (kernel.conn fd) (.onClientDisconnected server.m_server_id r.2)])
    else do
      let client ← findClientInfoFd server.m_client_list fd
      some (server, kernel,
        [.read (kernel.conn fd) bs,
          .notify (kernel.conn fd)
            (.onReceive server.m_server_id (getClientId client) (readBuffer bs) bs.length)])

/-- The promises of `accept`, `epoll_ctl`, the allocator and `read`, for an event on `fd`
and the calls that such an event makes. -/
structure SysResults.Legal (sys : SysResults) (w : EpollWorker) (fd : ℤ) : Prop where
  accept : fd = w.server.m_server_fd →
    sys.accept = -1 ∧ sys.epoll_ctl = false ∨
      0 ≤ sys.accept ∧ w.kernel.conn sys.accept = none ∧ sys.accept ≠ w.server.m_server_fd
  client_id : fd = w.server.m_server_fd →
    sys.m_client_id ≠ 0 ∧ sys.m_client_id ∉ clientIds w.server.m_client_list
  read : fd ≠ w.server.m_server_fd → ∀ bs, sys.read = some bs → bs.length ≤ BUFFER_LENGTH

/-- The promise of `epoll_wait`: at most `EPOLL_SIZE` registered fds, each once. A failed
call returns no events. -/
structure LegalBatch (kernel : Kernel) (events : List ℤ) : Prop where
  length_le : events.length ≤ EPOLL_SIZE
  nodup : events.Nodup
  registered : ∀ fd ∈ events, fd ∈ kernel.interest

/-- What drives the worker: a store to `m_run_thread` by another thread, the worker's own
next move, and the moves that take results from the kernel. -/
inductive EpollInput
  | store (m_run_thread : Bool)
  | advance
  | epollWait (events : List ℤ)
  | handle (sys : SysResults)
  deriving DecidableEq, Repr

/-- `__epoll_thread__`, with stores of other threads to the flag in between. -/
inductive EpollWorker.Step (kind : EpollKind) : Lts EpollWorker EpollInput EpollObs
  | store {w : EpollWorker} (b : Bool) :
      Step kind w (.store b) { w with server := { w.server with m_run_thread := b } } []
  | entry {w : EpollWorker} (h : w.pc = .entry) :
      Step kind w .advance
        { w with server := { w.server with m_run_thread := true }, pc := .test } []
  | enter {w : EpollWorker} (h : w.pc = .test) (hr : w.server.m_run_thread = true) :
      Step kind w .advance { w with pc := .wait } []
  | leave {w : EpollWorker} (h : w.pc = .test) (hr : w.server.m_run_thread = false) :
      Step kind w .advance
        { w with
          kernel := match kind with
            | .inet => w.kernel.close w.server.m_server_fd
            | .unix => w.kernel
          pc := .left } []
  | wait {w : EpollWorker} (events : List ℤ) (h : w.pc = .wait)
      (hl : LegalBatch w.kernel events) :
      Step kind w (.epollWait events) { w with pc := .batch events } []
  | handle {w : EpollWorker} (sys : SysResults) {fd : ℤ} {events : List ℤ}
      {server : EpollServer} {kernel : Kernel} {o : List EpollObs}
      (h : w.pc = .batch (fd :: events)) (hl : sys.Legal w fd)
      (hs : handleEvent w.server w.kernel fd sys = some (server, kernel, o)) :
      Step kind w (.handle sys) { server, kernel, pc := .batch events } o
  | again {w : EpollWorker} (h : w.pc = .batch []) :
      Step kind w .advance { w with pc := .test } []

/-- `InetDomainSocketTcpServer::__epoll_thread__`. -/
abbrev InetDomainSocketTcpServer.Step : Lts EpollWorker EpollInput EpollObs :=
  EpollWorker.Step .inet

/-- `UnixDomainSocketTcpServer::__epoll_thread__`. -/
abbrev UnixDomainSocketTcpServer.Step : Lts EpollWorker EpollInput EpollObs :=
  EpollWorker.Step .unix

/-- A worker that `start` has just created, after a successful `init`. -/
structure EpollWorker.Initial (w : EpollWorker) : Prop where
  pc : w.pc = .entry
  server_fd : 0 ≤ w.server.m_server_fd
  client_list : w.server.m_client_list = []
  conn : w.kernel.conn = fun _ => none
  interest : w.kernel.interest = [w.server.m_server_fd]
  accepts : w.kernel.accepts = 0

/-! ### What handling an event can do -/

/-- What handling an event does: a client is accepted, has gone, or has sent bytes. -/
inductive HandleEffect (server : EpollServer) (kernel : Kernel) (fd : ℤ) (sys : SysResults) :
    EpollServer → Kernel → List EpollObs → Prop
  | accepted (hfd : fd = server.m_server_fd) :
      HandleEffect server kernel fd sys
        { server with
          m_client_list := server.m_client_list ++
            [{ m_tcp := true, m_client_id := sys.m_client_id, m_fd := sys.accept }] }
        ((kernel.accept sys.accept).epollCtlAdd sys.accept sys.epoll_ctl)
        [.notify (some kernel.accepts)
          (.onClientConnected server.m_server_id sys.m_client_id)]
  | disconnected (hfd : fd ≠ server.m_server_fd) (hread : sys.read.getD [] = []) :
      HandleEffect server kernel fd sys
        { server with m_client_list := (removeClientInfoFd server.m_client_list fd).1 }
        ((kernel.epollCtlDel fd sys.epoll_ctl).close fd)
        [.notify (kernel.conn fd)
          (.onClientDisconnected server.m_server_id
            (removeClientInfoFd server.m_client_list fd).2)]
  | received (bs : Bytes) (client : TcpClientInfo) (hfd : fd ≠ server.m_server_fd)
      (hread : sys.read = some bs) (hbs : bs ≠ [])
      (hc : findClientInfoFd server.m_client_list fd = some client) :
      HandleEffect server kernel fd sys server kernel
        [.read (kernel.conn fd) bs,
          .notify (kernel.conn fd)
            (.onReceive server.m_server_id (getClientId client) (readBuffer bs) bs.length)]

section

variable {server server' : EpollServer} {kernel kernel' : Kernel} {fd : ℤ}
  {sys : SysResults} {o : List EpollObs}

/-- **Inversion of the loop body.** -/
theorem handleEvent_effect (h : handleEvent server kernel fd sys = some (server', kernel', o)) :
    HandleEffect server kernel fd sys server' kernel' o := by
  by_cases hfd : fd = server.m_server_fd
  · rw [handleEvent, if_pos hfd] at h
    simp only [Option.some.injEq, Prod.mk.injEq] at h
    obtain ⟨rfl, rfl, rfl⟩ := h
    exact .accepted hfd
  · rw [handleEvent, if_neg hfd] at h
    by_cases hread : sys.read.getD [] = []
    · rw [if_pos hread] at h
      simp only [Option.some.injEq, Prod.mk.injEq] at h
      obtain ⟨rfl, rfl, rfl⟩ := h
      exact .disconnected hfd hread
    · rw [if_neg hread] at h
      simp only [bind, Option.bind_eq_some_iff, Option.some.injEq, Prod.mk.injEq] at h
      obtain ⟨client, hc, rfl, rfl, rfl⟩ := h
      obtain ⟨bs, hbs⟩ : ∃ bs, sys.read = some bs := by
        cases hr : sys.read with
        | none => simp [hr] at hread
        | some bs => exact ⟨bs, rfl⟩
      rw [hbs, Option.getD_some] at hread ⊢
      exact .received bs client hfd hbs hread hc

/-- The loop body goes wrong only when it has read bytes from an fd that no client is
registered under. -/
theorem handleEvent_isSome (h : fd = server.m_server_fd ∨ fd ∈ clientFds server.m_client_list) :
    (handleEvent server kernel fd sys).isSome := by
  by_cases hfd : fd = server.m_server_fd
  · rw [handleEvent, if_pos hfd]
    rfl
  · rw [handleEvent, if_neg hfd]
    by_cases hread : sys.read.getD [] = []
    · rw [if_pos hread]
      rfl
    · have hmem := h.resolve_left hfd
      obtain ⟨client, hc⟩ := Option.isSome_iff_exists.mp (findClientInfoFd_isSome_iff.mpr hmem)
      rw [if_neg hread, hc]
      rfl

end

end AnyServer
