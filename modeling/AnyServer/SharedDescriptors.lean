import AnyServer.EpollThread

/-!
# Descriptors Shared by Several Servers

The fd numbers of a process are shared by all its servers: a number that one server has closed
may be what the next `accept` of another returns. Here any number of epoll servers run in one
process, call by call, and interleave with calls of `ServerFactory::sendToClient` in other
threads, which look a client up and write to it in two steps. The shared pointer that the lookup
returns keeps the client object, and the fd in it.

`__epoll_thread__` closes an fd before it removes the client with it. Until then, and as long as
a call of `sendToClient` holds the client, the number may come to name another connection.

## Main results

* `SharedDescriptors.safe_iff_current`: when nothing goes astray before another `accept`.
* `addressed_of_unshared`: when what is written for a client reaches the client's connection.
-/

namespace AnyServer

open Lts

/-! ### The process -/

/-- A call of `sendToClient` that has looked its client up. -/
structure SendingCall where
  client : ConnectedClient
  msg : Bytes
  deriving DecidableEq, Repr

/-- The servers, the descriptors, and the calls of `sendToClient` under way. -/
structure SharedDescriptors where
  servers : List EpollThread
  fds : Descriptors
  calls : List SendingCall

/-- A step of a worker, a call of `ServerFactory::sendToClient`, which looks the client up, or
the `write` of such a call. -/
inductive DescriptorInput
  | work (k : ℕ) (act : ThreadAct)
  | sendToClient (server_id client_id : ℕ) (msg : Bytes)
  | write (call : ℕ)
  deriving DecidableEq, Repr

/-- What can be seen: notifications, and what is written for a client, with the connection that
gets it. -/
inductive DescriptorObs
  | notify (n : Notification)
  | write (client : ConnectedClient) (msg : Bytes) (target : Option Connection)
  deriving DecidableEq, Repr

/-- The first server with the id. -/
def SharedDescriptors.route (s : SharedDescriptors) (server_id : ℕ) : Option ℕ :=
  (s.servers.map EpollThread.m_server_id).findIdx? (server_id == ·)

/-- A step. A call of `sendToClient` that finds no server has nothing to do, and one that finds
no client goes through a null client. -/
def SharedDescriptors.next (s : SharedDescriptors) :
    DescriptorInput → Option (SharedDescriptors × List DescriptorObs)
  | .work k act => do
      let t ← s.servers[k]?
      let r ← EpollThread.next k (t, s.fds) act
      some ({ s with servers := s.servers.set k r.1.1, fds := r.1.2 }, r.2.map .notify)
  | .sendToClient server_id client_id msg => do
      let k ← s.route server_id
      let t ← s.servers[k]?
      let client ← findClientInfo t.m_client_list client_id
      some ({ s with calls := s.calls ++ [{ client, msg }] }, [])
  | .write j => do
      let call ← s.calls[j]?
      some ({ s with calls := s.calls.eraseIdx j },
        [.write call.client call.msg (s.fds.conn call.client.m_fd)])

/-- The promises of kernel and allocator: `accept` returns `-1` or a number that is free, the
events of `epoll_wait` are what the instance has registered and is still open, and a new object
has an address that no live object has. -/
def DescriptorInput.Legal (s : SharedDescriptors) : DescriptorInput → Prop
  | .work k (.epollWait events) =>
      events.length ≤ EPOLL_SIZE ∧ events.Nodup ∧ ∀ fd ∈ events, ∀ t ∈ s.servers[k]?,
        fd = t.m_server_fd ∨ ∃ p ∈ t.interest, p.1 = fd ∧ s.fds.conn fd = some p.2
  | .work _ (.accept client_fd) =>
      client_fd = -1 ∨ 0 ≤ client_fd ∧ s.fds.conn client_fd = none ∧
        ∀ t ∈ s.servers, t.listens = true → client_fd ≠ t.m_server_fd
  | .work _ (.newClient m_client_id) =>
      m_client_id ≠ 0 ∧ (∀ t ∈ s.servers, m_client_id ∉ clientIds t.m_client_list) ∧
        ∀ call ∈ s.calls, m_client_id ≠ call.client.m_client_id
  | .work _ (.read (some bs)) => bs.length ≤ BUFFER_LENGTH
  | _ => True

instance {s : SharedDescriptors} : DecidablePred (DescriptorInput.Legal s) := fun i => by
  unfold DescriptorInput.Legal
  split <;> infer_instance

/-- Servers, kernel and callers. -/
abbrev SharedDescriptors.Step : Lts SharedDescriptors DescriptorInput DescriptorObs :=
  guarded DescriptorInput.Legal SharedDescriptors.next

/-- Servers that have been started and have no clients. -/
structure SharedDescriptors.Initial (s : SharedDescriptors) : Prop where
  pc : ∀ t ∈ s.servers, t.pc = .entry
  client_list : ∀ t ∈ s.servers, t.m_client_list = []
  interest : ∀ t ∈ s.servers, t.interest = []
  conn : s.fds.conn = fun _ => none
  calls : s.calls = []

/-! ### What is asked of a write -/

/-- What is written for a client reaches the connection that the client was made for, or
nobody. -/
def DescriptorObs.Addressed : DescriptorObs → Prop
  | .notify _ => True
  | .write client _ target => target = none ∨ target = client.conn

/-- A client that a call of `sendToClient` has looked up, or can look up. -/
inductive SharedDescriptors.Sendable (s : SharedDescriptors) : ConnectedClient → Prop
  | calling {call : SendingCall} (h : call ∈ s.calls) : Sendable s call.client
  | registered {server_id k : ℕ} {t : EpollThread} {client : ConnectedClient}
      (hk : s.route server_id = some k) (ht : s.servers[k]? = some t)
      (h : client ∈ t.m_client_list) : Sendable s client

/-- An `accept` returns no number that a client has for which a call of `sendToClient` can still
write. -/
def Unshared (s : SharedDescriptors) : DescriptorInput → Prop
  | .work _ (.accept client_fd) =>
      0 ≤ client_fd → ∀ client, s.Sendable client → client.m_fd ≠ client_fd
  | _ => True

/-- A worker calls `accept`. -/
def DescriptorInput.isAccept : DescriptorInput → Bool
  | .work _ (.accept _) => true
  | _ => false

/-- Nothing goes astray before another `accept`. -/
def SharedDescriptors.Safe (s : SharedDescriptors) : Prop :=
  ∀ js os s', Run SharedDescriptors.Step s js os s' → (∀ j ∈ js, j.isAccept = false) →
    ∀ x ∈ os, x.Addressed

/-! ### Descriptors belong to the server that has accepted them -/

section

variable {k : ℕ} {t t' : EpollThread} {fds fds' : Descriptors} {act : ThreadAct}
  {ns : List Notification}

/-- The events that a worker has still to handle, with the one that it reads from. -/
def ThreadPc.pending : ThreadPc → List ℤ
  | .batch events | .accepted _ _ events | .added _ _ events | .closed _ events => events
  | .received fd _ events | .ended fd events | .deleted fd events => fd :: events
  | .entry | .test | .wait | .left => []

/-- The fd that a worker reads from, until it is closed. -/
def ThreadPc.reading : ThreadPc → Option ℤ
  | .received fd _ _ | .ended fd _ | .deleted fd _ => some fd
  | _ => none

/-- What a worker has accepted and not yet made a client for. -/
def ThreadPc.accepting : ThreadPc → Option (ℤ × Option Connection)
  | .accepted client_fd conn _ | .added client_fd conn _ => some (client_fd, conn)
  | _ => none

/-- What an `accept` of the server at position `k` has returned names its connection. -/
def Descriptors.Accepting (fds : Descriptors) (k : ℕ) (fd : ℤ) : Option Connection → Prop
  | none => fd < 0
  | some conn => fds.conn fd = some conn ∧ conn.server = k ∧ conn.number < fds.accepts

/-- The fds that the worker of the server at position `k` deals with are the server's own. -/
structure EpollThread.Owned (t : EpollThread) (k : ℕ) (fds : Descriptors) : Prop where
  interest : ∀ p ∈ t.interest, p.2.server = k
  nodup : t.pc.pending.Nodup
  pending : ∀ fd ∈ t.pc.pending, fd ≠ t.m_server_fd →
    ∃ conn, fds.conn fd = some conn ∧ conn.server = k
  reading : ∀ fd, t.pc.reading = some fd → fd ∈ t.pc.pending ∧ fd ≠ t.m_server_fd
  accepting : ∀ fd conn, t.pc.accepting = some (fd, conn) → fds.Accepting k fd conn

/-- An accept or a close keeps the connections of all other servers. -/
theorem ThreadEffect.keeps_conn (h : ThreadEffect k t fds act t' fds' ns) (hown : t.Owned k fds)
    (hfree : ∀ client_fd, act = .accept client_fd → 0 ≤ client_fd → fds.conn client_fd = none) :
    fds.accepts ≤ fds'.accepts ∧ ∀ fd conn, fds.conn fd = some conn → conn.server ≠ k →
      fds'.conn fd = some conn := by
  cases h with
  | accept client_fd hpc =>
      exact ⟨Nat.le_succ _, fun fd conn hconn _ => fds.accept_keeps (hfree client_fd rfl) hconn⟩
  | @close fd events hpc =>
      refine ⟨Nat.le_refl _, fun fd' conn hconn hk => ?_⟩
      have hreading := hown.reading fd (by rw [hpc, ThreadPc.reading])
      obtain ⟨conn', hconn', hk'⟩ := hown.pending fd hreading.1 hreading.2
      have hne : fd' ≠ fd := by
        rintro rfl
        rw [hconn] at hconn'
        exact hk (Option.some.inj hconn' ▸ hk')
      rw [fds.conn_close_of_ne hne]
      exact hconn
  | store _ | entry _ | test _ | wait _ _ | again _ | add _ _ | connected _ _ | ended _ _ _ _
  | read _ _ _ _ | received _ _ | delete _ _ | disconnected _ =>
      exact ⟨Nat.le_refl _, fun _ _ hconn _ => hconn⟩

/-- What a server deals with stays its own while the others go on. -/
theorem EpollThread.Owned.frame (h : t.Owned k fds) (haccepts : fds.accepts ≤ fds'.accepts)
    (hconn : ∀ fd conn, fds.conn fd = some conn → conn.server = k → fds'.conn fd = some conn) :
    t.Owned k fds' := by
  refine ⟨h.interest, h.nodup, fun fd hfd hne => ?_, h.reading, fun fd conn hacc => ?_⟩
  · obtain ⟨conn, hfd, hk⟩ := h.pending fd hfd hne
    exact ⟨conn, hconn fd conn hfd hk, hk⟩
  · have hmade := h.accepting fd conn hacc
    cases conn with
    | none => exact hmade
    | some conn =>
        obtain ⟨hfd, hk, hlt⟩ := hmade
        exact ⟨hconn fd conn hfd hk, hk, by omega⟩

/-- A step that deals with no further fd. -/
theorem EpollThread.Owned.move (h : t.Owned k fds) (hfd : t'.m_server_fd = t.m_server_fd)
    (hinterest : ∀ p ∈ t'.interest, p.2.server = k)
    (hpending : t'.pc.pending.Sublist t.pc.pending)
    (hreading : ∀ fd, t'.pc.reading = some fd → fd ∈ t'.pc.pending ∧ fd ≠ t.m_server_fd)
    (hacc : ∀ x, t'.pc.accepting = some x → t.pc.accepting = some x) : t'.Owned k fds := by
  refine ⟨hinterest, h.nodup.sublist hpending, fun fd hmem hne => ?_, ?_, ?_⟩
  · exact h.pending fd (hpending.subset hmem) (hfd ▸ hne)
  · rw [hfd]
    exact hreading
  · exact fun fd conn hx => h.accepting fd conn (hacc _ hx)

/-- A step on to the rest of the batch. -/
theorem EpollThread.Owned.rest {fd : ℤ} (h : t.Owned k fds)
    (hfd : t'.m_server_fd = t.m_server_fd) (hinterest : t'.interest = t.interest)
    (hpending : t.pc.pending = fd :: t'.pc.pending) (hreading : t'.pc.reading = none)
    (hconn : ∀ fd' conn, fd' ≠ fd → fds.conn fd' = some conn → fds'.conn fd' = some conn)
    (hacc : ∀ client_fd conn, t'.pc.accepting = some (client_fd, conn) →
      fds'.Accepting k client_fd conn) : t'.Owned k fds' := by
  have hnd := h.nodup
  rw [hpending] at hnd
  obtain ⟨hnot, hnd⟩ := List.nodup_cons.mp hnd
  refine ⟨by rw [hinterest]; exact h.interest, hnd, fun fd' hmem hne => ?_, ?_, hacc⟩
  · obtain ⟨conn, hfd', hk⟩ :=
      h.pending fd' (hpending ▸ List.mem_cons_of_mem _ hmem) (hfd ▸ hne)
    exact ⟨conn, hconn fd' conn (fun heq => hnot (heq ▸ hmem)) hfd', hk⟩
  · simp [hreading]

/-- What `accept` has returned. -/
theorem Descriptors.accepting_accept (fds : Descriptors) (k : ℕ) (client_fd : ℤ) :
    (fds.accept k client_fd).Accepting k client_fd (fds.accepted k client_fd) := by
  by_cases h0 : 0 ≤ client_fd
  · simp [Descriptors.accepted, Descriptors.accept, Descriptors.Accepting, h0]
  · rw [Descriptors.accepted, if_neg h0]
    exact not_le.mp h0

/-- An action keeps the descriptors that a thread has its own. -/
theorem ThreadEffect.owned (h : ThreadEffect k t fds act t' fds' ns) (hown : t.Owned k fds)
    (hwait : ∀ events, act = .epollWait events → events.Nodup ∧ ∀ fd ∈ events,
      fd = t.m_server_fd ∨ ∃ p ∈ t.interest, p.1 = fd ∧ fds.conn fd = some p.2)
    (hfree : ∀ client_fd, act = .accept client_fd → 0 ≤ client_fd → fds.conn client_fd = none) :
    t'.Owned k fds' := by
  cases h with
  | store _ => exact hown.move rfl hown.interest (.refl _) hown.reading fun _ h => h
  | entry hpc | again hpc =>
      exact hown.move rfl hown.interest (List.nil_sublist _) (by simp [ThreadPc.reading])
        (by simp [ThreadPc.accepting])
  | test hpc =>
      refine hown.move rfl hown.interest ?_ ?_ ?_ <;>
        cases t.m_run_thread <;>
        simp [ThreadPc.pending, ThreadPc.reading, ThreadPc.accepting]
  | wait events hpc =>
      obtain ⟨hnd, hmem⟩ := hwait events rfl
      refine ⟨hown.interest, hnd, fun fd hfd hne => ?_, by simp [ThreadPc.reading],
        by simp [ThreadPc.accepting]⟩
      obtain ⟨p, hp, -, hconn⟩ := (hmem fd hfd).resolve_left hne
      exact ⟨p.2, hconn, hown.interest p hp⟩
  | @accept client_fd events hpc =>
      refine hown.rest rfl rfl (by rw [hpc]; rfl) rfl
        (fun _ _ _ => fds.accept_keeps (hfree client_fd rfl)) fun fd conn hacc => ?_
      simp only [ThreadPc.accepting, Option.some.injEq, Prod.mk.injEq] at hacc
      obtain ⟨rfl, rfl⟩ := hacc
      exact fds.accepting_accept k client_fd
  | @add ok client_fd conn events hpc =>
      have haccepting := hown.accepting client_fd conn (by rw [hpc, ThreadPc.accepting])
      refine hown.move rfl (fun p hp => ?_) (by rw [hpc]; exact .refl _)
        (by simp [ThreadPc.reading]) (by rw [hpc]; exact fun _ h => h)
      rcases mem_addInterest hp with hp | ⟨rfl, hconn⟩
      · exact hown.interest p hp
      · rw [hconn] at haccepting
        exact haccepting.2.1
  | connected m_client_id hpc =>
      exact hown.move rfl hown.interest (by rw [hpc]; exact .refl _) (by simp [ThreadPc.reading])
        (by simp [ThreadPc.accepting])
  | @ended bs fd events hpc hfd hbs | @read bs fd events hpc hfd hbs =>
      refine hown.move rfl hown.interest (by rw [hpc]; exact .refl _) (fun fd' hreading => ?_)
        (by simp [ThreadPc.accepting])
      obtain rfl : fd = fd' := by simpa [ThreadPc.reading] using hreading
      exact ⟨List.mem_cons_self, hfd⟩
  | received hpc hc =>
      exact hown.move rfl hown.interest (by rw [hpc]; exact List.sublist_cons_self _ _)
        (by simp [ThreadPc.reading]) (by simp [ThreadPc.accepting])
  | disconnected hpc =>
      exact hown.move rfl hown.interest (by rw [hpc]; exact .refl _) (by simp [ThreadPc.reading])
        (by simp [ThreadPc.accepting])
  | @delete ok fd events hpc =>
      refine hown.move rfl (fun p hp => ?_) (by rw [hpc]; exact .refl _) (fun fd' hreading => ?_)
        (by simp [ThreadPc.accepting])
      · exact hown.interest p (mem_of_mem_deleteInterest hp)
      · have hown := hown.reading fd'
        rw [hpc] at hown
        exact hown hreading
  | @close fd events hpc =>
      refine hown.rest rfl rfl (by rw [hpc]; rfl) rfl (fun fd' conn hne hconn => ?_)
        (by simp [ThreadPc.accepting])
      rw [fds.conn_close_of_ne hne]
      exact hconn

end

/-! ### The process, step by step -/

section

variable {s s' s₀ : SharedDescriptors} {k : ℕ} {t t' : EpollThread} {fds' : Descriptors}
  {act : ThreadAct} {i : DescriptorInput} {is : List DescriptorInput} {o os : List DescriptorObs}
  {client : ConnectedClient}

/-- A worker has taken a step. -/
def SharedDescriptors.put (s : SharedDescriptors) (k : ℕ) (t' : EpollThread)
    (fds' : Descriptors) : SharedDescriptors :=
  { s with servers := s.servers.set k t', fds := fds' }

/-- **Inversion of a step of the process.** -/
theorem SharedDescriptors.next_cases (h : s.next i = some (s', o)) :
    (∃ k act t t' fds' ns, i = .work k act ∧ s.servers[k]? = some t ∧
      ThreadEffect k t s.fds act t' fds' ns ∧ s' = s.put k t' fds' ∧
      o = ns.map DescriptorObs.notify) ∨
    (∃ server_id client_id msg client, i = .sendToClient server_id client_id msg ∧
      s.Sendable client ∧ s' = { s with calls := s.calls ++ [{ client, msg }] } ∧ o = []) ∨
    ∃ j call, i = .write j ∧ s.calls[j]? = some call ∧
      s' = { s with calls := s.calls.eraseIdx j } ∧
      o = [.write call.client call.msg (s.fds.conn call.client.m_fd)] := by
  cases i with
  | work k act =>
      simp only [SharedDescriptors.next, bind, Option.bind_eq_some_iff, Option.some.injEq,
        Prod.mk.injEq] at h
      obtain ⟨t, ht, ⟨⟨t', fds'⟩, ns⟩, hr, rfl, rfl⟩ := h
      exact .inl ⟨k, act, t, t', fds', ns, rfl, ht, EpollThread.next_effect hr, rfl, rfl⟩
  | sendToClient server_id client_id msg =>
      simp only [SharedDescriptors.next, bind, Option.bind_eq_some_iff, Option.some.injEq,
        Prod.mk.injEq] at h
      obtain ⟨k, hk, t, ht, client, hc, rfl, rfl⟩ := h
      exact .inr (.inl ⟨server_id, client_id, msg, client, rfl,
        .registered hk ht (Keyed.mem_of_find hc), rfl, rfl⟩)
  | write j =>
      simp only [SharedDescriptors.next, bind, Option.bind_eq_some_iff, Option.some.injEq,
        Prod.mk.injEq] at h
      obtain ⟨call, hj, rfl, rfl⟩ := h
      exact .inr (.inr ⟨j, call, rfl, hj, rfl, rfl⟩)

/-- Workers do not change the ids of their servers. -/
theorem SharedDescriptors.route_put (hk : s.servers[k]? = some t)
    (hid : t'.m_server_id = t.m_server_id) : (s.put k t' fds').route = s.route := by
  funext server_id
  rw [SharedDescriptors.route, SharedDescriptors.put, Keyed.map_set hk hid,
    SharedDescriptors.route]

/-- The clients that can be written to after a step are those before it, but for a new one. -/
theorem SharedDescriptors.sendable_put {ns : List Notification} (hk : s.servers[k]? = some t)
    (heff : ThreadEffect k t s.fds act t' fds' ns) (h : (s.put k t' fds').Sendable client) :
    s.Sendable client ∨ ∃ events, t.pc = .added client.m_fd client.conn events := by
  cases h with
  | calling h => exact .inl (.calling h)
  | @registered server_id j u _ hj hu h =>
      rw [SharedDescriptors.route_put hk heff.frame.1] at hj
      rcases Keyed.getElem?_set_cases hk hu with ⟨rfl, rfl⟩ | ⟨-, hu⟩
      · rcases heff.clients h with h | hadded
        · exact .inl (.registered hj hk h)
        · exact .inr hadded
      · exact .inl (.registered hj hu h)

/-- A thread that keeps its id and its clients keeps what may be sent to. -/
theorem SharedDescriptors.sendable_put_of_eq (hk : s.servers[k]? = some t)
    (hid : t'.m_server_id = t.m_server_id) (hlist : t'.m_client_list = t.m_client_list)
    (h : s.Sendable client) : (s.put k t' fds').Sendable client := by
  cases h with
  | calling h => exact .calling h
  | @registered server_id j u _ hj hu h =>
      have hroute : (s.put k t' fds').route = s.route := SharedDescriptors.route_put hk hid
      rw [← hroute] at hj
      by_cases hjk : j = k
      · subst hjk
        obtain rfl := Option.some.inj (hk.symm.trans hu)
        obtain ⟨hlt, -⟩ := List.getElem?_eq_some_iff.mp hk
        exact .registered hj (List.getElem?_set_self hlt) (hlist ▸ h)
      · exact .registered hj ((List.getElem?_set_ne (Ne.symm hjk)).trans hu) h

/-- What is known of a client's connection. -/
def Descriptors.Knows (fds : Descriptors) (client : ConnectedClient) : Prop :=
  match client.conn with
  | none => client.m_fd < 0
  | some conn => conn.number < fds.accepts

/-- Workers deal with fds of their own server, clients carry connections that there have been,
and the clients of a server have different ids. -/
structure SharedDescriptors.WellFormed (s : SharedDescriptors) : Prop where
  owned : ∀ (k : ℕ) (t : EpollThread), s.servers[k]? = some t → t.Owned k s.fds
  negative : ∀ fd < 0, s.fds.conn fd = none
  known : ∀ client, s.Sendable client → s.fds.Knows client
  nodup : ∀ t ∈ s.servers, (clientIds t.m_client_list).Nodup

/-- The fd of a client that can be written to names the client's connection, or nothing. -/
def SharedDescriptors.Current (s : SharedDescriptors) : Prop :=
  ∀ client, s.Sendable client →
    s.fds.conn client.m_fd = none ∨ s.fds.conn client.m_fd = client.conn

/-- What has just been accepted is known, and its fd names it. -/
theorem EpollThread.Owned.accepted {fds : Descriptors} {events : List ℤ} (hown : t.Owned k fds)
    (hpc : t.pc = .added client.m_fd client.conn events) (hneg : ∀ fd < 0, fds.conn fd = none) :
    fds.Knows client ∧ fds.conn client.m_fd = client.conn := by
  have haccepting := hown.accepting _ _ (by rw [hpc, ThreadPc.accepting])
  rw [Descriptors.Knows]
  cases hconn : client.conn with
  | none =>
      rw [hconn] at haccepting
      exact ⟨haccepting, hneg _ haccepting⟩
  | some conn =>
      rw [hconn] at haccepting
      exact ⟨haccepting.2.2, haccepting.1⟩

/-- Fewer or the same calls under way. -/
theorem SharedDescriptors.sendable_calls {calls : List SendingCall}
    (hcalls : ∀ call ∈ calls, s.Sendable call.client)
    (h : ({ s with calls } : SharedDescriptors).Sendable client) : s.Sendable client := by
  cases h with
  | calling h => exact hcalls _ h
  | registered hk ht h => exact .registered hk ht h

/-! ### The invariants -/

/-- The promises of the kernel to a worker's step. -/
theorem DescriptorInput.Legal.work (hl : DescriptorInput.Legal s (.work k act))
    (hk : s.servers[k]? = some t) :
    (∀ events, act = .epollWait events → events.Nodup ∧ ∀ fd ∈ events,
      fd = t.m_server_fd ∨ ∃ p ∈ t.interest, p.1 = fd ∧ s.fds.conn fd = some p.2) ∧
    ∀ client_fd, act = .accept client_fd → 0 ≤ client_fd → s.fds.conn client_fd = none := by
  constructor
  · rintro events rfl
    obtain ⟨-, hnd, hmem⟩ := hl
    exact ⟨hnd, fun fd hfd => hmem fd hfd t hk⟩
  · rintro client_fd rfl h0
    rcases hl with rfl | ⟨-, hfree, -⟩
    · exact absurd h0 (by decide)
    · exact hfree

/-- Each step keeps the state well formed. -/
theorem SharedDescriptors.WellFormed.step (h : s.WellFormed)
    (ht : SharedDescriptors.Step s i s' o) : s'.WellFormed := by
  obtain ⟨hl, ht⟩ := ht
  rcases SharedDescriptors.next_cases ht with ⟨k, act, t, t', fds', ns, rfl, hk, heff, rfl, -⟩ |
    ⟨server_id, client_id, msg, client, rfl, hc, rfl, -⟩ | ⟨j, call, rfl, hj, rfl, -⟩
  · obtain ⟨hwait, hfree⟩ := hl.work hk
    have hown := h.owned k t hk
    obtain ⟨haccepts, hkeeps⟩ := heff.keeps_conn hown hfree
    have hknows : ∀ client, s.fds.Knows client → fds'.Knows client := by
      intro client hknows
      rw [Descriptors.Knows] at hknows ⊢
      cases hconn : client.conn with
      | none => rwa [hconn] at hknows
      | some conn =>
          rw [hconn] at hknows
          exact hknows.trans_le haccepts
    refine ⟨fun j u hu => ?_, fun fd hfd => ?_, fun client hclient => ?_, fun u hu => ?_⟩
    · rcases Keyed.getElem?_set_cases hk hu with ⟨rfl, rfl⟩ | ⟨hj, hu⟩
      · exact heff.owned hown hwait hfree
      · exact (h.owned j u hu).frame haccepts fun fd conn hconn hserver =>
          hkeeps fd conn hconn (by rwa [hserver])
    · change fds'.conn fd = none
      rcases heff.conn with ⟨client_fd, -, rfl, -⟩ | ⟨-, -, hconn⟩
      · rw [s.fds.conn_accept, if_neg (by omega)]
        exact h.negative fd hfd
      · rcases hconn fd with hconn | hconn
        · rw [hconn]
          exact h.negative fd hfd
        · exact hconn
    · rcases SharedDescriptors.sendable_put hk heff hclient with hclient | ⟨events, hpc⟩
      · exact hknows client (h.known client hclient)
      · exact hknows client (hown.accepted hpc h.negative).1
    · rcases List.mem_or_eq_of_mem_set hu with hu | rfl
      · exact h.nodup u hu
      · have hnd := h.nodup t (List.mem_of_getElem? hk)
        cases heff with
        | connected m_client_id hpc =>
            exact Keyed.nodup_map_concat hnd (hl.2.1 t (List.mem_of_getElem? hk))
        | disconnected hpc => exact nodup_clientIds_removeClientInfoFd hnd
        | store _ | entry _ | test _ | wait _ _ | again _ | accept _ _ | add _ _ | ended _ _ _ _
        | read _ _ _ _ | received _ _ | delete _ _ | close _ => exact hnd
  · refine ⟨h.owned, h.negative, fun client' hclient' => h.known client' ?_, h.nodup⟩
    refine SharedDescriptors.sendable_calls (fun call hcall => ?_) hclient'
    rcases List.mem_append.mp hcall with hcall | hcall
    · exact .calling hcall
    · rw [List.mem_singleton.mp hcall]
      exact hc
  · refine ⟨h.owned, h.negative, fun client' hclient' => h.known client' ?_, h.nodup⟩
    exact SharedDescriptors.sendable_calls
      (fun call hcall => .calling (List.mem_of_mem_eraseIdx hcall)) hclient'

/-- **When the fds of clients stay their own.** Where each client's fd names the client's
connection or nothing, that is so after a step exactly if the step shares no fd. -/
theorem SharedDescriptors.Current.step (hcur : s.Current) (h : s.WellFormed)
    (ht : SharedDescriptors.Step s i s' o) : s'.Current ↔ Unshared s i := by
  obtain ⟨hl, ht⟩ := ht
  rcases SharedDescriptors.next_cases ht with ⟨k, act, t, t', fds', ns, rfl, hk, heff, rfl, -⟩ |
    ⟨server_id, client_id, msg, client, rfl, hc, rfl, -⟩ | ⟨j, call, rfl, hj, rfl, -⟩
  · rcases heff.conn with ⟨client_fd, rfl, rfl, hlist⟩ | ⟨-, hact, hconn⟩
    · constructor
      · intro hcur' h0 client hclient hfd
        -- the client's fd now names a connection that is not the client's
        have hconn : (s.fds.accept k client_fd).conn client.m_fd =
            some { server := k, number := s.fds.accepts } := by
          rw [s.fds.conn_accept, if_pos ⟨h0, hfd⟩]
        have hnames : (s.fds.accept k client_fd).conn client.m_fd = none ∨
            (s.fds.accept k client_fd).conn client.m_fd = client.conn :=
          hcur' client (SharedDescriptors.sendable_put_of_eq hk heff.frame.1 hlist hclient)
        rw [hconn] at hnames
        have hknown := h.known client hclient
        rw [Descriptors.Knows, ← hnames.resolve_left (by simp)] at hknown
        exact absurd hknown (Nat.lt_irrefl _)
      · intro hunshared client hclient
        rcases SharedDescriptors.sendable_put hk heff hclient with hclient | ⟨events, hpc⟩
        · change (s.fds.accept k client_fd).conn client.m_fd = none ∨
            (s.fds.accept k client_fd).conn client.m_fd = client.conn
          have hne : ¬ (0 ≤ client_fd ∧ client.m_fd = client_fd) :=
            fun hshared => hunshared hshared.1 client hclient hshared.2
          rw [s.fds.conn_accept, if_neg hne]
          exact hcur client hclient
        · cases heff with
          | accept _ hbatch =>
              rw [hbatch] at hpc
              cases hpc
    · have hunshared : Unshared s (.work k act) := by
        cases act with
        | accept client_fd => exact absurd rfl (hact client_fd)
        | store _ | advance | epollWait _ | epollCtl _ | newClient _ | read _ => trivial
      refine iff_of_true (fun client hclient => ?_) hunshared
      change fds'.conn client.m_fd = none ∨ fds'.conn client.m_fd = client.conn
      rcases hconn client.m_fd with hconn | hconn
      · rw [hconn]
        rcases SharedDescriptors.sendable_put hk heff hclient with hclient | ⟨events, hpc⟩
        · exact hcur client hclient
        · exact .inr ((h.owned k t hk).accepted hpc h.negative).2
      · exact .inl hconn
  · refine iff_of_true (fun client' hclient' => hcur client' ?_) trivial
    refine SharedDescriptors.sendable_calls (fun call hcall => ?_) hclient'
    rcases List.mem_append.mp hcall with hcall | hcall
    · exact .calling hcall
    · rw [List.mem_singleton.mp hcall]
      exact hc
  · refine iff_of_true (fun client' hclient' => hcur client' ?_) trivial
    exact SharedDescriptors.sendable_calls
      (fun call hcall => .calling (List.mem_of_mem_eraseIdx hcall)) hclient'

/-- Without clients and calls nothing may be sent to. -/
theorem SharedDescriptors.not_sendable (hcalls : s.calls = [])
    (hlist : ∀ t ∈ s.servers, t.m_client_list = []) : ¬ s.Sendable client := by
  intro hclient
  cases hclient with
  | calling hcall =>
      rw [hcalls] at hcall
      cases hcall
  | registered hk ht hc =>
      rw [hlist _ (List.mem_of_getElem? ht)] at hc
      cases hc

/-- The initial state is well formed and current. -/
theorem SharedDescriptors.Initial.wellFormed (h : s.Initial) : s.WellFormed ∧ s.Current := by
  have hnone : ∀ client, ¬ s.Sendable client :=
    fun client => SharedDescriptors.not_sendable h.calls h.client_list
  refine ⟨⟨fun k t ht => ?_, fun fd _ => by rw [h.conn], fun client hc => absurd hc (hnone client),
    fun t ht => by simp [h.client_list t ht]⟩, fun client hc => absurd hc (hnone client)⟩
  have hmem := List.mem_of_getElem? ht
  refine ⟨?_, ?_, ?_, ?_, ?_⟩ <;>
    simp [h.interest t hmem, h.pc t hmem, ThreadPc.pending, ThreadPc.reading,
      ThreadPc.accepting]

/-- Every state of a run is well formed. -/
theorem SharedDescriptors.wellFormed_run (h₀ : s₀.WellFormed)
    (h : Run SharedDescriptors.Step s₀ is os s) : s.WellFormed :=
  h.invariant (P := fun _ _ s => s.WellFormed) h₀ fun _ hwf ht => hwf.step ht

/-- While no descriptor is shared, every entry stands for the connection it was made for. -/
theorem SharedDescriptors.current_run (h₀ : s₀.WellFormed) (hcur : s₀.Current)
    (h : Run SharedDescriptors.Step s₀ is os s)
    (hC : Along SharedDescriptors.Step Unshared s₀ is) : s.Current :=
  h.invariant_along deterministic_guarded hcur
    (fun hrun hcur hi ht => (hcur.step (wellFormed_run h₀ hrun) ht).mpr hi) hC

/-- While the fds of clients are their own, what is written reaches them or nobody. -/
theorem SharedDescriptors.Current.addressed (hcur : s.Current)
    (ht : SharedDescriptors.Step s i s' o) : ∀ x ∈ o, x.Addressed := by
  intro x hx
  rcases SharedDescriptors.next_cases ht.2 with ⟨k, act, t, t', fds', ns, -, -, -, -, rfl⟩ |
    ⟨server_id, client_id, msg, client, -, -, -, rfl⟩ | ⟨j, call, -, hj, -, rfl⟩
  · obtain ⟨n, -, rfl⟩ := List.mem_map.mp hx
    trivial
  · cases hx
  · rw [List.mem_singleton.mp hx]
    exact hcur call.client (.calling (List.mem_of_getElem? hj))

/-- So every write goes to the client it is addressed to. -/
theorem SharedDescriptors.addressed_run (h₀ : s₀.WellFormed) (hcur : s₀.Current)
    (h : Run SharedDescriptors.Step s₀ is os s)
    (hC : Along SharedDescriptors.Step Unshared s₀ is) : ∀ x ∈ os, x.Addressed := by
  induction h with
  | start => simp
  | step hrun ht ih =>
      obtain ⟨hC, -⟩ := (along_concat deterministic_guarded hrun).mp hC
      exact List.forall_mem_append.mpr ⟨ih hC, (current_run h₀ hcur hrun hC).addressed ht⟩

/-- **Nothing goes astray before another accept exactly if the fds of clients are their own.** -/
theorem SharedDescriptors.safe_iff_current (h : s.WellFormed) : s.Safe ↔ s.Current := by
  constructor
  · intro hsafe client hclient
    have hwrite : ∀ (s₁ : SharedDescriptors) (call : SendingCall) (j : ℕ),
        s₁.calls[j]? = some call → s₁.Safe → s₁.fds.conn call.client.m_fd = none ∨
          s₁.fds.conn call.client.m_fd = call.client.conn := by
      intro s₁ call j hj hsafe
      have ht : SharedDescriptors.Step s₁ (.write j) { s₁ with calls := s₁.calls.eraseIdx j }
          [.write call.client call.msg (s₁.fds.conn call.client.m_fd)] :=
        ⟨trivial, by simp [SharedDescriptors.next, hj]⟩
      exact hsafe _ _ _ (.single ht) (by simp [DescriptorInput.isAccept]) _
        (List.mem_singleton_self _)
    cases hclient with
    | @calling call hcall =>
        obtain ⟨j, hj⟩ := List.getElem?_of_mem hcall
        exact hwrite s call j hj hsafe
    | @registered server_id k t _ hk ht hc =>
        -- a further call looks the client up
        have hfind : findClientInfo t.m_client_list (getClientId client) = some client :=
          Keyed.find_eq_some_of_mem (h.nodup t (List.mem_of_getElem? ht)) hc
        have hlookup : SharedDescriptors.Step s
            (.sendToClient server_id (getClientId client) [])
            { s with calls := s.calls ++ [⟨client, []⟩] } [] :=
          ⟨trivial, by simp [SharedDescriptors.next, hk, ht, hfind]⟩
        refine hwrite { s with calls := s.calls ++ [⟨client, []⟩] } ⟨client, []⟩ s.calls.length
          (by simp) fun js os s' hrun hjs => ?_
        refine hsafe _ _ _ (.cons hlookup hrun) fun j hj => ?_
        rcases List.mem_cons.mp hj with rfl | hj
        · rfl
        · exact hjs j hj
  · intro hcur js os s' hrun hjs
    refine SharedDescriptors.addressed_run h hcur hrun ?_
    intro pre i post os₁ s₁ hjs' _
    have hi : i.isAccept = false := hjs i (by simp [hjs'])
    cases i with
    | work k act =>
        cases act with
        | accept client_fd => cases hi
        | store _ | advance | epollWait _ | epollCtl _ | newClient _ | read _ => trivial
    | sendToClient _ _ _ | write _ => trivial

/-- **When what is written for a client reaches the client.** In a run in which no `accept`
returns the number of a client that can still be written to, everything written reaches the
connection that its client was made for, or nobody; and of each step of such a run, with the
writes up to the next `accept`, that is so exactly if it returns no such number. -/
theorem addressed_of_unshared (h₀ : s₀.Initial) :
    (∀ is os s, Run SharedDescriptors.Step s₀ is os s →
      Along SharedDescriptors.Step Unshared s₀ is → ∀ x ∈ os, x.Addressed) ∧
    ∀ is os s i s' o, Run SharedDescriptors.Step s₀ is os s →
      Along SharedDescriptors.Step Unshared s₀ is → SharedDescriptors.Step s i s' o →
      (s'.Safe ↔ Unshared s i) := by
  obtain ⟨hwf, hcur⟩ := h₀.wellFormed
  refine ⟨fun is os s hrun hC => SharedDescriptors.addressed_run hwf hcur hrun hC, ?_⟩
  intro is os s i s' o hrun hC ht
  have hwf' := SharedDescriptors.wellFormed_run hwf hrun
  rw [SharedDescriptors.safe_iff_current (hwf'.step ht)]
  exact (SharedDescriptors.current_run hwf hcur hrun hC).step hwf' ht

end

/-! ### Two servers -/

/-- A server that has just been started. -/
def startedThread (m_server_id : ℕ) (m_server_fd : ℤ) : EpollThread :=
  { kind := .inet, m_server_id, m_server_fd, m_run_thread := false, m_client_list := [],
    interest := [], pc := .entry }

/-- Two servers that have just been started. -/
def twoServers : SharedDescriptors :=
  { servers := [startedThread 1 3, startedThread 2 4]
    fds := { conn := fun _ => none, accepts := 0 }
    calls := [] }

/-- The two servers have no clients yet. -/
theorem twoServers_initial : twoServers.Initial :=
  ⟨by decide, by decide, by decide, rfl, rfl⟩

/-- A worker accepts a connection. -/
def accepting (k : ℕ) (m_server_fd client_fd : ℤ) : List DescriptorInput :=
  [.work k .advance, .work k .advance, .work k (.epollWait [m_server_fd]),
    .work k (.accept client_fd)]

/-- A worker makes a client for it, and waits. -/
def registering (k m_client_id : ℕ) : List DescriptorInput :=
  [.work k (.epollCtl true), .work k (.newClient m_client_id), .work k .advance,
    .work k .advance]

/-- A worker finds that a connection has ended, and closes its fd. -/
def closing (k : ℕ) (client_fd : ℤ) : List DescriptorInput :=
  [.work k (.epollWait [client_fd]), .work k (.read (some [])), .work k (.epollCtl true),
    .work k .advance]

/-- A client is accepted, and sent a byte. -/
theorem addressed_of_unshared_oneClient :
    DescriptorObs.Addressed (.write ⟨⟨⟨true, 16⟩, 7⟩, some ⟨0, 0⟩⟩ [42] (some ⟨0, 0⟩)) := by
  have hrun : ∃ s, Run SharedDescriptors.Step twoServers
      (accepting 0 3 7 ++ registering 0 16 ++ [.sendToClient 1 16 [42], .write 0])
      [.notify (.onClientConnected 1 16),
        .write ⟨⟨⟨true, 16⟩, 7⟩, some ⟨0, 0⟩⟩ [42] (some ⟨0, 0⟩)] s :=
    ⟨_, run_guarded_of_exec rfl⟩
  obtain ⟨s, hrun⟩ := hrun
  refine (addressed_of_unshared twoServers_initial).1 _ _ _ hrun ?_ _ (by simp)
  have hT : Deterministic SharedDescriptors.Step := deterministic_guarded
  refine .cons hT ⟨trivial, rfl⟩ trivial (.cons hT ⟨trivial, rfl⟩ trivial
    (.cons hT ⟨by decide, rfl⟩ trivial (.cons hT ⟨by decide, rfl⟩ ?_ (.cons hT ⟨trivial, rfl⟩
    trivial (.cons hT ⟨by decide, rfl⟩ trivial (.cons hT ⟨trivial, rfl⟩ trivial
    (.cons hT ⟨trivial, rfl⟩ trivial (.cons hT ⟨trivial, rfl⟩ trivial
    (.cons hT ⟨trivial, rfl⟩ trivial along_nil)))))))))
  -- there are no clients when the first one is accepted
  exact fun _ client hclient => absurd hclient (SharedDescriptors.not_sendable rfl (by decide))

/-- The second server accepts a connection under the number that the first server has closed,
before the first server has removed its client: what is sent to the client is written to the
second server's connection. -/
theorem reusedFd_misaddressed :
    ∃ s, Run SharedDescriptors.Step twoServers
        (accepting 0 3 7 ++ registering 0 16 ++ closing 0 7 ++ accepting 1 4 7 ++
          [.sendToClient 1 16 [42], .write 0])
        [.notify (.onClientConnected 1 16),
          .write ⟨⟨⟨true, 16⟩, 7⟩, some ⟨0, 0⟩⟩ [42] (some ⟨1, 1⟩)] s ∧
      ¬ DescriptorObs.Addressed (.write ⟨⟨⟨true, 16⟩, 7⟩, some ⟨0, 0⟩⟩ [42] (some ⟨1, 1⟩)) := by
  refine ⟨_, run_guarded_of_exec rfl, fun h => ?_⟩
  rcases h with h | h <;> cases h

end AnyServer
