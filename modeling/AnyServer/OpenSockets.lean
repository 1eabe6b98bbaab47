import AnyServer.StreamFidelity

/-!
# Registry and Open Sockets

The loop of the epoll servers registers a client after every call of `accept`, whatever
`accept` and the `epoll_ctl` after it have returned, and however many clients there are
already. A call of `accept` that fails leaves a client with the fd `-1`; a call of `epoll_ctl`
that fails leaves a client that nothing will ever be read from; and `m_max_client` limits
nothing.

What the registry is meant to hold is `Agree`: the connections that are open and that epoll
watches, each once. It does so in every state of a run exactly if every call of `accept` in
it succeeds and the `epoll_ctl` that follows does too. It stays within a number of clients
exactly if none is accepted while that number is reached.

## Main results

* `registry_agrees_iff`: when registry, epoll set and open sockets agree.
* `max_client_iff`: when the registry stays within `m_max_client`.
-/

namespace AnyServer

open Lts

/-! ### What the registry is meant to hold -/

/-- `accept` has returned the fd, it has not been closed since, and epoll watches it. -/
def Kernel.Connected (kernel : Kernel) (fd : ℤ) : Prop :=
  (kernel.conn fd).isSome ∧ fd ∈ kernel.interest

/-- The fds registered are distinct and are the connections. -/
structure Agree (w : EpollWorker) : Prop where
  nodup : (clientFds w.server.m_client_list).Nodup
  connected_iff : ∀ fd, fd ∈ clientFds w.server.m_client_list ↔ w.kernel.Connected fd

/-- Every client reported as connected is registered under the fd of the connection that
caused the report. -/
def ConnectsReported (w : EpollWorker) (o : List EpollObs) : Prop :=
  ∀ conn server_id client_id, .notify conn (.onClientConnected server_id client_id) ∈ o →
    ∃ c ∈ w.server.m_client_list, c.m_client_id = client_id ∧ w.kernel.conn c.m_fd = conn ∧
      w.kernel.Connected c.m_fd

/-- An event on the listening socket finds an `accept` and an `epoll_ctl` that succeed. -/
def AcceptsCleanly (w : EpollWorker) (i : EpollInput) : Prop :=
  ∀ sys events, i = .handle sys → w.pc = .batch (w.server.m_server_fd :: events) →
    0 ≤ sys.accept ∧ sys.epoll_ctl = true

/-- An event on the listening socket finds fewer than `m_max_client` clients. -/
def AcceptsBelow (m_max_client : ℕ) (w : EpollWorker) (i : EpollInput) : Prop :=
  ∀ sys events, i = .handle sys → w.pc = .batch (w.server.m_server_fd :: events) →
    w.server.m_client_list.length < m_max_client

/-! ### Steps -/

section

variable {kind : EpollKind} {w w' w₀ : EpollWorker} {i : EpollInput} {o os : List EpollObs}
  {is : List EpollInput} {fd fd' : ℤ} {events : List ℤ} {sys : SysResults} {kernel : Kernel}

/-- The results of the calls decide what the loop does. -/
theorem EpollWorker.deterministic_step : Deterministic (EpollWorker.Step kind) := by
  intro w i w₁ o₁ w₂ o₂ h₁ h₂
  cases h₁ with
  | store b => cases h₂; exact ⟨rfl, rfl⟩
  | entry h =>
      cases h₂ with
      | entry _ => exact ⟨rfl, rfl⟩
      | enter h' _ | leave h' _ | again h' => cases h.symm.trans h'
  | enter h hr =>
      cases h₂ with
      | enter _ _ => exact ⟨rfl, rfl⟩
      | leave _ hr' => cases hr.symm.trans hr'
      | entry h' | again h' => cases h.symm.trans h'
  | leave h hr =>
      cases h₂ with
      | leave _ _ => exact ⟨rfl, rfl⟩
      | enter _ hr' => cases hr.symm.trans hr'
      | entry h' | again h' => cases h.symm.trans h'
  | wait events h hl => cases h₂; exact ⟨rfl, rfl⟩
  | handle sys h hl hs =>
      cases h₂ with
      | handle _ h' _ hs' =>
          obtain ⟨rfl, rfl⟩ := List.cons.inj (EpollPc.batch.inj (h.symm.trans h'))
          cases hs.symm.trans hs'
          exact ⟨rfl, rfl⟩
  | again h =>
      cases h₂ with
      | again _ => exact ⟨rfl, rfl⟩
      | entry h' | enter h' _ | leave h' _ => cases h.symm.trans h'

/-- The tables hold along every run of a worker that `start` has just created. -/
theorem Tables.run (h₀ : w₀.Initial) (h : Run (EpollWorker.Step kind) w₀ is os w) : Tables w :=
  h.invariant (P := fun _ _ w => Tables w) h₀.tables fun _ ih ht => ih.step ht

/-- What a step does to registry and kernel. -/
inductive RegistryEffect (w : EpollWorker) (i : EpollInput) (w' : EpollWorker)
    (o : List EpollObs) : Prop
  | accepted (sys : SysResults) (events : List ℤ) (hi : i = .handle sys)
      (hpc : w.pc = .batch (w.server.m_server_fd :: events))
      (hl : sys.Legal w w.server.m_server_fd)
      (hlist : w'.server.m_client_list = w.server.m_client_list ++
        [{ m_tcp := true, m_client_id := sys.m_client_id, m_fd := sys.accept }])
      (hkernel : w'.kernel = (w.kernel.accept sys.accept).epollCtlAdd sys.accept sys.epoll_ctl)
      (ho : o = [.notify (some w.kernel.accepts)
        (.onClientConnected w.server.m_server_id sys.m_client_id)])
  | closed (fd : ℤ) (ok : Bool) (hfd : fd ≠ w.server.m_server_fd)
      (hi : ∀ sys events, i = .handle sys → w.pc ≠ .batch (w.server.m_server_fd :: events))
      (hlist : w'.server.m_client_list = (removeClientInfoFd w.server.m_client_list fd).1)
      (hkernel : w'.kernel = (w.kernel.epollCtlDel fd ok).close fd)
      (ho : ∀ conn server_id client_id,
        .notify conn (.onClientConnected server_id client_id) ∉ o)
  | same (hi : ∀ sys events, i = .handle sys → w.pc ≠ .batch (w.server.m_server_fd :: events))
      (hlist : w'.server.m_client_list = w.server.m_client_list)
      (hkernel : w'.kernel = w.kernel ∨ w'.kernel = w.kernel.close w.server.m_server_fd)
      (ho : ∀ conn server_id client_id,
        .notify conn (.onClientConnected server_id client_id) ∉ o)

/-- What one step does to the client list and to the kernel's descriptors. -/
theorem EpollWorker.Step.registryEffect (ht : EpollWorker.Step kind w i w' o) :
    RegistryEffect w i w' o := by
  cases ht with
  | store b | entry _ | enter _ _ | wait _ _ _ | again _ =>
      exact .same (by simp) rfl (.inl rfl) (by simp)
  | leave hpc hr =>
      refine .same (by simp) rfl ?_ (by simp)
      cases kind with
      | inet => exact .inr rfl
      | unix => exact .inl rfl
  | handle sys hpc hl hs =>
      -- the event that is handled is the first of the batch
      have hne : ∀ {fd : ℤ} {events : List ℤ}, w.pc = .batch (fd :: events) →
          fd ≠ w.server.m_server_fd → ∀ (sys' : SysResults) events',
            EpollInput.handle sys = .handle sys' →
              w.pc ≠ .batch (w.server.m_server_fd :: events') := by
        intro fd events hpc hfd sys' events' _ hpc'
        exact hfd (List.cons.inj (EpollPc.batch.inj (hpc.symm.trans hpc'))).1
      cases handleEvent_effect hs with
      | accepted hfd =>
          subst hfd
          exact .accepted sys _ rfl hpc hl rfl rfl rfl
      | disconnected hfd hread => exact .closed _ _ hfd (hne hpc hfd) rfl rfl (by simp)
      | received bs client hfd hread hbs hc =>
          exact .same (hne hpc hfd) rfl (.inl rfl) (by simp)

/-! ### When they agree -/

/-- A closed descriptor is not connected; the others are as before. -/
theorem Kernel.connected_close :
    (kernel.close fd).Connected fd' ↔ fd' ≠ fd ∧ kernel.Connected fd' := by
  by_cases h : fd' = fd
  · simp [h, Kernel.Connected, Kernel.conn_close_self]
  · simp [h, Kernel.Connected, Kernel.close]

/-- So it is when the descriptor is taken out of the epoll set first. -/
theorem Kernel.connected_epollCtlDel_close {ok : Bool} :
    ((kernel.epollCtlDel fd ok).close fd).Connected fd' ↔ fd' ≠ fd ∧ kernel.Connected fd' := by
  rw [Kernel.connected_close]
  refine and_congr_right fun h => ?_
  cases ok with
  | false => rfl
  | true => simp [Kernel.Connected, Kernel.epollCtlDel, h]

/-- After an `accept` the new descriptor is connected too. -/
theorem Kernel.connected_accept (h : 0 ≤ fd) :
    ((kernel.accept fd).epollCtlAdd fd true).Connected fd' ↔
      fd' = fd ∨ kernel.Connected fd' := by
  by_cases hfd : fd' = fd
  · simp [hfd, Kernel.Connected, Kernel.conn_accept_self h, Kernel.epollCtlAdd]
  · rw [Kernel.Connected, Kernel.Connected, Kernel.conn_accept_epollCtlAdd_of_ne hfd]
    simp [hfd, Kernel.epollCtlAdd, Kernel.accept]

/-- Without clients and connections the two agree. -/
theorem EpollWorker.Initial.agree (h : w.Initial) : Agree w := by
  constructor <;> simp [h.client_list, Kernel.Connected, h.conn]

/-- With `accept` and `epoll_ctl` succeeding, agreement is kept. -/
theorem Agree.step (ha : Agree w) (h : Tables w) (hi : AcceptsCleanly w i)
    (ht : EpollWorker.Step kind w i w' o) : Agree w' ∧ ConnectsReported w' o := by
  have hnone : ∀ {o}, (∀ conn server_id client_id,
      .notify conn (.onClientConnected server_id client_id) ∉ o) → ConnectsReported w' o :=
    fun ho conn server_id client_id hmem => absurd hmem (ho conn server_id client_id)
  cases ht.registryEffect with
  | accepted sys events heq hpc hl hlist hkernel ho =>
      obtain ⟨hpos, hok⟩ := hi sys events heq hpc
      have hconn : w'.kernel.Connected sys.accept := by
        rw [hkernel, hok]
        exact (Kernel.connected_accept hpos).mpr (.inl rfl)
      refine ⟨⟨?_, fun fd => ?_⟩, ?_⟩
      · -- the fd that `accept` returned is open for no registered client
        have hfree : w.kernel.conn sys.accept = none := by
          rcases hl.accept rfl with ⟨hneg, -⟩ | ⟨-, hfree, -⟩
          · omega
          · exact hfree
        have hnew : sys.accept ∉ clientFds w.server.m_client_list := by
          intro hmem
          have := ((ha.connected_iff _).mp hmem).1
          simp [hfree] at this
        rw [hlist]
        exact Keyed.nodup_map_concat ha.nodup hnew
      · rw [hlist, hkernel, hok, clientFds_concat, Kernel.connected_accept hpos,
          ← ha.connected_iff, List.mem_append, List.mem_singleton]
        exact or_comm
      · intro conn server_id client_id hmem
        rw [ho] at hmem
        obtain ⟨rfl, rfl, rfl⟩ : conn = some w.kernel.accepts ∧
            server_id = w.server.m_server_id ∧ client_id = sys.m_client_id := by
          simpa using hmem
        refine ⟨_, by rw [hlist]; exact List.mem_append_right _ (List.mem_singleton_self _),
          rfl, ?_, hconn⟩
        rw [hkernel, Kernel.conn_epollCtlAdd]
        exact Kernel.conn_accept_self hpos
  | closed fd ok hfd hne hlist hkernel ho =>
      have hfds : clientFds w'.server.m_client_list =
          (clientFds w.server.m_client_list).erase fd := by
        rw [hlist]
        exact clientFds_removeClientInfoFd h.ids_nodup
      refine ⟨⟨?_, fun fd' => ?_⟩, hnone ho⟩
      · rw [hfds]
        exact ha.nodup.erase fd
      · rw [hfds, ha.nodup.mem_erase_iff, hkernel, Kernel.connected_epollCtlDel_close,
          ha.connected_iff]
  | same hne hlist hkernel ho =>
      refine ⟨⟨by rw [hlist]; exact ha.nodup, fun fd => ?_⟩, hnone ho⟩
      rw [hlist, ha.connected_iff]
      rcases hkernel with hkernel | hkernel
      · rw [hkernel]
      · -- the listening socket is no connection
        rw [hkernel, Kernel.connected_close]
        refine ⟨fun hc => ⟨?_, hc⟩, And.right⟩
        rintro rfl
        have := hc.1
        simp [h.server_fd] at this

/-- Without that, agreement is lost. -/
theorem Agree.acceptsCleanly (ha : Agree w') (h : Tables w)
    (ht : EpollWorker.Step kind w i w' o) : AcceptsCleanly w i := by
  rintro sys events rfl hpc
  cases ht.registryEffect with
  | closed _ _ _ hne _ _ _ | same hne _ _ _ => exact absurd hpc (hne sys events rfl)
  | accepted sys' events' heq hpc' hl hlist hkernel ho =>
      obtain rfl : sys = sys' := EpollInput.handle.inj heq
      have hmem : sys.accept ∈ clientFds w'.server.m_client_list := by
        rw [hlist, clientFds_concat]
        exact List.mem_append_right _ (List.mem_singleton_self _)
      obtain ⟨hopen, hint⟩ := (ha.connected_iff _).mp hmem
      rcases hl.accept rfl with ⟨hneg, -⟩ | ⟨hpos, hfree, hne⟩
      · rw [hkernel, Kernel.conn_epollCtlAdd, Kernel.conn_accept_of_neg (by omega)] at hopen
        obtain ⟨k, hk⟩ := Option.isSome_iff_exists.mp hopen
        have := h.conn_nonneg _ k hk
        omega
      · refine ⟨hpos, ?_⟩
        rw [hkernel] at hint
        rcases Kernel.mem_interest_epollCtlAdd hint with hint | ⟨hok, -⟩
        · rcases h.interest _ hint with hfd | hfd
          · exact absurd hfd hne
          · simp [hfree] at hfd
        · exact hok

/-- **When registry and open sockets agree.** Along a run of the loop, the fds registered are
in every state the distinct connections that are open and watched by epoll, and no client is
reported as connected that is not such a connection, exactly if every call of `accept`
succeeds and so does the `epoll_ctl` after it. -/
theorem registry_agrees_iff (h₀ : w₀.Initial) (h : Run (EpollWorker.Step kind) w₀ is os w) :
    Agree w₀ ∧ EachStep (EpollWorker.Step kind)
        (fun _ _ w' o => Agree w' ∧ ConnectsReported w' o) w₀ is ↔
      Along (EpollWorker.Step kind) AcceptsCleanly w₀ is := by
  rw [and_iff_right h₀.agree]
  refine h.eachStep_iff_along EpollWorker.deterministic_step fun hrun hC ht => ?_
  have ha := hrun.invariant_along EpollWorker.deterministic_step h₀.agree
    (fun hrun ha hi ht => (ha.step (Tables.run h₀ hrun) hi ht).1) hC
  have htables := Tables.run h₀ hrun
  exact ⟨fun hG => hG.1.acceptsCleanly htables ht, fun hi => ha.step htables hi ht⟩

end

/-! ### One call of `accept` -/

/-- The worker of `listening` when its listening socket is ready. -/
def listeningReady : EpollWorker :=
  { listening with server := { listening.server with m_run_thread := true }, pc := .batch [3] }

/-- The inputs up to there, and a call of `accept`. -/
def oneAccept (sys : SysResults) : List EpollInput :=
  [.advance, .advance, .epollWait [3]] ++ [.handle sys]

/-- The listening socket is ready. -/
theorem run_listeningReady :
    Run InetDomainSocketTcpServer.Step listening [.advance, .advance, .epollWait [3]] []
      listeningReady := by
  have h₀ : Run InetDomainSocketTcpServer.Step listening [] [] listening := .start
  exact ((h₀.step (.entry rfl)).step (.enter rfl rfl)).step
    (.wait [3] rfl ⟨by decide, by decide, by decide⟩)

/-- The worker after a call of `accept`. -/
def listeningAccepted (sys : SysResults) : EpollWorker :=
  { server := { m_server_id := 1, m_server_fd := 3, m_run_thread := true,
                m_client_list := [{ m_tcp := true, m_client_id := sys.m_client_id,
                                    m_fd := sys.accept }] }
    kernel := (listening.kernel.accept sys.accept).epollCtlAdd sys.accept sys.epoll_ctl
    pc := .batch [] }

/-- One client is accepted and reported. -/
theorem run_oneAccept {sys : SysResults} (hl : sys.Legal listeningReady 3) :
    Run InetDomainSocketTcpServer.Step listening (oneAccept sys)
      [.notify (some 0) (.onClientConnected 1 sys.m_client_id)] (listeningAccepted sys) :=
  run_listeningReady.step (.handle sys rfl hl rfl)

/-- Only the call of `accept` is subject to a condition on such calls. -/
theorem along_oneAccept {C : EpollWorker → EpollInput → Prop} {sys : SysResults}
    (hC : ∀ w i, (∀ sys, i ≠ .handle sys) → C w i) (hi : C listeningReady (.handle sys)) :
    Along InetDomainSocketTcpServer.Step C listening (oneAccept sys) := by
  refine (along_concat EpollWorker.deterministic_step run_listeningReady).mpr ⟨?_, hi⟩
  intro pre i post os s hsplit _
  refine hC s i ?_
  rintro sys rfl
  have hmem : EpollInput.handle sys ∈ [EpollInput.advance, .advance, .epollWait [3]] := by
    rw [hsplit]
    simp
  simp at hmem

/-- A successful `accept`, with an `epoll_ctl` that succeeds. -/
def acceptedFive : SysResults :=
  { accept := 5, epoll_ctl := true, m_client_id := 16, read := none }

/-- The kernel may give descriptor 5 to the client. -/
theorem acceptedFive_legal : acceptedFive.Legal listeningReady 3 :=
  ⟨fun _ => .inr ⟨by decide, rfl, by decide⟩, fun _ => by decide, fun h => absurd rfl h⟩

/-- With that client the list and the connections agree. -/
theorem registry_agrees_iff_acceptedFive :
    EachStep InetDomainSocketTcpServer.Step (fun _ _ w' o => Agree w' ∧ ConnectsReported w' o)
      listening (oneAccept acceptedFive) := by
  refine ((registry_agrees_iff listening_initial (run_oneAccept acceptedFive_legal)).mpr ?_).2
  refine along_oneAccept (fun w i hi sys _ heq => absurd heq (hi sys)) ?_
  rintro sys events hi -
  obtain rfl := EpollInput.handle.inj hi
  exact ⟨by decide, rfl⟩

/-- When `accept` fails, a client with fd `-1` is registered and reported. -/
theorem acceptFailed_registered :
    ∃ w, Run InetDomainSocketTcpServer.Step listening
        (oneAccept { accept := -1, epoll_ctl := false, m_client_id := 16, read := none })
        [.notify (some 0) (.onClientConnected 1 16)] w ∧
      clientFds w.server.m_client_list = [-1] ∧ ¬ Agree w ∧
      ¬ ConnectsReported w [.notify (some 0) (.onClientConnected 1 16)] := by
  have hl : SysResults.Legal ⟨-1, false, 16, none⟩ listeningReady 3 :=
    ⟨fun _ => .inl ⟨rfl, rfl⟩, fun _ => by decide, fun h => absurd rfl h⟩
  refine ⟨_, run_oneAccept hl, rfl, fun ha => ?_, fun hr => ?_⟩
  · obtain ⟨hopen, -⟩ := (ha.connected_iff (-1)).mp (List.mem_singleton_self _)
    cases hopen
  · obtain ⟨c, hc, -, hconn, -⟩ := hr (some 0) 1 16 (List.mem_singleton_self _)
    obtain rfl := List.mem_singleton.mp hc
    cases hconn

section

variable {kind : EpollKind} {w w' w₀ : EpollWorker} {i : EpollInput} {o os : List EpollObs}
  {is : List EpollInput}

/-! ### When the registry stays within a bound -/

/-- What a step does to the length of the registry. -/
theorem EpollWorker.Step.length_le_iff {m_max_client : ℕ}
    (hle : w.server.m_client_list.length ≤ m_max_client)
    (ht : EpollWorker.Step kind w i w' o) :
    w'.server.m_client_list.length ≤ m_max_client ↔ AcceptsBelow m_max_client w i := by
  cases ht.registryEffect with
  | accepted sys events heq hpc hl hlist hkernel ho =>
      rw [hlist, List.length_append, List.length_singleton, Nat.succ_le_iff]
      exact ⟨fun h _ _ _ _ => h, fun h => h sys events heq hpc⟩
  | closed fd ok hfd hne hlist hkernel ho =>
      have hsub : (removeClientInfoFd w.server.m_client_list fd).1.length ≤
          w.server.m_client_list.length := removeClientInfoFd_sublist.length_le
      rw [hlist]
      exact iff_of_true (Nat.le_trans hsub hle) fun sys events heq hpc =>
        absurd hpc (hne sys events heq)
  | same hne hlist hkernel ho =>
      rw [hlist]
      exact iff_of_true hle fun sys events heq hpc => absurd hpc (hne sys events heq)

/-- **When `max_client` is a limit.** Along a run of the loop, the registry has in every state
at most `m_max_client` entries exactly if every event on the listening socket is handled with
fewer in it. -/
theorem max_client_iff {m_max_client : ℕ} (h₀ : w₀.Initial)
    (h : Run (EpollWorker.Step kind) w₀ is os w) :
    w₀.server.m_client_list.length ≤ m_max_client ∧ EachStep (EpollWorker.Step kind)
        (fun _ _ w' _ => w'.server.m_client_list.length ≤ m_max_client) w₀ is ↔
      Along (EpollWorker.Step kind) (AcceptsBelow m_max_client) w₀ is := by
  have hstart : w₀.server.m_client_list.length ≤ m_max_client := by simp [h₀.client_list]
  rw [and_iff_right hstart]
  refine h.eachStep_iff_along EpollWorker.deterministic_step fun hrun hC ht => ?_
  have hle := hrun.invariant_along EpollWorker.deterministic_step hstart
    (fun _ hle hi ht => (ht.length_le_iff hle).mpr hi) hC
  exact ht.length_le_iff hle

end

/-! ### Two clients where one is the limit -/

/-- One client is within a limit of one. -/
theorem max_client_iff_acceptedFive :
    EachStep InetDomainSocketTcpServer.Step
      (fun _ _ w' _ => w'.server.m_client_list.length ≤ 1) listening
      (oneAccept acceptedFive) := by
  refine ((max_client_iff listening_initial (run_oneAccept acceptedFive_legal)).mpr ?_).2
  refine along_oneAccept (fun w i hi sys _ heq => absurd heq (hi sys)) ?_
  intro sys events _ _
  exact Nat.zero_lt_one

/-- A second client is registered where `max_client` is one. -/
theorem secondClient_registered :
    ∃ is os w, Run InetDomainSocketTcpServer.Step listening is os w ∧
      clientFds w.server.m_client_list = [5, 6] ∧ ¬ w.server.m_client_list.length ≤ 1 := by
  have h₁ := ((run_oneAccept acceptedFive_legal).step (.again rfl)).step (.enter rfl rfl)
  have h₂ := h₁.step (.wait [3] rfl ⟨by decide, by decide, by decide⟩)
  have h₃ := h₂.step (.handle ⟨6, true, 32, none⟩ rfl
    ⟨fun _ => .inr ⟨by decide, rfl, by decide⟩, fun _ => by decide, fun h => absurd rfl h⟩ rfl)
  exact ⟨_, _, _, h₃, rfl, by decide⟩

end AnyServer
