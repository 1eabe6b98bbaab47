import AnyServer.ClientIds
import AnyServer.OpenSockets

/-!
# Resources

A server obtains descriptors: the epoll servers an epoll fd and a listening socket in `init`
and a socket with every `accept`, the datagram servers their socket, the libwebsockets servers
a context. A run shows what its steps obtain and close (`withResources`).

What follows the loops differs: the inet server closes its listening socket, the unix server
nothing, the datagram servers their socket.

## Main results

* `EpollWorker.leavesOpen_run`: what an epoll server has open.
* `UdpWorker.leavesOpen_run`: what a datagram server has open.
-/

namespace AnyServer

open Lts Session

/-! ### What is obtained and closed -/

/-- A descriptor, or the context of libwebsockets. -/
inductive Resource
  | fd (fd : ℤ)
  | context
  deriving DecidableEq, Repr

/-- What has been obtained and closed, in order. -/
abbrev ResourceLog := List (Event Resource Unit)

section

variable {σ ι ο : Type} {T : Lts σ ι ο} {resources : σ → ι → ResourceLog} {s s₀ : σ}
  {is : List ι} {os o : List (ο ⊕ Event Resource Unit)}

/-- A system that shows what its steps obtain and close. -/
def withResources (T : Lts σ ι ο) (resources : σ → ι → ResourceLog) :
    Lts σ ι (ο ⊕ Event Resource Unit) :=
  fun s i s' o => ∃ os, T s i s' os ∧ o = os.map .inl ++ (resources s i).map .inr

/-- What is obtained and closed, of all that is shown. -/
def resourceLog (os : List (ο ⊕ Event Resource Unit)) : ResourceLog :=
  os.filterMap Sum.getRight?

/-- What the system itself shows. -/
def observed (os : List (ο ⊕ Event Resource Unit)) : List ο :=
  os.filterMap Sum.getLeft?

/-- The resource log of two parts is that of the one and then the other. -/
@[simp] theorem resourceLog_append : resourceLog (os ++ o) = resourceLog os ++ resourceLog o :=
  List.filterMap_append

/-- What is observed of two parts is what is observed of each. -/
@[simp] theorem observed_append : observed (os ++ o) = observed os ++ observed o :=
  List.filterMap_append

/-- The resource calls of a life are those that were put in. -/
@[simp] theorem resourceLog_shown (os : List ο) (log : ResourceLog) :
    resourceLog (os.map .inl ++ log.map .inr) = log := by
  simp [resourceLog, List.filterMap_map, Function.comp_def]

/-- Its observations are those that were put in. -/
@[simp] theorem observed_shown (os : List ο) (log : ResourceLog) :
    observed (os.map .inl ++ log.map .inr) = os := by
  simp [observed, List.filterMap_map, Function.comp_def]

/-- What is shown does not change what is done. -/
theorem run_observed (h : Run (withResources T resources) s₀ is os s) :
    Run T s₀ is (observed os) s := by
  induction h with
  | start => exact .start
  | step _ ht ih =>
      obtain ⟨os', ht, rfl⟩ := ht
      rw [observed_append, observed_shown]
      exact ih.step ht

/-- Every run can be shown. -/
theorem run_withResources {os : List ο} (h : Run T s₀ is os s) :
    ∃ os', Run (withResources T resources) s₀ is os' s ∧ observed os' = os := by
  induction h with
  | start => exact ⟨[], .start, rfl⟩
  | step _ ht ih =>
      obtain ⟨os', hrun, hobs⟩ := ih
      refine ⟨os' ++ _, hrun.step ⟨_, ht, rfl⟩, ?_⟩
      rw [observed_append, observed_shown, hobs]

end

/-- What the workers of the epoll servers obtain and close: an event on the listening socket
calls `accept`, a `read` that returns nothing is followed by `close`, and the inet server's
worker closes the listening socket when it leaves the loop. -/
def EpollWorker.resources (kind : EpollKind) (w : EpollWorker) : EpollInput → ResourceLog
  | .handle sys =>
      match w.pc with
      | .batch (fd :: _) =>
          if fd = w.server.m_server_fd then
            if 0 ≤ sys.accept then [.opened (.fd sys.accept)] else []
          else if sys.read.getD [] = [] then [.closed (.fd fd)] else []
      | _ => []
  | .advance =>
      match kind with
      | .inet =>
          if w.pc = .test ∧ w.server.m_run_thread = false then
            [.closed (.fd w.server.m_server_fd)]
          else []
      | .unix => []
  | .store _ | .epollWait _ => []

/-- The workers of the datagram servers close their socket when they leave the loop. -/
def UdpWorker.resources (w : UdpWorker) : UdpInput → ResourceLog
  | .advance =>
      if w.pc = .test ∧ w.server.m_run_thread = false then
        [.closed (.fd w.server.m_server_fd)]
      else []
  | .store _ | .recvfrom _ => []

/-! ### What an epoll server has open -/

/-- The epoll fd, the listening socket unless the inet server's worker has left, and every
connection accepted and not closed. -/
def EpollWorker.Holds (kind : EpollKind) (m_epoll_fd : ℤ) (w : EpollWorker) : Resource → Prop
  | .fd fd => fd = m_epoll_fd ∨ fd = w.server.m_server_fd ∧ ¬ (kind = .inet ∧ w.pc = .left) ∨
      (w.kernel.conn fd).isSome
  | .context => False

section

variable {kind : EpollKind} {w w' w₀ : EpollWorker} {i : EpollInput} {is : List EpollInput}
  {o : List EpollObs} {os : List (EpollObs ⊕ Event Resource Unit)} {m_epoll_fd fd : ℤ}
  {log : ResourceLog} {resource : Resource}

/-- A step that keeps the connections, and leaves the loop only where it has been left. -/
theorem EpollWorker.holds_congr (hfd : w'.server.m_server_fd = w.server.m_server_fd)
    (hconn : w'.kernel.conn = w.kernel.conn)
    (hleft : kind = .inet ∧ w'.pc = .left ↔ kind = .inet ∧ w.pc = .left) (resource : Resource) :
    w.Holds kind m_epoll_fd resource ↔ w'.Holds kind m_epoll_fd resource := by
  cases resource with
  | fd fd => simp only [Holds, hfd, hconn, hleft]
  | context => rfl

/-- A step that opens one connection. -/
theorem EpollWorker.holds_opened (hfd : w'.server.m_server_fd = w.server.m_server_fd)
    (hleft : kind = .inet ∧ w'.pc = .left ↔ kind = .inet ∧ w.pc = .left)
    (hself : (w'.kernel.conn fd).isSome)
    (hne : ∀ fd', fd' ≠ fd → w'.kernel.conn fd' = w.kernel.conn fd') (resource : Resource) :
    resource = .fd fd ∨ w.Holds kind m_epoll_fd resource ↔ w'.Holds kind m_epoll_fd resource := by
  cases resource with
  | fd fd' =>
      simp only [Holds, hfd, hleft]
      by_cases hfd' : fd' = fd
      · simp [hfd', hself]
      · simp [hfd', hne fd' hfd']
  | context => simp [Holds]

/-- A step that closes one connection. -/
theorem EpollWorker.holds_closed (hfd : w'.server.m_server_fd = w.server.m_server_fd)
    (hleft : kind = .inet ∧ w'.pc = .left ↔ kind = .inet ∧ w.pc = .left)
    (hself : w'.kernel.conn fd = none)
    (hne : ∀ fd', fd' ≠ fd → w'.kernel.conn fd' = w.kernel.conn fd')
    (hserver : fd ≠ w.server.m_server_fd) (hepoll : fd ≠ m_epoll_fd) (resource : Resource) :
    resource ≠ .fd fd ∧ w.Holds kind m_epoll_fd resource ↔ w'.Holds kind m_epoll_fd resource := by
  cases resource with
  | fd fd' =>
      simp only [Holds, hfd, hleft]
      by_cases hfd' : fd' = fd
      · simp [hfd', hself, hserver, hepoll]
      · simp [hfd', hne fd' hfd']
  | context => simp [Holds]

/-- The inet server's worker closes the listening socket, which is no connection. -/
theorem EpollWorker.holds_left (h : Tables w) (hpc : w.pc = .test)
    (hepoll : m_epoll_fd ≠ w.server.m_server_fd) (resource : Resource) :
    resource ≠ .fd w.server.m_server_fd ∧ w.Holds .inet m_epoll_fd resource ↔
      EpollWorker.Holds .inet m_epoll_fd
        { w with kernel := w.kernel.close w.server.m_server_fd, pc := .left } resource := by
  cases resource with
  | fd fd =>
      simp only [Holds, h.conn_close_server_fd, hpc]
      by_cases hfd : fd = w.server.m_server_fd
      · simp [hfd, h.server_fd, hepoll.symm]
      · simp [hfd]
  | context => simp [Holds]

/-- **One step.** What is held goes on to be what the log leaves open. -/
theorem EpollWorker.Step.leavesOpen (ht : EpollWorker.Step kind w i w' o) (h : Tables w)
    (hepoll : m_epoll_fd ≠ w.server.m_server_fd) (hfree : w.kernel.conn m_epoll_fd = none)
    (hnew : .opened (.fd m_epoll_fd) ∉ w.resources kind i)
    (hlog : LeavesOpen log (w.Holds kind m_epoll_fd)) :
    LeavesOpen (log ++ w.resources kind i) (w'.Holds kind m_epoll_fd) ∧
      w'.kernel.conn m_epoll_fd = none := by
  have hsame : w.resources kind i = [] → w'.server.m_server_fd = w.server.m_server_fd →
      w'.kernel.conn = w.kernel.conn →
      (kind = .inet ∧ w'.pc = .left ↔ kind = .inet ∧ w.pc = .left) →
      LeavesOpen (log ++ w.resources kind i) (w'.Holds kind m_epoll_fd) ∧
        w'.kernel.conn m_epoll_fd = none := by
    intro hnil hfd hconn hleft
    rw [hnil, List.append_nil, hconn]
    exact ⟨hlog.congr (EpollWorker.holds_congr hfd hconn hleft), hfree⟩
  cases ht with
  | store b => exact hsame rfl rfl rfl Iff.rfl
  | entry hpc => exact hsame (by cases kind <;> simp [resources, hpc]) rfl rfl (by simp [hpc])
  | enter hpc hr =>
      exact hsame (by cases kind <;> simp [resources, hr]) rfl rfl (by simp [hpc])
  | wait events hpc hl => exact hsame rfl rfl rfl (by simp [hpc])
  | again hpc => exact hsame (by cases kind <;> simp [resources, hpc]) rfl rfl (by simp [hpc])
  | leave hpc hr =>
      cases kind with
      | unix => exact hsame rfl rfl rfl (by simp)
      | inet =>
          have hres : w.resources .inet .advance = [.closed (.fd w.server.m_server_fd)] := by
            simp [resources, hpc, hr]
          have hheld : w.Holds .inet m_epoll_fd (.fd w.server.m_server_fd) := by
            simp [Holds, hpc]
          rw [hres]
          refine ⟨(hlog.closed hheld).congr (EpollWorker.holds_left h hpc hepoll), ?_⟩
          simpa only [h.conn_close_server_fd] using hfree
  | @handle _ sys fd events server kernel o hpc hl hs =>
      cases handleEvent_effect hs with
      | accepted hfd =>
          rcases hl.accept hfd with ⟨hneg, hok⟩ | ⟨hpos, hclosed, hne⟩
          · -- a failed call opens nothing
            have hres : w.resources kind (.handle sys) = [] := by
              simp [resources, hpc, hfd, hneg]
            refine hsame hres rfl ?_ (by simp [hpc])
            rw [Kernel.conn_epollCtlAdd, Kernel.conn_accept_of_neg (by omega)]
          · have hres : w.resources kind (.handle sys) = [.opened (.fd sys.accept)] := by
              simp [resources, hpc, hfd, hpos]
            have hepoll' : sys.accept ≠ m_epoll_fd := by
              rintro rfl
              rw [hres] at hnew
              exact hnew (List.mem_singleton_self _)
            have hheld : ¬ w.Holds kind m_epoll_fd (.fd sys.accept) := by
              simp [Holds, hepoll', hne, hclosed]
            rw [hres]
            refine ⟨(hlog.opened hheld).congr (EpollWorker.holds_opened rfl ?_ ?_ ?_), ?_⟩
            · simp [hpc]
            · rw [Kernel.conn_epollCtlAdd, Kernel.conn_accept_self hpos]
              rfl
            · exact fun fd' hfd' => Kernel.conn_accept_epollCtlAdd_of_ne hfd'
            · exact (Kernel.conn_accept_epollCtlAdd_of_ne hepoll'.symm).trans hfree
      | disconnected hfd hread =>
          obtain ⟨k, hk⟩ := h.event_conn hpc hfd
          have hres : w.resources kind (.handle sys) = [.closed (.fd fd)] := by
            simp [resources, hpc, hfd, hread]
          have hheld : w.Holds kind m_epoll_fd (.fd fd) := by
            simp [Holds, hk]
          have hepoll' : fd ≠ m_epoll_fd := by
            rintro rfl
            rw [hk] at hfree
            cases hfree
          rw [hres]
          refine ⟨(hlog.closed hheld).congr
            (EpollWorker.holds_closed rfl ?_ ?_ ?_ hfd hepoll'), ?_⟩
          · simp [hpc]
          · exact Kernel.conn_close_self
          · exact fun fd' hfd' => Kernel.conn_epollCtlDel_close_of_ne hfd'
          · exact (Kernel.conn_epollCtlDel_close_of_ne hepoll'.symm).trans hfree
      | received bs client hfd hread hbs hc =>
          have hres : w.resources kind (.handle sys) = [] := by
            simp [resources, hpc, hfd, hread, hbs]
          exact hsame hres rfl rfl (by simp [hpc])

/-- The loop keeps its listening socket. -/
theorem EpollWorker.Step.server_fd (ht : EpollWorker.Step kind w i w' o) :
    w'.server.m_server_fd = w.server.m_server_fd := by
  cases ht with
  | store _ | entry _ | enter _ _ | leave _ _ | wait _ _ _ | again _ => rfl
  | handle sys hpc hl hs => cases handleEvent_effect hs <;> rfl

/-- **A whole run.** From the log of `init`, what an epoll server has open. -/
theorem EpollWorker.leavesOpen_run (h₀ : w₀.Initial)
    (hepoll : m_epoll_fd ≠ w₀.server.m_server_fd)
    (h : Run (withResources (EpollWorker.Step kind) (EpollWorker.resources kind)) w₀ is os w)
    (hnew : .opened (.fd m_epoll_fd) ∉ resourceLog os) :
    LeavesOpen
      ([.opened (.fd m_epoll_fd), .opened (.fd w₀.server.m_server_fd)] ++ resourceLog os)
      (w.Holds kind m_epoll_fd) := by
  let init : ResourceLog := [.opened (.fd m_epoll_fd), .opened (.fd w₀.server.m_server_fd)]
  suffices hinv : w.server.m_server_fd = w₀.server.m_server_fd ∧
      LeavesOpen (init ++ resourceLog os) (w.Holds kind m_epoll_fd) ∧
        w.kernel.conn m_epoll_fd = none from hinv.2.1
  induction h with
  | start =>
      have hfirst : LeavesOpen init fun resource : Resource =>
          resource = .fd w₀.server.m_server_fd ∨ resource = .fd m_epoll_fd ∨ False :=
        (LeavesOpen.nil.opened (by simp)).opened (by simpa using hepoll.symm)
      refine ⟨rfl, ?_, by rw [h₀.conn]⟩
      rw [resourceLog, List.filterMap_nil, List.append_nil]
      refine hfirst.congr fun resource => ?_
      cases resource with
      | context => simp [Holds]
      | fd fd => simp [Holds, h₀.conn, h₀.pc, or_comm]
  | @step is os w i w' o hrun ht ih =>
      obtain ⟨os', ht, rfl⟩ := ht
      rw [resourceLog_append, resourceLog_shown, List.mem_append, not_or] at hnew
      obtain ⟨hfd, hlog, hfree⟩ := ih hnew.1
      have hstep := ht.leavesOpen (Tables.run h₀ (run_observed hrun)) (by rwa [hfd]) hfree hnew.2
        hlog
      rw [resourceLog_append, resourceLog_shown, ← List.append_assoc]
      exact ⟨ht.server_fd.trans hfd, hstep⟩

end

/-! ### What a datagram server has open -/

/-- Its socket, until the worker leaves. -/
def UdpWorker.Holds (w : UdpWorker) : Resource → Prop
  | .fd fd => fd = w.server.m_server_fd ∧ w.pc ≠ .left
  | .context => False

section

variable {kind : UdpKind} {debug : Bool} {w w' w₀ : UdpWorker} {i : UdpInput}
  {is : List UdpInput} {o : List UdpObs} {os : List (UdpObs ⊕ Event Resource Unit)}
  {log : ResourceLog}

/-- **One step.** Between two passes there are no clients. -/
theorem UdpWorker.Step.leavesOpen (ht : UdpWorker.Step kind debug w i w' o)
    (hlist : w.server.m_client_list = []) (hlog : LeavesOpen log w.Holds) :
    w'.server.m_client_list = [] ∧ w'.server.m_server_fd = w.server.m_server_fd ∧
      LeavesOpen (log ++ w.resources i) w'.Holds := by
  have hsame : w.resources i = [] → w'.server.m_server_fd = w.server.m_server_fd →
      (w'.pc = .left ↔ w.pc = .left) → LeavesOpen (log ++ w.resources i) w'.Holds := by
    intro hnil hfd hleft
    rw [hnil, List.append_nil]
    refine hlog.congr fun resource => ?_
    cases resource with
    | context => rfl
    | fd fd => simp only [Holds, hfd, ne_eq, hleft]
  cases ht.effect with
  | stored b => exact ⟨hlist, rfl, hsame rfl rfl Iff.rfl⟩
  | entered hpc => exact ⟨hlist, rfl, hsame (by simp [resources, hpc]) rfl (by simp [hpc])⟩
  | again hpc hr => exact ⟨hlist, rfl, hsame (by simp [resources, hr]) rfl (by simp [hpc])⟩
  | left hpc hr =>
      have hres : w.resources .advance = [.closed (.fd w.server.m_server_fd)] := by
        simp [resources, hpc, hr]
      have hheld : w.Holds (.fd w.server.m_server_fd) := ⟨rfl, by simp [hpc]⟩
      rw [hres]
      refine ⟨hlist, rfl, (hlog.closed hheld).congr fun resource => ?_⟩
      cases resource with
      | context => simp [Holds]
      | fd fd =>
          simp only [Holds, Resource.fd.injEq, ne_eq, not_true_eq_false, and_false, iff_false]
          exact fun h => h.1 h.2.1
  | pass hpc hl hcomm =>
      obtain ⟨hserver, -⟩ := communication_notifications hl hcomm
      obtain ⟨-, hpc', -⟩ := communication_effect hl hcomm
      rw [hserver]
      exact ⟨hlist, rfl, hsame rfl (by rw [hserver]) (by simp [hpc, hpc'])⟩

/-- **A whole run.** -/
theorem UdpWorker.leavesOpen_run (h₀ : w₀.Initial kind)
    (h : Run (withResources (UdpWorker.Step kind debug) UdpWorker.resources) w₀ is os w) :
    w.server.m_client_list = [] ∧
      LeavesOpen ([.opened (.fd w₀.server.m_server_fd)] ++ resourceLog os) w.Holds := by
  let init : ResourceLog := [.opened (.fd w₀.server.m_server_fd)]
  suffices hinv : w.server.m_client_list = [] ∧
      w.server.m_server_fd = w₀.server.m_server_fd ∧
        LeavesOpen (init ++ resourceLog os) w.Holds from ⟨hinv.1, hinv.2.2⟩
  induction h with
  | start =>
      have hfirst : LeavesOpen init fun resource : Resource =>
          resource = .fd w₀.server.m_server_fd ∨ False :=
        LeavesOpen.nil.opened (by simp)
      refine ⟨h₀.client_list, rfl, ?_⟩
      rw [resourceLog, List.filterMap_nil, List.append_nil]
      refine hfirst.congr fun resource => ?_
      cases resource with
      | context => simp [Holds]
      | fd fd => simp [Holds, h₀.pc]
  | @step is os w i w' o hrun ht ih =>
      obtain ⟨os', ht, rfl⟩ := ht
      obtain ⟨hlist, hfd, hlog⟩ := ih
      obtain ⟨hlist', hfd', hlog'⟩ := ht.leavesOpen hlist hlog
      rw [resourceLog_append, resourceLog_shown, ← List.append_assoc]
      exact ⟨hlist', hfd'.trans hfd, hlog'⟩

end

end AnyServer
