import AnyServer.Stopping
import AnyServer.HttpServer
import AnyServer.UdpReplies
import AnyServer.WebSocketServer

/-!
# The Loops behind the Phases

`Threads` keeps of a worker no more than where it is. Here the loops as they were modelled
before, with their connections, buffers and registries, are shown to be such workers: seen
through the flag and the phase, a run of `__epoll_thread__` or of
`__communication_thread__`, with stores of `false` by other threads in between, is a run of
a server with one worker in which `start` is not called, and makes the same notifications.
For the two libwebsockets servers the same holds of a sequence of callbacks.

So what `Threads` promises about a quiet worker or a cleared flag, the loops keep.

## Main results

* `EpollWorker.refines` / `UdpWorker.refines`: the socket loops as workers.
* `HttpTcpServer.refines` / `WebSocketTcpServer.refines`: the callbacks as workers.
* `EpollWorker.silent_of_quiet` / `UdpWorker.silent_of_quiet`: quiet loops report nothing.
-/

namespace AnyServer

open Lts

/-! ### What a worker does with an event -/

section Worker

variable {kind : ServerKind} {b b' : Bool} {phase phase' : WorkerPhase}
  {acts : List WorkerAct} {ns os : List Notification}

/-- A server with one worker runs as the worker does. -/
theorem Threads.run_one (h : Run (Worker.Step kind) ⟨b, phase⟩ acts os ⟨b', phase'⟩) :
    Run (Threads.Unstarted kind) ⟨b, [phase], false⟩ (acts.map (.work 0)) os
      ⟨b', [phase'], false⟩ := by
  have hlt : 0 < (⟨b, [phase], false⟩ : Threads).workers.length := by simp
  exact Threads.run_work hlt h

/-- A step of the only worker. -/
theorem Threads.step_one (act : WorkerAct)
    (ht : Worker.Step kind ⟨b, phase⟩ act ⟨b', phase'⟩ os) :
    ∃ js, Run (Threads.Unstarted kind) ⟨b, [phase], false⟩ js os ⟨b', [phase'], false⟩ :=
  ⟨_, Threads.run_one (.single ht)⟩

/-- A `stop` that returns at once. -/
theorem Threads.stop_one (hk : kind.joins = false) :
    ∃ js, Run (Threads.Unstarted kind) ⟨b, [phase], false⟩ js [] ⟨false, [phase], false⟩ := by
  have ht : Threads.Unstarted kind ⟨b, [phase], false⟩ .stop ⟨false, [phase], false⟩ [] :=
    ⟨rfl, by simp [Threads.next, Threads.stop, hk]⟩
  exact ⟨_, .single ht⟩

/-- The notifications of an event or of a callback, one after the other. -/
theorem Worker.run_notifying {events : Option ℕ} :
    ∃ acts, Run (Worker.Step kind) ⟨b, .notifying ns events⟩ acts ns
      ⟨b, events.elim .wait .batch⟩ := by
  induction ns with
  | nil =>
      have ht : Worker.Step kind ⟨b, .notifying [] events⟩ .advance
          ⟨b, events.elim .wait .batch⟩ [] := by
        cases events <;> rfl
      exact ⟨_, .single ht⟩
  | cons n ns ih =>
      obtain ⟨acts, hrun⟩ := ih
      have ht : Worker.Step kind ⟨b, .notifying (n :: ns) events⟩ .advance
          ⟨b, .notifying ns events⟩ [n] := rfl
      exact ⟨_, Run.cons (T := Worker.Step kind) ht hrun⟩

/-- One event of a batch. -/
theorem Worker.run_event {events : ℕ} (hr : kind.reports ns = true) :
    ∃ acts, Run (Worker.Step kind) ⟨b, .batch (events + 1)⟩ acts ns ⟨b, .batch events⟩ := by
  have ht : Worker.Step kind ⟨b, .batch (events + 1)⟩ (.handle ns)
      ⟨b, .notifying ns (some events)⟩ [] := by
    simp [Lts.ofFn, Worker.next, hr]
  have hns : ∃ acts, Run (Worker.Step kind) ⟨b, .notifying ns (some events)⟩ acts ns
      ⟨b, .batch events⟩ := Worker.run_notifying
  obtain ⟨acts, hrun⟩ := hns
  exact ⟨_, Run.cons (T := Worker.Step kind) ht hrun⟩

/-- One callback that gets past the test of the flag. -/
theorem Worker.run_callback (hk : kind.service = true) (hr : kind.reports ns = true) :
    ∃ acts, Run (Worker.Step kind) ⟨true, .wait⟩ acts ns ⟨true, .wait⟩ := by
  have ht : Worker.Step kind ⟨true, .wait⟩ (.handle ns) ⟨true, .notifying ns none⟩ [] := by
    simp [Lts.ofFn, Worker.next, hk, hr]
  have hns : ∃ acts, Run (Worker.Step kind) ⟨true, .notifying ns none⟩ acts ns ⟨true, .wait⟩ :=
    Worker.run_notifying
  obtain ⟨acts, hrun⟩ := hns
  exact ⟨_, Run.cons (T := Worker.Step kind) ht hrun⟩

end Worker

/-! ### `__epoll_thread__` -/

/-- The class of an epoll worker's server. -/
def EpollKind.server : EpollKind → ServerKind
  | .inet => .inetDomainSocketTcpServer
  | .unix => .unixDomainSocketTcpServer

/-- Where an epoll worker is, in the terms of all workers. -/
def EpollPc.phase : EpollPc → WorkerPhase
  | .entry => .entry
  | .test => .test
  | .wait => .wait
  | .batch events => .batch events.length
  | .left => .left

/-- The flag and the phase of the loop. -/
def EpollWorker.view (w : EpollWorker) : Threads :=
  { m_run_thread := w.server.m_run_thread, workers := [w.pc.phase], joining := false }

/-- The notification that is observed, if it is one. -/
def EpollObs.notification : EpollObs → List Notification
  | .read _ _ => []
  | .notify _ n => [n]

/-- The worker while other threads only clear the flag. -/
def EpollWorker.Unstarted (kind : EpollKind) : Lts EpollWorker EpollInput EpollObs :=
  fun w i w' o => i ≠ .store true ∧ EpollWorker.Step kind w i w' o

section Epoll

variable {kind : EpollKind} {w w' : EpollWorker} {is : List EpollInput} {i : EpollInput}
  {os o : List EpollObs}

/-- An event makes one notification and leaves the flag alone. -/
theorem handleEvent_notification {server server' : EpollServer} {kernel kernel' : Kernel}
    {fd : ℤ} {sys : SysResults}
    (h : handleEvent server kernel fd sys = some (server', kernel', o)) :
    server'.m_run_thread = server.m_run_thread ∧
      kind.server.reports (o.flatMap EpollObs.notification) = true := by
  cases handleEvent_effect h <;> cases kind <;> exact ⟨rfl, rfl⟩

/-- A step of the epoll loop is a run of the abstract worker with the same reports. -/
theorem EpollWorker.refines_step (ht : EpollWorker.Unstarted kind w i w' o) :
    ∃ js, Run (Threads.Unstarted kind.server) w.view js (o.flatMap EpollObs.notification)
      w'.view := by
  obtain ⟨hi, ht⟩ := ht
  cases ht with
  | store b =>
      obtain rfl : b = false := by simpa using hi
      exact Threads.stop_one (by cases kind <;> rfl)
  | entry h => exact Threads.step_one .advance (by rw [h]; rfl)
  | enter h hr => exact Threads.step_one .advance (by rw [h, hr]; rfl)
  | leave h hr => exact Threads.step_one .advance (by rw [h, hr]; rfl)
  | again h => exact Threads.step_one .advance (by rw [h]; rfl)
  | wait events h hl =>
      have htakes : kind.server.takes events.length = true := by
        cases kind <;> exact decide_eq_true hl.length_le
      refine Threads.step_one (.take events.length) ?_
      simp [Lts.ofFn, Worker.next, h, EpollPc.phase, htakes]
  | @handle _ sys fd events server kernel o h hl hs =>
      obtain ⟨hflag, hr⟩ := handleEvent_notification hs
      have hevent : ∃ acts, Run (Worker.Step kind.server)
          ⟨w.server.m_run_thread, .batch (events.length + 1)⟩ acts
          (o.flatMap EpollObs.notification) ⟨w.server.m_run_thread, .batch events.length⟩ :=
        Worker.run_event hr
      obtain ⟨acts, hrun⟩ := hevent
      rw [EpollWorker.view, EpollWorker.view, h, hflag]
      exact ⟨_, Threads.run_one hrun⟩

/-- **The epoll loop is a worker.** -/
theorem EpollWorker.refines (h : Run (EpollWorker.Unstarted kind) w is os w') :
    ∃ js, Run (Threads.Unstarted kind.server) w.view js (os.flatMap EpollObs.notification)
      w'.view :=
  h.refine EpollWorker.view EpollObs.notification EpollWorker.refines_step

/-- An epoll worker that is quiet reports nothing. -/
theorem EpollWorker.silent_of_quiet (hq : w.view.Quiet kind.server)
    (h : Run (EpollWorker.Unstarted kind) w is os w') :
    os.flatMap EpollObs.notification = [] := by
  obtain ⟨js, hrun⟩ := EpollWorker.refines h
  exact hq.silent _ _ _ hrun

end Epoll

/-! ### `__communication_thread__` -/

/-- The class of a datagram worker's server. -/
def UdpKind.server : UdpKind → ServerKind
  | .inet => .inetDomainSocketUdpServer
  | .unix => .unixDomainSocketUdpServer

/-- Where a datagram worker is. -/
def UdpPc.phase : UdpPc → WorkerPhase
  | .entry => .entry
  | .test => .test
  | .recv => .wait
  | .left => .left

/-- The flag and the phase of the loop. -/
def UdpWorker.view (w : UdpWorker) : Threads :=
  { m_run_thread := w.server.m_run_thread, workers := [w.pc.phase], joining := false }

/-- The worker while other threads only clear the flag. -/
def UdpWorker.Unstarted (kind : UdpKind) (debug : Bool) : Lts UdpWorker UdpInput UdpObs :=
  fun w i w' o => i ≠ .store true ∧ UdpWorker.Step kind debug w i w' o

section Udp

variable {kind : UdpKind} {debug : Bool} {w w' : UdpWorker} {is : List UdpInput}
  {i : UdpInput} {os o : List UdpObs} {r : RecvResults}

/-- A pass makes its three notifications and leaves the flag alone. -/
theorem communication_notification (hl : r.Legal kind w)
    (h : communication kind debug w r = some (w', o)) :
    w'.server.m_run_thread = w.server.m_run_thread ∧ w'.pc = .test ∧
      kind.server.reports (o.flatMap UdpObs.notification) = true := by
  obtain ⟨hserver, hns⟩ := communication_notifications hl h
  obtain ⟨-, hpc, -⟩ := communication_effect hl h
  refine ⟨by rw [hserver], hpc, ?_⟩
  rw [hns]
  cases kind <;> rfl

/-- A step of the datagram loop is a run of the abstract worker with the same reports. -/
theorem UdpWorker.refines_step (ht : UdpWorker.Unstarted kind debug w i w' o) :
    ∃ js, Run (Threads.Unstarted kind.server) w.view js (o.flatMap UdpObs.notification)
      w'.view := by
  obtain ⟨hi, ht⟩ := ht
  cases ht.effect with
  | stored b =>
      obtain rfl : b = false := by simpa using hi
      exact Threads.stop_one (by cases kind <;> rfl)
  | entered hpc => exact Threads.step_one .advance (by rw [hpc]; rfl)
  | again hpc hr | left hpc hr => exact Threads.step_one .advance (by rw [hpc, hr]; rfl)
  | pass hpc hl hcomm =>
      obtain ⟨hflag, hpc', hr⟩ := communication_notification hl hcomm
      -- the pass is a batch of one event, with the test of the loop after it
      have htake : Worker.Step kind.server ⟨w.server.m_run_thread, .wait⟩ (.take 1)
          ⟨w.server.m_run_thread, .batch 1⟩ [] := by
        cases kind <;> rfl
      have hagain : Worker.Step kind.server ⟨w.server.m_run_thread, .batch 0⟩ .advance
          ⟨w.server.m_run_thread, .test⟩ [] := rfl
      have hevent : ∃ acts, Run (Worker.Step kind.server) ⟨w.server.m_run_thread, .batch 1⟩
          acts (o.flatMap UdpObs.notification) ⟨w.server.m_run_thread, .batch 0⟩ :=
        Worker.run_event hr
      obtain ⟨acts, hrun⟩ := hevent
      have hpass := (Run.cons (T := Worker.Step kind.server) htake hrun).step hagain
      rw [List.nil_append, List.append_nil] at hpass
      rw [UdpWorker.view, UdpWorker.view, hpc, hpc', hflag]
      exact ⟨_, Threads.run_one hpass⟩

/-- **The UDP loop is a worker.** -/
theorem UdpWorker.refines (h : Run (UdpWorker.Unstarted kind debug) w is os w') :
    ∃ js, Run (Threads.Unstarted kind.server) w.view js (os.flatMap UdpObs.notification)
      w'.view :=
  h.refine UdpWorker.view UdpObs.notification UdpWorker.refines_step

/-- A datagram worker that is quiet reports nothing. -/
theorem UdpWorker.silent_of_quiet (hq : w.view.Quiet kind.server)
    (h : Run (UdpWorker.Unstarted kind debug) w is os w') :
    os.flatMap UdpObs.notification = [] := by
  obtain ⟨js, hrun⟩ := UdpWorker.refines h
  exact hq.silent _ _ _ hrun

end Udp

/-! ### `__http_thread__` and `__websocket_thread__` -/

/-- A server whose worker is in `lws_service`. -/
def inService (m_run_thread : Bool) : Threads :=
  { m_run_thread, workers := [.wait], joining := false }

section Lws

variable {kind : ServerKind}

/-- Callbacks that each make at most one notification, and none with the flag off, are steps
of a worker in `lws_service`. -/
theorem run_inService {σ ι : Type*} {T : Lts σ ι Notification} {s s' : σ} {is : List ι}
    {ns : List Notification} (hk : kind.service = true) (flag : σ → Bool)
    (hT : ∀ {s i s' o}, T s i s' o →
      flag s' = flag s ∧ o.length ≤ 1 ∧ (flag s = false → o = []))
    (h : Run T s is ns s') :
    ∃ js, Run (Threads.Unstarted kind) (inService (flag s)) js ns (inService (flag s')) := by
  have hstep : ∀ {s i s' o}, T s i s' o → ∃ js, Run (Threads.Unstarted kind)
      (inService (flag s)) js (o.flatMap fun n => [n]) (inService (flag s')) := by
    intro s i s' o ht
    obtain ⟨hflag, hlen, hoff⟩ := hT ht
    rw [List.flatMap_singleton', hflag]
    have hr : kind.reports o = true := by
      match o, hlen with
      | [], _ | [_], _ => cases kind <;> first | rfl | cases hk
    cases hb : flag s with
    | false =>
        rw [hoff hb]
        exact ⟨_, .start⟩
    | true =>
        obtain ⟨acts, hrun⟩ := Worker.run_callback hk hr
        exact ⟨_, Threads.run_one hrun⟩
  have hrun := h.refine (fun s => inService (flag s)) (fun n => [n]) hstep
  rwa [List.flatMap_singleton'] at hrun

/-- **The callbacks of the HTTP server are a worker's.** -/
theorem HttpTcpServer.refines {s s' : HttpTcpServer} {cbs : List HttpCallback}
    {ns : List Notification} (h : Run HttpTcpServer.Step s cbs ns s') :
    ∃ js, Run (Threads.Unstarted .httpTcpServer) (inService s.m_run_thread) js ns
      (inService s'.m_run_thread) := by
  refine run_inService rfl HttpTcpServer.m_run_thread ?_ h
  intro s cb s' o ⟨_, ht⟩
  rcases callbackHttp_cases ht with ⟨hg, he⟩ | ⟨-, rfl, rfl⟩
  · have hr : s.m_run_thread = true := ((Bool.and_eq_true _ _).mp hg).2
    cases he <;> simp [hr]
  · simp

/-- **The callbacks of the WebSocket server are a worker's.** -/
theorem WebSocketTcpServer.refines {s s' : WebSocketTcpServer} {cbs : List WebSocketCallback}
    {ns : List Notification} (h : Run WebSocketTcpServer.Step s cbs ns s') :
    ∃ js, Run (Threads.Unstarted .webSocketTcpServer) (inService s.m_run_thread) js ns
      (inService s'.m_run_thread) := by
  refine run_inService rfl WebSocketTcpServer.m_run_thread ?_ h
  intro s cb s' o ⟨_, ht⟩
  rcases callbackWebSocket_cases ht with ⟨hg, he⟩ | ⟨-, rfl, rfl⟩
  · have hr : s.m_run_thread = true := ((Bool.and_eq_true _ _).mp hg).2
    cases he <;> simp [hr]
  · simp

end Lws

end AnyServer
