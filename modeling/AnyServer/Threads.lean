import AnyServer.EpollServer

/-!
# Callers, Workers and the Flag

Each of the six server classes has a `start` that creates a worker thread, a worker that
loops while `m_run_thread` is set, and a `stop` that clears the flag. Here the six are one
system, `Threads`, with a `ServerKind` for what they do differently:

* the four socket servers wait in `epoll_wait` or `recvfrom`, take what comes as a batch,
  and look at the flag between two batches only;
* the two libwebsockets servers wait in `lws_service`, which calls back, and every callback
  looks at the flag before it does anything;
* `WebSocketTcpServer::stop` joins the worker created last, the other five return at once.

In all six it is the worker that sets the flag, as its first act. A worker is given by
where it is, a `WorkerPhase`. The caller's `start` and `stop` and the steps of the workers
come in any order; `start` may be called again and creates another worker.

## Main results

* `Worker.Step`: one worker and the flag; `Threads.Step`: a caller and its workers.
* `Threads.run_work`: what a worker can do alone it can do among others.
* `WorkerPhase.quiet_step`: a quiet worker reports nothing and stays quiet.
* `WorkerPhase.reports_of_not_quiet`: any other worker may go on to report something.
-/

namespace AnyServer

open Lts

/-! ### The six classes -/

/-- The server classes. -/
inductive ServerKind
  | inetDomainSocketTcpServer
  | unixDomainSocketTcpServer
  | inetDomainSocketUdpServer
  | unixDomainSocketUdpServer
  | httpTcpServer
  | webSocketTcpServer
  deriving DecidableEq, Repr

/-- Whether the worker waits in `lws_service`. -/
def ServerKind.service : ServerKind → Bool
  | .httpTcpServer => true
  | .webSocketTcpServer => true
  | _ => false

/-- Whether `stop` joins the worker. -/
def ServerKind.joins : ServerKind → Bool
  | .webSocketTcpServer => true
  | _ => false

/-- Whether a wait can end with this many events: up to `EPOLL_SIZE` for `epoll_wait`, one
for `recvfrom`, whose failure is handled like a datagram. -/
def ServerKind.takes (kind : ServerKind) (events : ℕ) : Bool :=
  match kind with
  | .inetDomainSocketTcpServer | .unixDomainSocketTcpServer => events ≤ EPOLL_SIZE
  | .inetDomainSocketUdpServer | .unixDomainSocketUdpServer => events = 1
  | .httpTcpServer | .webSocketTcpServer => false

/-- Whether these are the notifications of one event, or of one callback. -/
def ServerKind.reports (kind : ServerKind) (ns : List Notification) : Bool :=
  match kind, ns with
  | .inetDomainSocketTcpServer, [_] | .unixDomainSocketTcpServer, [_] => true
  | .inetDomainSocketUdpServer,
      [.onClientConnected _ _, .onReceive _ _ _ _, .onClientDisconnected _ _] => true
  | .unixDomainSocketUdpServer,
      [.onClientConnected _ _, .onReceive _ _ _ _, .onClientDisconnected _ _] => true
  | .httpTcpServer, [] | .httpTcpServer, [_] => true
  | .webSocketTcpServer, [] | .webSocketTcpServer, [_] => true
  | _, _ => false

/-! ### A worker -/

/-- Where a worker is: before its first statement, at the test of the loop, waiting, in a
batch with this many events left, notifying the listeners, or returned. After the
notifications come the events that are left, or in a callback, `lws_service`. -/
inductive WorkerPhase
  | entry
  | test
  | wait
  | batch (events : ℕ)
  | notifying (ns : List Notification) (events : Option ℕ)
  | left
  deriving DecidableEq, Repr

/-- What a worker can do: its next statement, take a batch, or handle an event or a callback
up to its notifications. -/
inductive WorkerAct
  | advance
  | take (events : ℕ)
  | handle (ns : List Notification)
  deriving DecidableEq, Repr

/-- The flag and a worker. -/
structure Worker where
  m_run_thread : Bool
  phase : WorkerPhase
  deriving DecidableEq, Repr

/-- A step of `__epoll_thread__`, `__communication_thread__`, `__http_thread__` or
`__websocket_thread__`. -/
def Worker.next (kind : ServerKind) (w : Worker) (act : WorkerAct) :
    Option (Worker × List Notification) :=
  match w.phase, act with
  | .entry, .advance => some ({ m_run_thread := true, phase := .test }, [])
  | .test, .advance =>
      if w.m_run_thread then some ({ w with phase := .wait }, [])
      else some ({ w with phase := .left }, [])
  -- `lws_service` returns
  | .wait, .advance => if kind.service then some ({ w with phase := .test }, []) else none
  | .wait, .take events =>
      if kind.takes events then some ({ w with phase := .batch events }, []) else none
  -- a callback, which does nothing when the flag is off
  | .wait, .handle ns =>
      if kind.service ∧ kind.reports ns then
        if w.m_run_thread then some ({ w with phase := .notifying ns none }, [])
        else some (w, [])
      else none
  | .batch 0, .advance => some ({ w with phase := .test }, [])
  | .batch (events + 1), .handle ns =>
      if kind.reports ns then some ({ w with phase := .notifying ns (some events) }, [])
      else none
  | .notifying (n :: ns) events, .advance =>
      some ({ w with phase := .notifying ns events }, [n])
  | .notifying [] (some events), .advance => some ({ w with phase := .batch events }, [])
  | .notifying [] none, .advance => some ({ w with phase := .wait }, [])
  | _, _ => none

/-- One worker and the flag. -/
abbrev Worker.Step (kind : ServerKind) : Lts Worker WorkerAct Notification :=
  Lts.ofFn (Worker.next kind)

/-! ### A caller and its workers -/

/-- A server with the workers created so far. The last of them is the one that
`m_websocket_thread` names. `joining` is whether the caller is in `pthread_join`. -/
structure Threads where
  m_run_thread : Bool
  workers : List WorkerPhase
  joining : Bool
  deriving DecidableEq, Repr

/-- A server as the constructor leaves it. -/
def Threads.init : Threads :=
  { m_run_thread := false, workers := [], joining := false }

/-- `start`; `pthread_create` is whether that call succeeds. -/
def Threads.start (s : Threads) (pthread_create : Bool) : Bool × Threads :=
  if pthread_create = false then (false, s)
  else (true, { s with workers := s.workers ++ [.entry] })

/-- `stop`, up to `pthread_join` in the class that has it. -/
def Threads.stop (kind : ServerKind) (s : Threads) : Threads :=
  { s with m_run_thread := false, joining := kind.joins }

/-- The worker at `k` has moved, and the flag with it. -/
def Threads.put (s : Threads) (k : ℕ) (w : Worker) : Threads :=
  { s with m_run_thread := w.m_run_thread, workers := s.workers.set k w.phase }

/-- What drives the system: calls of `start` and `stop`, the end of `pthread_join`, and
steps of the workers. -/
inductive ThreadsInput
  | start (pthread_create : Bool)
  | stop
  | join
  | work (k : ℕ) (act : WorkerAct)
  deriving DecidableEq, Repr

/-- One step of caller or worker. A caller in `pthread_join` makes no calls; the join ends
when the worker has returned, or at once if there never was one. -/
def Threads.next (kind : ServerKind) (s : Threads) :
    ThreadsInput → Option (Threads × List Notification)
  | .start pthread_create => if s.joining then none else some ((s.start pthread_create).2, [])
  | .stop => if s.joining then none else some (s.stop kind, [])
  | .join =>
      if s.joining ∧ s.workers.getLast?.getD .left = .left then
        some ({ s with joining := false }, [])
      else none
  | .work k act => do
      let phase ← s.workers[k]?
      let r ← Worker.next kind { m_run_thread := s.m_run_thread, phase } act
      some (s.put k r.1, r.2)

/-- A server of the given class. -/
abbrev Threads.Step (kind : ServerKind) : Lts Threads ThreadsInput Notification :=
  Lts.ofFn (Threads.next kind)

/-- A call of `start`. -/
def ThreadsInput.isStart : ThreadsInput → Bool
  | .start _ => true
  | _ => false

/-- The same while `start` is not called. -/
abbrev Threads.Unstarted (kind : ServerKind) : Lts Threads ThreadsInput Notification :=
  Lts.guarded (fun _ i => i.isStart = false) (Threads.next kind)

/-- With this step a call of `stop` returns. -/
def ThreadsInput.returnsStop (kind : ServerKind) : ThreadsInput → Bool
  | .stop => !kind.joins
  | .join => true
  | _ => false

/-! ### Quiet workers -/

/-- With the flag as it is, the worker has nothing left to report: it has returned, or the
flag is off and the next thing it looks at is the flag. -/
def WorkerPhase.quiet (kind : ServerKind) (m_run_thread : Bool) : WorkerPhase → Bool
  | .left => true
  | .test => !m_run_thread
  | .batch 0 => !m_run_thread
  | .notifying [] (some 0) => !m_run_thread
  | .wait => !m_run_thread && kind.service
  | .notifying [] none => !m_run_thread && kind.service
  | _ => false

/-- The notifications of some event of this class. -/
def ServerKind.someReport : ServerKind → List Notification
  | .inetDomainSocketUdpServer | .unixDomainSocketUdpServer =>
      [.onClientConnected 0 1, .onReceive 0 1 [] 0, .onClientDisconnected 0 1]
  | _ => [.onClientConnected 0 1]

section

variable {kind : ServerKind} {m_run_thread : Bool} {w w' : Worker} {act : WorkerAct}
  {acts : List WorkerAct} {o os : List Notification} {s s' : Threads} {k : ℕ}

/-- A quiet worker reports nothing, stays quiet, and does not touch the flag. -/
theorem WorkerPhase.quiet_step (hq : w.phase.quiet kind w.m_run_thread = true)
    (ht : Worker.Step kind w act w' o) :
    o = [] ∧ w'.m_run_thread = w.m_run_thread ∧
      w'.phase.quiet kind w'.m_run_thread = true := by
  obtain ⟨flag, phase⟩ := w
  have ht : Worker.next kind ⟨flag, phase⟩ act = some (w', o) := ht
  cases phase with
  | entry => simp [WorkerPhase.quiet] at hq
  | left => simp [Worker.next] at ht
  | test =>
      obtain rfl : flag = false := by simpa [WorkerPhase.quiet] using hq
      cases act with
      | advance =>
          obtain ⟨rfl, rfl⟩ := Prod.mk.inj (Option.some.inj ht)
          exact ⟨rfl, rfl, rfl⟩
      | take _ | handle _ => simp [Worker.next] at ht
  | wait =>
      obtain ⟨rfl, hk⟩ : flag = false ∧ kind.service = true := by
        simpa [WorkerPhase.quiet] using hq
      cases act with
      | advance =>
          simp only [Worker.next, hk, if_true] at ht
          obtain ⟨rfl, rfl⟩ := Prod.mk.inj (Option.some.inj ht)
          exact ⟨rfl, rfl, rfl⟩
      | take events => cases kind <;> simp_all [Worker.next, ServerKind.takes, ServerKind.service]
      | handle ns =>
          -- a callback that finds the flag off
          simp only [Worker.next, Option.ite_none_right_eq_some] at ht
          obtain ⟨rfl, rfl⟩ := Prod.mk.inj (Option.some.inj ht.2)
          exact ⟨rfl, rfl, hq⟩
  | batch events =>
      cases events with
      | succ events => simp [WorkerPhase.quiet] at hq
      | zero =>
          cases act with
          | advance =>
              obtain ⟨rfl, rfl⟩ := Prod.mk.inj (Option.some.inj ht)
              exact ⟨rfl, rfl, hq⟩
          | take _ | handle _ => simp [Worker.next] at ht
  | notifying ns events =>
      cases act with
      | take _ | handle _ => simp [Worker.next] at ht
      | advance =>
          cases ns with
          | cons n ns => simp [WorkerPhase.quiet] at hq
          | nil =>
              cases events with
              | none =>
                  obtain ⟨rfl, rfl⟩ := Prod.mk.inj (Option.some.inj ht)
                  exact ⟨rfl, rfl, hq⟩
              | some events =>
                  obtain ⟨rfl, rfl⟩ := Prod.mk.inj (Option.some.inj ht)
                  cases events with
                  | zero => exact ⟨rfl, rfl, hq⟩
                  | succ events => simp [WorkerPhase.quiet] at hq

/-- What is quiet with the flag on is quiet with the flag off. -/
theorem WorkerPhase.quiet_false {phase : WorkerPhase}
    (hq : phase.quiet kind m_run_thread = true) : phase.quiet kind false = true := by
  cases m_run_thread with
  | false => exact hq
  | true =>
      unfold WorkerPhase.quiet at hq ⊢
      split at hq <;> simp_all

/-! ### Workers that are not -/

/-- A worker that may come to report something by itself. -/
def Worker.MayReport (kind : ServerKind) (w : Worker) : Prop :=
  ∃ acts os w', Run (Worker.Step kind) w acts os w' ∧ os ≠ []

/-- A worker that may report after a step might have before it. -/
theorem Worker.MayReport.step (ht : Worker.Step kind w act w' o) (h : w'.MayReport kind) :
    w.MayReport kind := by
  obtain ⟨acts, os, w'', hrun, hos⟩ := h
  exact ⟨_, _, _, Run.cons (T := Worker.Step kind) ht hrun, by simp [hos]⟩

/-- A worker with reports left may report. -/
theorem Worker.mayReport_notifying {n : Notification} {ns : List Notification}
    {events : Option ℕ} : Worker.MayReport kind ⟨m_run_thread, .notifying (n :: ns) events⟩ :=
  ⟨[.advance], [n], _, run_of_exec rfl, by simp⟩

/-- A batch with events left goes on whatever the flag is. -/
theorem Worker.mayReport_batch {events : ℕ} :
    Worker.MayReport kind ⟨m_run_thread, .batch (events + 1)⟩ := by
  have ht : Worker.Step kind ⟨m_run_thread, .batch (events + 1)⟩ (.handle kind.someReport)
      ⟨m_run_thread, .notifying kind.someReport (some events)⟩ [] := by
    cases kind <;> rfl
  refine .step ht ?_
  cases kind <;> exact Worker.mayReport_notifying

/-- So does a wait for events; a callback needs the flag. -/
theorem Worker.mayReport_wait (h : m_run_thread = true ∨ kind.service = false) :
    Worker.MayReport kind ⟨m_run_thread, .wait⟩ := by
  by_cases hk : kind.service = true
  · obtain rfl : m_run_thread = true := by simpa [hk] using h
    have ht : Worker.Step kind ⟨true, .wait⟩ (.handle kind.someReport)
        ⟨true, .notifying kind.someReport none⟩ [] := by
      cases kind <;> first | rfl | cases hk
    refine .step ht ?_
    cases kind <;> exact Worker.mayReport_notifying
  · have ht : Worker.Step kind ⟨m_run_thread, .wait⟩ (.take 1) ⟨m_run_thread, .batch 1⟩ [] := by
      cases kind <;> first | rfl | exact absurd rfl hk
    exact .step ht Worker.mayReport_batch

/-- A worker whose flag is set may. -/
theorem Worker.mayReport_test : Worker.MayReport kind ⟨true, .test⟩ := by
  have ht : Worker.Step kind ⟨true, .test⟩ .advance ⟨true, .wait⟩ [] := rfl
  exact .step ht (Worker.mayReport_wait (.inl rfl))

/-- A worker at its entry sets the flag that its loop will look at. -/
theorem Worker.mayReport_entry : Worker.MayReport kind ⟨m_run_thread, .entry⟩ := by
  have ht : Worker.Step kind ⟨m_run_thread, .entry⟩ .advance ⟨true, .test⟩ [] := rfl
  exact .step ht Worker.mayReport_test

/-- **Any worker that is not quiet may come to report something.** -/
theorem WorkerPhase.reports_of_not_quiet {phase : WorkerPhase}
    (hq : phase.quiet kind m_run_thread = false) :
    Worker.MayReport kind ⟨m_run_thread, phase⟩ := by
  have hbatch : ∀ events : ℕ, events ≠ 0 ∨ m_run_thread = true →
      Worker.MayReport kind ⟨m_run_thread, .batch events⟩ := by
    intro events h
    cases events with
    | succ events => exact Worker.mayReport_batch
    | zero =>
        obtain rfl : m_run_thread = true := by simpa using h
        have ht : Worker.Step kind ⟨true, .batch 0⟩ .advance ⟨true, .test⟩ [] := rfl
        exact .step ht Worker.mayReport_test
  cases phase with
  | left => simp [WorkerPhase.quiet] at hq
  | entry => exact Worker.mayReport_entry
  | test =>
      obtain rfl : m_run_thread = true := by simpa [WorkerPhase.quiet] using hq
      exact Worker.mayReport_test
  | wait =>
      refine Worker.mayReport_wait ?_
      cases m_run_thread <;> simp_all [WorkerPhase.quiet]
  | batch events =>
      refine hbatch events ?_
      cases events <;> simp_all [WorkerPhase.quiet]
  | notifying ns events =>
      cases ns with
      | cons n ns => exact Worker.mayReport_notifying
      | nil =>
          cases events with
          | none =>
              have ht : Worker.Step kind ⟨m_run_thread, .notifying [] none⟩ .advance
                  ⟨m_run_thread, .wait⟩ [] := rfl
              refine .step ht (Worker.mayReport_wait ?_)
              cases m_run_thread <;> simp_all [WorkerPhase.quiet]
          | some events =>
              have ht : Worker.Step kind ⟨m_run_thread, .notifying [] (some events)⟩ .advance
                  ⟨m_run_thread, .batch events⟩ [] := rfl
              refine .step ht (hbatch events ?_)
              cases events <;> simp_all [WorkerPhase.quiet]

/-! ### One worker among others -/

/-- The last store to a worker is the one that counts. -/
theorem Threads.put_put {w w' : Worker} : (s.put k w).put k w' = s.put k w' := by
  simp [Threads.put]

/-- A step of the worker at `k`. -/
theorem Threads.step_work (hk : k < s.workers.length) (ht : Worker.Step kind w act w' o) :
    Threads.Unstarted kind (s.put k w) (.work k act) (s.put k w') o := by
  refine ⟨rfl, ?_⟩
  have hphase : (s.put k w).workers[k]? = some w.phase := by simp [Threads.put, hk]
  have ht : Worker.next kind { m_run_thread := (s.put k w).m_run_thread, phase := w.phase } act =
      some (w', o) := ht
  simp only [Threads.next, hphase, ht, bind, Option.bind_some, Threads.put_put]

/-- **What a worker can do alone it can do among others.** -/
theorem Threads.run_work (hk : k < s.workers.length) (h : Run (Worker.Step kind) w acts os w') :
    Run (Threads.Unstarted kind) (s.put k w) (acts.map (.work k)) os (s.put k w') := by
  have hrun := h.simulate (A := Threads.Unstarted kind) (s.put k) (ThreadsInput.work k) id
    fun ht => by simpa using Threads.step_work hk ht
  simpa using hrun

/-- Storing what is there changes nothing. -/
theorem Threads.put_self {phase : WorkerPhase} (h : s.workers[k]? = some phase) :
    s.put k ⟨s.m_run_thread, phase⟩ = s := by
  obtain ⟨hk, rfl⟩ := List.getElem?_eq_some_iff.mp h
  simp [Threads.put]

end

end AnyServer
