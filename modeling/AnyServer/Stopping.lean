import AnyServer.Threads

/-!
# Stopping a Server

`stop` is a store of `false` to a flag that the worker has its own store for: a worker sets
`m_run_thread` as its first statement. What a call of `stop` achieves is decided by where
the workers are.

* The flag stays off, until the next `start`, exactly if no worker is still before its
  first statement when `stop` clears it.
* Nothing more is reported, until the next `start`, exactly if every worker is quiet when
  the call of `stop` returns: it has returned itself, or the flag is the next thing that it
  looks at. A worker that waits for events, or has events of a batch left, or is about to
  notify, is not.

Both conditions are about the state that the caller finds, and for both the theorem says
that they are exact: where they fail, some continuation without a `start` breaks the
promise.

## Main results

* `silent_after_stop_iff`: when nothing is reported after `stop`.
* `stop_lasts_iff`: when `stop` is not undone.
-/

namespace AnyServer

open Lts

/-! ### What a stop may achieve -/

/-- Until the next `start`, nothing is reported. -/
def Threads.Silent (kind : ServerKind) (s : Threads) : Prop :=
  ∀ is os s', Run (Threads.Unstarted kind) s is os s' → os = []

/-- Until the next `start`, the flag is off. -/
def Threads.StaysStopped (kind : ServerKind) (s : Threads) : Prop :=
  ∀ is os s', Run (Threads.Unstarted kind) s is os s' → s'.m_run_thread = false

/-- Every worker is quiet. -/
def Threads.Quiet (kind : ServerKind) (s : Threads) : Prop :=
  ∀ phase ∈ s.workers, phase.quiet kind s.m_run_thread = true

/-- The flag is off and no worker is about to set it. -/
structure Threads.Cleared (s : Threads) : Prop where
  m_run_thread : s.m_run_thread = false
  workers : .entry ∉ s.workers

/-- A `stop` that returns finds every worker quiet, with the flag that it leaves. -/
def StopsQuietly (kind : ServerKind) (s : Threads) : ThreadsInput → Prop
  | .stop => kind.joins = false → ∀ phase ∈ s.workers, phase.quiet kind false = true
  | .join => s.Quiet kind
  | _ => True

/-- A `stop` finds every worker past its first statement. -/
def StopsStarted (s : Threads) : ThreadsInput → Prop
  | .stop => .entry ∉ s.workers
  | _ => True

section

variable {kind : ServerKind} {s s' : Threads} {i : ThreadsInput} {o : List Notification}

/-! ### Steps without a start -/

/-- What can happen without a `start`. -/
theorem Threads.Unstarted.cases (ht : Threads.Unstarted kind s i s' o) :
    (i = .stop ∧ s' = s.stop kind ∧ o = []) ∨
      (i = .join ∧ s' = { s with joining := false } ∧ o = []) ∨
      ∃ k act phase w', i = .work k act ∧ s.workers[k]? = some phase ∧
        Worker.Step kind ⟨s.m_run_thread, phase⟩ act w' o ∧ s' = s.put k w' := by
  obtain ⟨hi, ht⟩ := ht
  cases i with
  | start _ => cases hi
  | stop =>
      simp only [Threads.next, Option.ite_none_left_eq_some] at ht
      obtain ⟨rfl, rfl⟩ := Prod.mk.inj (Option.some.inj ht.2)
      exact .inl ⟨rfl, rfl, rfl⟩
  | join =>
      simp only [Threads.next, Option.ite_none_right_eq_some] at ht
      obtain ⟨rfl, rfl⟩ := Prod.mk.inj (Option.some.inj ht.2)
      exact .inr (.inl ⟨rfl, rfl, rfl⟩)
  | work k act =>
      simp only [Threads.next, bind, Option.bind_eq_some_iff, Option.some.injEq,
        Prod.mk.injEq] at ht
      obtain ⟨phase, hphase, r, hr, rfl, rfl⟩ := ht
      exact .inr (.inr ⟨k, act, phase, r.1, rfl, hphase, hr, rfl⟩)

/-- A quiet worker reports nothing and stays quiet. -/
theorem Threads.quiet_step (hq : s.Quiet kind) (ht : Threads.Unstarted kind s i s' o) :
    o = [] ∧ s'.Quiet kind := by
  rcases ht.cases with ⟨-, rfl, rfl⟩ | ⟨-, rfl, rfl⟩ | ⟨k, act, phase, w', -, hk, hw, rfl⟩
  · exact ⟨rfl, fun phase hphase => WorkerPhase.quiet_false (hq phase hphase)⟩
  · exact ⟨rfl, hq⟩
  · obtain ⟨rfl, hflag, hphase⟩ :=
      WorkerPhase.quiet_step (hq phase (List.mem_of_getElem? hk)) hw
    refine ⟨rfl, fun phase' hphase' => ?_⟩
    rcases List.mem_or_eq_of_mem_set hphase' with hmem | rfl
    · have hflag : w'.m_run_thread = s.m_run_thread := hflag
      simpa only [Threads.put, hflag] using hq phase' hmem
    · exact hphase

/-- Quiet workers leave a silent server. -/
theorem Threads.Quiet.silent (hq : s.Quiet kind) : s.Silent kind := by
  intro is os s' h
  have hinv := h.invariant (P := fun _ os s => os = [] ∧ s.Quiet kind) ⟨rfl, hq⟩ ?_
  · exact hinv.1
  · rintro is os s i s' o - ⟨rfl, hq⟩ ht
    obtain ⟨rfl, hq'⟩ := Threads.quiet_step hq ht
    exact ⟨rfl, hq'⟩

/-- A worker past its first statement leaves the flag alone. -/
theorem Worker.next_keeps {w w' : Worker} {act : WorkerAct} (hw : w.phase ≠ .entry)
    (ht : Worker.Step kind w act w' o) :
    w'.m_run_thread = w.m_run_thread ∧ w'.phase ≠ .entry := by
  have ht : Worker.next kind w act = some (w', o) := ht
  unfold Worker.next at ht
  grind

/-- A run flag that was cleared stays so while no worker starts. -/
theorem Threads.cleared_step (hc : s.Cleared) (ht : Threads.Unstarted kind s i s' o) :
    s'.Cleared := by
  obtain ⟨hflag, hentry⟩ := hc
  rcases ht.cases with ⟨-, rfl, -⟩ | ⟨-, rfl, -⟩ | ⟨k, act, phase, w', -, hk, hw, rfl⟩
  · exact ⟨rfl, hentry⟩
  · exact ⟨hflag, hentry⟩
  · have hne : phase ≠ .entry := fun h => hentry (h ▸ List.mem_of_getElem? hk)
    obtain ⟨hflag', hphase⟩ := Worker.next_keeps (w := ⟨s.m_run_thread, phase⟩) hne hw
    refine ⟨hflag'.trans hflag, fun hmem => ?_⟩
    rcases List.mem_or_eq_of_mem_set hmem with hmem | heq
    · exact hentry hmem
    · exact hphase heq.symm

/-- So a server that was stopped stays stopped. -/
theorem Threads.Cleared.staysStopped (hc : s.Cleared) : s.StaysStopped kind := by
  intro is os s' h
  have hinv := h.invariant (P := fun _ _ s => s.Cleared) hc
    fun _ hc ht => Threads.cleared_step hc ht
  exact hinv.m_run_thread

/-! ### Both conditions are exact -/

/-- **A server is silent until the next `start` exactly if its workers are quiet.** -/
theorem Threads.silent_iff_quiet : s.Silent kind ↔ s.Quiet kind := by
  refine ⟨fun h phase hphase => ?_, Threads.Quiet.silent⟩
  by_contra hq
  obtain ⟨k, hk⟩ := List.getElem?_of_mem hphase
  have hlt : k < s.workers.length := (List.getElem?_eq_some_iff.mp hk).1
  obtain ⟨acts, os, w', hrun, hos⟩ :=
    WorkerPhase.reports_of_not_quiet (Bool.eq_false_iff.mpr hq)
  have hrun := Threads.run_work hlt hrun
  rw [Threads.put_self hk] at hrun
  exact hos (h _ _ _ hrun)

/-- **The flag stays off until the next `start` exactly if it is off and no worker is before
its first statement.** -/
theorem Threads.staysStopped_iff_cleared : s.StaysStopped kind ↔ s.Cleared := by
  refine ⟨fun h => ⟨h _ _ _ .start, fun hentry => ?_⟩, Threads.Cleared.staysStopped⟩
  obtain ⟨k, hk⟩ := List.getElem?_of_mem hentry
  have hlt : k < s.workers.length := (List.getElem?_eq_some_iff.mp hk).1
  have ht : Worker.Step kind ⟨s.m_run_thread, .entry⟩ .advance ⟨true, .test⟩ [] := rfl
  have hrun := Threads.run_work hlt (.single ht)
  rw [Threads.put_self hk] at hrun
  have hflag : (s.put k ⟨true, .test⟩).m_run_thread = false := h _ _ _ hrun
  cases hflag

/-- What the end of a call of `stop` leaves. -/
theorem Threads.Step.returnsStop (ht : Threads.Step kind s i s' o)
    (hi : i.returnsStop kind = true) : s'.Quiet kind ↔ StopsQuietly kind s i := by
  cases i with
  | start _ | work _ _ => cases hi
  | stop =>
      simp only [Lts.ofFn, Threads.next, Option.ite_none_left_eq_some] at ht
      obtain ⟨rfl, -⟩ := Prod.mk.inj (Option.some.inj ht.2)
      have hk : kind.joins = false := by simpa [ThreadsInput.returnsStop] using hi
      simp [StopsQuietly, hk, Threads.Quiet, Threads.stop]
  | join =>
      simp only [Lts.ofFn, Threads.next, Option.ite_none_right_eq_some] at ht
      obtain ⟨rfl, -⟩ := Prod.mk.inj (Option.some.inj ht.2)
      exact Iff.rfl

/-- A stop clears the flag for good exactly when its workers have started. -/
theorem Threads.Step.stop (ht : Threads.Step kind s .stop s' o) :
    s'.Cleared ↔ StopsStarted s .stop := by
  simp only [Lts.ofFn, Threads.next, Option.ite_none_left_eq_some] at ht
  obtain ⟨rfl, -⟩ := Prod.mk.inj (Option.some.inj ht.2)
  exact ⟨fun h => h.workers, fun h => ⟨rfl, h⟩⟩

/-- **When nothing is reported after a stop.** In a run in which every call of `stop` that
returns finds the workers quiet, nothing is reported from then until the next `start`; and
of each such call that is so exactly if it finds them quiet. -/
theorem silent_after_stop_iff (kind : ServerKind) :
    (∀ pre i post os₁ s₁ os₂ s₂,
      Run (Threads.Step kind) .init (pre ++ [i]) os₁ s₁ → i.returnsStop kind = true →
      Run (Threads.Step kind) s₁ post os₂ s₂ → (∀ j ∈ post, j.isStart = false) →
      Along (Threads.Step kind) (StopsQuietly kind) .init (pre ++ i :: post) → os₂ = []) ∧
    (∀ is os s i s' o, Run (Threads.Step kind) .init is os s → Threads.Step kind s i s' o →
      i.returnsStop kind = true → (s'.Silent kind ↔ StopsQuietly kind s i)) := by
  have hstep : ∀ s i s' o, Threads.Step kind s i s' o → i.returnsStop kind = true →
      (s'.Silent kind ↔ StopsQuietly kind s i) := by
    intro s i s' o ht hi
    rw [Threads.silent_iff_quiet, ht.returnsStop hi]
  refine ⟨?_, fun is os s i s' o _ ht hi => hstep s i s' o ht hi⟩
  intro pre i post os₁ s₁ os₂ s₂ h hi h' hpost hall
  obtain ⟨s, osA, o, hpre, ht, -⟩ := h.concat_inv
  exact (hstep s i s₁ o ht hi).mpr (hall pre i post osA s rfl hpre) _ _ _ (h'.guard hpost)

/-- **When a stop is not undone.** In a run in which every `stop` finds the workers past
their first statement, the flag is off from then until the next `start`, so that a worker
that comes to test it leaves; and of each `stop` that is so exactly if it finds them
there. -/
theorem stop_lasts_iff (kind : ServerKind) :
    (∀ pre post os s, Run (Threads.Step kind) .init (pre ++ .stop :: post) os s →
      (∀ j ∈ post, j.isStart = false) →
      Along (Threads.Step kind) StopsStarted .init (pre ++ .stop :: post) →
      s.m_run_thread = false ∧ ∀ k s' o, s.workers[k]? = some .test →
        Threads.Step kind s (.work k .advance) s' o → s'.workers[k]? = some .left) ∧
    (∀ is os s s' o, Run (Threads.Step kind) .init is os s → Threads.Step kind s .stop s' o →
      (s'.StaysStopped kind ↔ StopsStarted s .stop)) := by
  have hstep : ∀ s s' o, Threads.Step kind s .stop s' o →
      (s'.StaysStopped kind ↔ StopsStarted s .stop) := by
    intro s s' o ht
    rw [Threads.staysStopped_iff_cleared, ht.stop]
  refine ⟨?_, fun is os s s' o _ ht => hstep s s' o ht⟩
  intro pre post os s h hpost hall
  obtain ⟨s₀, s₁, os₁, o, os₂, hpre, ht, h', -⟩ := h.split_at
  have hflag : s.m_run_thread = false :=
    (hstep s₀ s₁ o ht).mpr (hall pre .stop post os₁ s₀ rfl hpre) _ _ _ (h'.guard hpost)
  refine ⟨hflag, fun k s' o hk ht => ?_⟩
  have hlt : k < s.workers.length := (List.getElem?_eq_some_iff.mp hk).1
  simp only [Threads.Step, Lts.ofFn, Threads.next, hk, Worker.next, hflag, bind,
    Option.bind_some] at ht
  obtain ⟨rfl, -⟩ := Prod.mk.inj (Option.some.inj ht)
  simp [Threads.put, hlt]

end

/-! ### Four runs -/

/-- A server is started, and its worker reaches its wait. -/
def started : List ThreadsInput :=
  [.start true, .work 0 .advance, .work 0 .advance]

/-- A callback that comes after `stop` reports nothing. -/
theorem silent_after_stop_iff_http :
    ∃ os₂ s₂,
      Run (Threads.Step .httpTcpServer) ⟨false, [.wait], false⟩
        [.work 0 (.handle [.onClientConnected 1 16]), .work 0 .advance] os₂ s₂ ∧ os₂ = [] ∧
      (Threads.Silent .httpTcpServer ⟨false, [.wait], false⟩ ↔
        StopsQuietly .httpTcpServer ⟨true, [.wait], false⟩ .stop) := by
  have hstop : Run (Threads.Step .httpTcpServer) .init (started ++ [.stop]) []
      ⟨false, [.wait], false⟩ := run_of_exec rfl
  have hpost : Run (Threads.Step .httpTcpServer) ⟨false, [.wait], false⟩
      [.work 0 (.handle [.onClientConnected 1 16]), .work 0 .advance] []
      ⟨false, [.test], false⟩ := run_of_exec rfl
  refine ⟨_, _, hpost, ?_, ?_⟩
  · refine (silent_after_stop_iff .httpTcpServer).1 started .stop _ _ _ _ _ hstop rfl hpost
      (by decide) ?_
    refine along_cons rfl trivial (along_cons rfl trivial (along_cons rfl trivial ?_))
    refine along_cons rfl ?_ (along_cons rfl trivial (along_cons rfl trivial along_nil))
    intro _ phase hphase
    obtain rfl : phase = .wait := List.mem_singleton.mp hphase
    rfl
  · exact (silent_after_stop_iff .httpTcpServer).2 started [] _ .stop _ [] (run_of_exec rfl) rfl
      rfl

/-- A connection that comes after `stop` has returned is accepted and reported. -/
theorem connected_after_stop :
    ∃ s₁ s₂, Run (Threads.Step .inetDomainSocketTcpServer) .init (started ++ [.stop]) [] s₁ ∧
      Run (Threads.Step .inetDomainSocketTcpServer) s₁
        [.work 0 (.take 1), .work 0 (.handle [.onClientConnected 1 16]), .work 0 .advance]
        [.onClientConnected 1 16] s₂ :=
  ⟨_, _, run_of_exec rfl, run_of_exec rfl⟩

/-- A worker that has set the flag before `stop` leaves at its first test. -/
theorem stop_lasts_iff_unix :
    ∃ s s', Run (Threads.Step .unixDomainSocketTcpServer) .init
        [.start true, .work 0 .advance, .stop] [] s ∧ s.m_run_thread = false ∧
      Threads.Step .unixDomainSocketTcpServer s (.work 0 .advance) s' [] ∧
      s'.workers[0]? = some .left ∧
      (s.StaysStopped .unixDomainSocketTcpServer ↔ StopsStarted ⟨true, [.test], false⟩ .stop) := by
  have hstop : Run (Threads.Step .unixDomainSocketTcpServer) .init
      ([.start true, .work 0 .advance] ++ .stop :: []) [] ⟨false, [.test], false⟩ :=
    run_of_exec rfl
  have hentry : StopsStarted ⟨true, [.test], false⟩ .stop := by simp [StopsStarted]
  obtain ⟨hflag, hleft⟩ := (stop_lasts_iff .unixDomainSocketTcpServer).1 _ _ _ _ hstop
    (by decide) (along_cons rfl trivial (along_cons rfl trivial (along_cons rfl hentry along_nil)))
  exact ⟨_, _, hstop, hflag, rfl, hleft 0 _ [] rfl rfl,
    (stop_lasts_iff .unixDomainSocketTcpServer).2 [.start true, .work 0 .advance] [] _ _ []
      (run_of_exec rfl) rfl⟩

/-- A worker that has not run yet sets the flag again after `stop`. -/
theorem stop_undone :
    ∃ s₁ s₂, Run (Threads.Step .unixDomainSocketTcpServer) .init [.start true, .stop] [] s₁ ∧
      s₁.m_run_thread = false ∧
      Run (Threads.Step .unixDomainSocketTcpServer) s₁ [.work 0 .advance] [] s₂ ∧
      s₂.m_run_thread = true :=
  ⟨_, _, run_of_exec rfl, rfl, run_of_exec rfl, rfl⟩

end AnyServer
