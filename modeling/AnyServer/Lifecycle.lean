import AnyServer.AnyServerImpl

/-!
# Starting All Servers

`AnyServerImpl::start` starts every server of the factory, one after the other, and gives up at
the first whose `pthread_create` fails. Nothing records which servers have a worker: those
started before the failure keep theirs, a second `start` creates second workers, and a `start`
after an `init` that has failed creates workers of servers that are not initialised.

A worker is known by the position of its server in `m_servers`, and by whether a `stop` of that
server has come after it. `start` and `stop` go through `m_server_factory`, so they are not to
be called before `init`.

## Main results

* `ServerFactory.start_eq`: which servers `start` gives a worker.
* `all_or_nothing_iff`: when every call starts all servers or none, and only such as may be
  started.
-/

namespace AnyServer

open Lts

/-! ### Calls of the application -/

/-- A worker thread: the position of its server, and whether it has been asked to stop. -/
structure StartedWorker where
  server : ℕ
  asked : Bool
  deriving DecidableEq, Repr

/-- `start` of the server at position `k`, which is the same in all six classes. -/
def startServer (k : ℕ) (pthread_create : Bool) (workers : List StartedWorker) :
    Bool × List StartedWorker :=
  if pthread_create = false then (false, workers)
  else (true, workers ++ [{ server := k, asked := false }])

/-- `stop` of the server at position `k`. -/
def stopServer (workers : List StartedWorker) (k : ℕ) : List StartedWorker :=
  workers.map fun w => if w.server = k then { w with asked := true } else w

/-- The loop of `ServerFactory::start`, from position `k` on. -/
def startServers (pthread_create : ℕ → Bool) :
    ℕ → List ServerSettings → List StartedWorker → Bool × List StartedWorker
  | _, [], workers => (true, workers)
  | k, _ :: servers, workers =>
      let r := startServer k (pthread_create k) workers
      if r.1 = false then (false, r.2) else startServers pthread_create (k + 1) servers r.2

/-- `ServerFactory::start`. -/
def ServerFactory.start (factory : ServerFactory) (pthread_create : ℕ → Bool)
    (workers : List StartedWorker) : Bool × List StartedWorker :=
  startServers pthread_create 0 factory.m_servers workers

/-- `ServerFactory::stop`. -/
def ServerFactory.stop (factory : ServerFactory) (workers : List StartedWorker) :
    List StartedWorker :=
  (List.range factory.m_servers.length).foldl stopServer workers

/-- The application's object, with `m_run`, and the workers created. -/
structure Lifecycle where
  impl : AnyServerImpl
  m_run : Bool
  workers : List StartedWorker

/-- The constructor, in storage that has `m_server_factory` where that member is. -/
def Lifecycle.construct (m_server_factory : ℕ) : Lifecycle :=
  { impl := .construct m_server_factory, m_run := false, workers := [] }

/-- The factory that `m_server_factory` points to. -/
def Lifecycle.factory (s : Lifecycle) : Option ServerFactory :=
  if s.impl.m_server_factory = 0 then none else s.impl.m_instance

/-- `AnyServerImpl::start`. -/
def Lifecycle.start (s : Lifecycle) (factory : ServerFactory) (pthread_create : ℕ → Bool) :
    Bool × Lifecycle :=
  let r := factory.start pthread_create s.workers
  if r.1 = false then (false, { s with workers := r.2 })
  else (true, { s with workers := r.2, m_run := true })

/-- `AnyServerImpl::stop`. -/
def Lifecycle.stop (s : Lifecycle) (factory : ServerFactory) : Lifecycle :=
  { s with workers := factory.stop s.workers, m_run := false }

/-- `AnyServerImpl::isRun`. -/
def Lifecycle.isRun (s : Lifecycle) : Bool :=
  s.m_run

/-- The calls; `pthread_create` is for each position whether that call succeeds. -/
inductive LifecycleInput
  | init (env : InitEnv)
  | start (pthread_create : ℕ → Bool)
  | stop

/-- One call. -/
def Lifecycle.next (s : Lifecycle) :
    LifecycleInput → Option (Lifecycle × List (Except StdException Bool))
  | .init env => some ({ s with impl := (s.impl.init env).2 }, [(s.impl.init env).1])
  | .start pthread_create => s.factory.map fun factory =>
      ((s.start factory pthread_create).2, [.ok (s.start factory pthread_create).1])
  | .stop => s.factory.map fun factory => (s.stop factory, [])

/-- A sequence of calls, with the results of `init` and `start`. -/
abbrev Lifecycle.Step : Lts Lifecycle LifecycleInput (Except StdException Bool) :=
  ofFn Lifecycle.next

/-! ### What is asked of a call -/

/-- The workers that a step from `s` to `s'` has created. -/
def Lifecycle.created (s s' : Lifecycle) : List StartedWorker :=
  s'.workers.drop s.workers.length

/-- All servers are started or none, and only servers that may be started: they have been
initialised, and have no worker that was not asked to stop. -/
structure AllOrNothing (s : Lifecycle) (i : LifecycleInput) (s' : Lifecycle)
    (o : List (Except StdException Bool)) : Prop where
  initialised : ∀ w ∈ s.created s', ∃ factory, s.factory = some factory ∧
    w.server ∈ factory.initialised
  single : ∀ w ∈ s.created s', ∀ w' ∈ s.workers, w'.server = w.server → w'.asked = true
  nodup : ((s.created s').map StartedWorker.server).Nodup
  nothing : ∀ pthread_create, i = .start pthread_create → o = [.ok false] →
    ∀ w ∈ s.created s', w.asked = true
  isRun : s'.isRun = false → ∀ w ∈ s'.workers, w.asked = true

/-- A `start` comes only to servers that have been initialised and have no worker left that was
not asked to stop, and where a `pthread_create` fails, it is the first one. -/
def StartsAll (s : Lifecycle) : LifecycleInput → Prop
  | .start pthread_create => ∀ factory, s.factory = some factory →
      (∀ k < factory.m_servers.length, (∀ j ≤ k, pthread_create j = true) →
        k ∈ factory.initialised ∧ ∀ w ∈ s.workers, w.server = k → w.asked = true) ∧
      (pthread_create 0 = true → ∀ k < factory.m_servers.length, pthread_create k = true)
  | _ => True

section

variable {factory : ServerFactory} {pthread_create : ℕ → Bool} {workers : List StartedWorker}
  {servers : List ServerSettings} {k : ℕ} {w : StartedWorker} {s s' : Lifecycle}
  {i : LifecycleInput} {o os : List (Except StdException Bool)} {is : List LifecycleInput}

/-! ### The loops over the servers -/

/-- New workers of the servers from position `k` on. -/
def newWorkers (k m : ℕ) : List StartedWorker :=
  (List.range' k m).map fun server => { server, asked := false }

/-- The new workers are one for each of the servers started, none asked to stop. -/
theorem mem_newWorkers {m : ℕ} :
    w ∈ newWorkers k m ↔ w.asked = false ∧ k ≤ w.server ∧ w.server < k + m := by
  rw [newWorkers, List.mem_map]
  constructor
  · rintro ⟨server, hmem, rfl⟩
    exact ⟨rfl, List.mem_range'_1.mp hmem⟩
  · rintro ⟨hasked, hmem⟩
    exact ⟨w.server, List.mem_range'_1.mpr hmem, by rw [← hasked]⟩

/-- The loop starts the servers up to the first whose `pthread_create` fails. -/
theorem startServers_eq (pthread_create : ℕ → Bool) (k : ℕ) (servers : List ServerSettings)
    (workers : List StartedWorker) : ∃ m ≤ servers.length,
    startServers pthread_create k servers workers =
      (decide (m = servers.length), workers ++ newWorkers k m) ∧
    (∀ j < m, pthread_create (k + j) = true) ∧
    (m < servers.length → pthread_create (k + m) = false) := by
  induction servers generalizing k workers with
  | nil => exact ⟨0, Nat.le_refl _, by simp [startServers, newWorkers], by simp, by simp⟩
  | cons server servers ih =>
      cases hcreate : pthread_create k with
      | false =>
          refine ⟨0, Nat.zero_le _, ?_, by simp, fun _ => hcreate⟩
          simp [startServers, startServer, hcreate, newWorkers]
      | true =>
          obtain ⟨m, hle, heq, hall, hfail⟩ :=
            ih (k + 1) (workers ++ [{ server := k, asked := false }])
          refine ⟨m + 1, Nat.succ_le_succ hle, ?_, fun j hj => ?_, fun hlt => ?_⟩
          · simp [startServers, startServer, hcreate, heq, newWorkers, List.range'_succ]
          · cases j with
            | zero => exact hcreate
            | succ j =>
                have := hall j (by omega)
                rwa [Nat.add_right_comm] at this
          · have := hfail (by simpa using hlt)
            rwa [Nat.add_right_comm] at this

/-- **Which servers `start` gives a worker**: the first `m`, and all of them where it returns
`true`. -/
theorem ServerFactory.start_eq (factory : ServerFactory) (pthread_create : ℕ → Bool)
    (workers : List StartedWorker) : ∃ m ≤ factory.m_servers.length,
    factory.start pthread_create workers =
      (decide (m = factory.m_servers.length), workers ++ newWorkers 0 m) ∧
    (∀ j < m, pthread_create j = true) ∧
    (m < factory.m_servers.length → pthread_create m = false) := by
  obtain ⟨m, hle, heq, hall, hfail⟩ :=
    startServers_eq pthread_create 0 factory.m_servers workers
  exact ⟨m, hle, heq, fun j hj => Nat.zero_add j ▸ hall j hj, fun h => Nat.zero_add m ▸ hfail h⟩

/-- `stop` asks the workers of all servers. -/
theorem ServerFactory.mem_stop (hw : w ∈ factory.stop workers) :
    ∃ w' ∈ workers, w.server = w'.server ∧
      (w.server < factory.m_servers.length → w.asked = true) := by
  rw [ServerFactory.stop] at hw
  generalize factory.m_servers.length = n at hw ⊢
  induction n generalizing w with
  | zero => exact ⟨w, by simpa using hw, rfl, fun h => absurd h (Nat.not_lt_zero _)⟩
  | succ n ih =>
      rw [List.range_succ, List.foldl_concat, stopServer] at hw
      obtain ⟨v, hv, heq⟩ := List.mem_map.mp hw
      obtain ⟨w', hw', hserver, hasked⟩ := ih hv
      by_cases hn : v.server = n
      · rw [if_pos hn] at heq
        subst heq
        exact ⟨w', hw', hserver, fun _ => rfl⟩
      · rw [if_neg hn] at heq
        subst heq
        exact ⟨w', hw', hserver, fun hlt => hasked (by omega)⟩

/-- `stop()` ends no worker by itself. -/
theorem ServerFactory.length_stop (factory : ServerFactory) (workers : List StartedWorker) :
    (factory.stop workers).length = workers.length := by
  rw [ServerFactory.stop]
  induction (List.range factory.m_servers.length) using List.reverseRecOn with
  | nil => rfl
  | append_singleton ks k ih => rw [List.foldl_concat, stopServer, List.length_map, ih]

/-! ### A call -/

/-- What a call of `start` does that has given the first `m` servers a worker. -/
structure Lifecycle.Starts (s s' : Lifecycle) (factory : ServerFactory)
    (pthread_create : ℕ → Bool) (result : Bool) (m : ℕ) : Prop where
  le : m ≤ factory.m_servers.length
  created : ∀ j < m, pthread_create j = true
  fails : m < factory.m_servers.length → pthread_create m = false
  result_eq : result = decide (m = factory.m_servers.length)
  factory_eq : s'.factory = s.factory
  workers : s'.workers = s.workers ++ newWorkers 0 m
  isRun : s'.isRun = (result || s.isRun)

/-- What `start()` does: it starts the servers up to the first that fails. -/
theorem Lifecycle.start_spec (s : Lifecycle) (factory : ServerFactory)
    (pthread_create : ℕ → Bool) :
    ∃ m, s.Starts (s.start factory pthread_create).2 factory pthread_create
      (s.start factory pthread_create).1 m := by
  obtain ⟨m, hle, hstart, hall, hfail⟩ := factory.start_eq pthread_create s.workers
  refine ⟨m, hle, hall, hfail, ?_, ?_, ?_, ?_⟩ <;> rw [Lifecycle.start, hstart]
  · cases decide (m = factory.m_servers.length) <;> rfl
  · split <;> rfl
  · split <;> rfl
  · cases decide (m = factory.m_servers.length) <;> rfl

/-- The workers belong to the factory's servers, and there are none before there is one. -/
structure Lifecycle.WellFormed (s : Lifecycle) : Prop where
  workers : ∀ w ∈ s.workers, ∃ factory, s.factory = some factory ∧
    w.server < factory.m_servers.length

/-- A factory is there to stay. -/
theorem Lifecycle.factory_init {env : InitEnv} (hf : s.factory = some factory) :
    (s.impl.init env).2 = s.impl := by
  have hset : s.impl.m_server_factory ≠ 0 := fun hzero => by simp [Lifecycle.factory, hzero] at hf
  rw [AnyServerImpl.init, if_neg hset]

/-- Each call keeps the workers those of the factory's servers. -/
theorem Lifecycle.WellFormed.step (h : s.WellFormed) (ht : Lifecycle.Step s i s' o) :
    s'.WellFormed := by
  cases i with
  | init env =>
      obtain ⟨rfl, -⟩ := Prod.mk.inj (Option.some.inj ht)
      refine ⟨fun w hw => ?_⟩
      obtain ⟨factory, hf, hlt⟩ := h.workers w hw
      exact ⟨factory, by rw [Lifecycle.factory_init hf]; exact hf, hlt⟩
  | start pthread_create =>
      obtain ⟨factory, hf, heq⟩ := Option.map_eq_some_iff.mp ht
      obtain ⟨rfl, -⟩ := Prod.mk.inj heq
      obtain ⟨m, hstart⟩ := s.start_spec factory pthread_create
      refine ⟨fun w hw => ?_⟩
      rw [hstart.factory_eq]
      rw [hstart.workers] at hw
      rcases List.mem_append.mp hw with hw | hw
      · exact h.workers w hw
      · have := (mem_newWorkers.mp hw).2
        have := hstart.le
        exact ⟨factory, hf, by omega⟩
  | stop =>
      obtain ⟨factory, hf, heq⟩ := Option.map_eq_some_iff.mp ht
      obtain ⟨rfl, -⟩ := Prod.mk.inj heq
      refine ⟨fun w hw => ?_⟩
      obtain ⟨w', hw', hserver, -⟩ := ServerFactory.mem_stop hw
      rw [hserver]
      exact h.workers w' hw'

/-- While the servers run, or all workers have been asked to stop. -/
def Lifecycle.Told (s : Lifecycle) : Prop :=
  s.isRun = false → ∀ w ∈ s.workers, w.asked = true

/-- The workers that a `start()` creates are those of the servers it got to. -/
theorem Lifecycle.Starts.mem_created {result : Bool} {m : ℕ}
    (h : s.Starts s' factory pthread_create result m) :
    w ∈ s.created s' ↔ w.asked = false ∧ w.server < m := by
  rw [Lifecycle.created, h.workers, List.drop_left, mem_newWorkers]
  simp

/-- A call that is as asked came to servers that may be started, and a `pthread_create` that
failed was the first. -/
theorem Lifecycle.Starts.startsAll {result : Bool} {m : ℕ}
    (hstart : s.Starts s' factory pthread_create result m) (hf : s.factory = some factory)
    (h : AllOrNothing s (.start pthread_create) s' [.ok result]) :
    StartsAll s (.start pthread_create) := by
  intro factory' hf'
  obtain rfl := Option.some.inj (hf.symm.trans hf')
  constructor
  · intro k hk hreached
    have hkm : k < m := by
      by_contra hmk
      have hpthread := hstart.fails (by omega)
      rw [hreached m (by omega)] at hpthread
      cases hpthread
    have hmem : ⟨k, false⟩ ∈ s.created s' := hstart.mem_created.mpr ⟨rfl, hkm⟩
    obtain ⟨factory', hf', hinit⟩ := h.initialised _ hmem
    obtain rfl := Option.some.inj (hf.symm.trans hf')
    exact ⟨hinit, h.single _ hmem⟩
  · intro hfirst k hk
    by_cases hm : m = factory.m_servers.length
    · exact hstart.created k (by omega)
    · -- the first server has got a worker that the call leaves behind
      have hle := hstart.le
      have hpos : 0 < m := by
        by_contra hzero
        obtain rfl : m = 0 := by omega
        rw [hstart.fails (by omega)] at hfirst
        cases hfirst
      have hmem : ⟨0, false⟩ ∈ s.created s' := hstart.mem_created.mpr ⟨rfl, hpos⟩
      have hfalse : result = false := by rw [hstart.result_eq, decide_eq_false hm]
      have hasked := h.nothing pthread_create rfl (by rw [hfalse]) _ hmem
      cases hasked

/-- Where the call may fail, it creates nothing. -/
theorem Lifecycle.Starts.allOrNothing {result : Bool} {m : ℕ}
    (hstart : s.Starts s' factory pthread_create result m) (hf : s.factory = some factory)
    (htold : s.Told) (h : StartsAll s (.start pthread_create)) :
    AllOrNothing s (.start pthread_create) s' [.ok result] := by
  obtain ⟨hlegitimate, hfirst⟩ := h factory hf
  have hle := hstart.le
  have hnone : result = false → m = 0 := by
    intro hresult
    rw [hstart.result_eq, decide_eq_false_iff_not] at hresult
    by_contra hpos
    have hpthread := hstart.fails (by omega)
    rw [hfirst (hstart.created 0 (by omega)) m (by omega)] at hpthread
    cases hpthread
  have hreached : ∀ w ∈ s.created s', w.server ∈ factory.initialised ∧
      ∀ w' ∈ s.workers, w'.server = w.server → w'.asked = true := by
    intro w hw
    obtain ⟨-, hlt⟩ := hstart.mem_created.mp hw
    exact hlegitimate w.server (by omega) fun j hj => hstart.created j (by omega)
  refine ⟨fun w hw => ⟨factory, hf, (hreached w hw).1⟩, fun w hw => (hreached w hw).2, ?_,
    fun _ _ ho w hw => ?_, fun hrun w hw => ?_⟩
  · rw [Lifecycle.created, hstart.workers, List.drop_left, newWorkers, List.map_map]
    exact (List.nodup_range' ..).map fun _ _ heq => heq
  · have hlt := (hstart.mem_created.mp hw).2
    rw [hnone (by simpa using ho)] at hlt
    exact absurd hlt (Nat.not_lt_zero _)
  · rw [hstart.isRun, Bool.or_eq_false_iff] at hrun
    rw [hstart.workers, hnone hrun.1] at hw
    exact htold hrun.2 w (by simpa [newWorkers] using hw)

/-- **A call starts all servers or none exactly if it should.** -/
theorem Lifecycle.allOrNothing_step (h : s.WellFormed) (htold : s.Told)
    (ht : Lifecycle.Step s i s' o) : AllOrNothing s i s' o ↔ StartsAll s i := by
  cases i with
  | init env =>
      obtain ⟨rfl, rfl⟩ := Prod.mk.inj (Option.some.inj ht)
      refine iff_of_true ⟨?_, ?_, ?_, ?_, htold⟩ trivial <;> simp [Lifecycle.created]
  | start pthread_create =>
      obtain ⟨factory, hf, heq⟩ := Option.map_eq_some_iff.mp ht
      obtain ⟨rfl, rfl⟩ := Prod.mk.inj heq
      obtain ⟨m, hstart⟩ := s.start_spec factory pthread_create
      exact ⟨hstart.startsAll hf, hstart.allOrNothing hf htold⟩
  | stop =>
      obtain ⟨factory, hf, heq⟩ := Option.map_eq_some_iff.mp ht
      obtain ⟨rfl, rfl⟩ := Prod.mk.inj heq
      have hcreated : s.created (s.stop factory) = [] := by
        rw [Lifecycle.created, Lifecycle.stop, List.drop_eq_nil_iff, factory.length_stop]
      refine iff_of_true ⟨?_, ?_, ?_, ?_, fun _ w hw => ?_⟩ trivial
      · simp [hcreated]
      · simp [hcreated]
      · simp [hcreated]
      · simp [hcreated]
      · obtain ⟨w', hw', hserver, hasked⟩ := ServerFactory.mem_stop hw
        obtain ⟨factory', hf', hlt⟩ := h.workers w' hw'
        obtain rfl := Option.some.inj (hf.symm.trans hf')
        exact hasked (hserver ▸ hlt)

/-- So they are in every state of a run. -/
theorem Lifecycle.wellFormed_of_run {m_server_factory : ℕ}
    (h : Run Lifecycle.Step (.construct m_server_factory) is os s) : s.WellFormed :=
  h.invariant (P := fun _ _ s => s.WellFormed) ⟨by simp [Lifecycle.construct]⟩
    fun _ hs ht => hs.step ht

/-- **When `start` is all or nothing.** In a sequence of calls on a new object, every call
starts all servers or none, and only such as may be started, and `isRun` is false only when no
worker is left, exactly if every `start` comes only to servers that are initialised and have no
worker left, and no `pthread_create` fails after one that has succeeded. -/
theorem all_or_nothing_iff {m_server_factory : ℕ}
    (h : Run Lifecycle.Step (.construct m_server_factory) is os s) :
    EachStep Lifecycle.Step AllOrNothing (.construct m_server_factory) is ↔
      Along Lifecycle.Step StartsAll (.construct m_server_factory) is := by
  refine h.eachStep_iff_along deterministic_ofFn fun hrun hC ht => ?_
  refine Lifecycle.allOrNothing_step (Lifecycle.wellFormed_of_run hrun) ?_ ht
  have hstart : (Lifecycle.construct m_server_factory).Told := by
    intro _ w hw
    cases hw
  refine hrun.invariant_along (P := Lifecycle.Told) deterministic_ofFn hstart
    (fun hrun htold hi ht => ?_) hC
  exact ((Lifecycle.allOrNothing_step (Lifecycle.wellFormed_of_run hrun) htold ht).mpr hi).isRun

end

/-! ### Two applications -/

/-- A start, a stop and another start. -/
def startedTwice : List LifecycleInput :=
  [.init (initEnvOf (unixUdpServers ["/a", "/b"])), .start fun _ => true, .stop,
    .start fun _ => true]

/-- A server may be started, stopped and started again. -/
theorem all_or_nothing_iff_startedTwice :
    EachStep Lifecycle.Step AllOrNothing (.construct 0) startedTwice := by
  have hrun : ∃ s, Run Lifecycle.Step (.construct 0) startedTwice
      [.ok true, .ok true, .ok true] s := ⟨_, run_of_exec rfl⟩
  obtain ⟨s, hrun⟩ := hrun
  refine (all_or_nothing_iff hrun).mpr ?_
  refine along_cons rfl trivial (along_cons rfl ?_ (along_cons rfl trivial
    (along_cons rfl ?_ along_nil)))
  · intro factory hf
    obtain rfl := Option.some.inj hf
    exact ⟨by decide, fun _ _ _ => rfl⟩
  · intro factory hf
    obtain rfl := Option.some.inj hf
    exact ⟨by decide, fun _ _ _ => rfl⟩

/-- The thread of the second server cannot be created: `start` returns `false`, and the first
server has a worker, though `isRun` is false. -/
theorem secondThread_fails :
    ∃ s s', Run Lifecycle.Step (.construct 0) [.init (initEnvOf (unixUdpServers ["/a", "/b"]))]
        [.ok true] s ∧
      Lifecycle.Step s (.start fun k => k == 0) s' [.ok false] ∧
      s'.workers = [{ server := 0, asked := false }] ∧ s'.isRun = false ∧
      ¬ AllOrNothing s (.start fun k => k == 0) s' [.ok false] := by
  refine ⟨_, _, run_of_exec rfl, rfl, rfl, rfl, fun h => ?_⟩
  have hasked := h.isRun rfl _ (List.mem_singleton_self _)
  cases hasked

end AnyServer
