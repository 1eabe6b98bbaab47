import Mathlib.Logic.Function.Basic
import AnyServer.Library.Keyed
import AnyServer.ServerFactory

/-!
# Taking Servers Down

The destructors of the six classes call their own `stop` and release what the server holds:
the `m_events` of the epoll servers, the context of the libwebsockets servers, and with the
object all the rest. Of the six `stop`s only `WebSocketTcpServer::stop` waits for a worker: it
joins `m_websocket_thread`, whether or not a thread has been created for it or joined before.
The context is a static member of its class, so that a destructor destroys the one that was
created last, by whichever server; `HttpTcpServer` leaves the pointer as it is,
`WebSocketTcpServer` sets it to null. The workers of a class look for their context in the same
pointer. One that is in `lws_service` has got it from there, and its callbacks work for the server
that `lws_context_user(m_context)` is when they are made, which need not be its own.

Here a program makes any sequence of calls on any number of servers, and their workers go on
meanwhile. A destructor is two steps, its `stop` and the rest, and a `stop` that joins is two as
well, since it ends when the worker has returned.

A context is known by the number of contexts created before it, a thread by the number of
threads. `started` and `stale` do not exist in the source: they record of a server whether its
last `start` has succeeded and no `stop` has come since, and of `HttpTcpServer::m_context`
whether it has been destroyed since it was stored.

## Main results

* `Teardown.JoinedLeft.step`: who has been joined has left.
* `Teardown.tornDown_step`: when a call joins and releases only what it may.
* `torn_down_iff`: the same along all sequences of calls.
-/

namespace AnyServer

open Lts

/-! ### Servers, workers and the program -/

/-- A server object: what it has been constructed with, its flag, the thread that it names, and
whether it holds its `m_events`. -/
structure ServerObject where
  settings : ServerSettings
  m_run_thread : Bool
  m_thread : Option ℕ
  m_events : Bool
  started : Bool
  released : Bool
  deriving DecidableEq, Repr

/-- A thread that a `start` has created for a server, and whether it has been joined. `context` is
what it has passed to the `lws_service` that it is in, and `user` the server that the callback works
for that it is in. -/
structure ServerThread where
  object : ℕ
  phase : WorkerPhase
  joined : Bool
  context : Option ℕ
  user : Option ℕ
  deriving DecidableEq, Repr

/-- Where the program is: between two calls, in the `pthread_join` of a `stop` or of a
destructor, or in a destructor after its `stop`. -/
inductive TeardownCall
  | idle
  | joining (thread : Option ℕ) (k : ℕ) (destroys : Bool)
  | destructing (k : ℕ)
  deriving DecidableEq, Repr

/-- The process: servers, threads, the static `m_context` of each class, the user of each context
that has been created, and the contexts that have been destroyed. -/
structure Teardown where
  objects : List ServerObject
  threads : List ServerThread
  m_context : ServerKind → Option ℕ
  users : List ℕ
  destroyed : List ℕ
  stale : Bool
  call : TeardownCall

/-- A process without servers. -/
def Teardown.empty : Teardown :=
  { objects := [], threads := [], m_context := fun _ => none, users := [], destroyed := [],
    stale := false, call := .idle }

/-- A call, the end of a `pthread_join` or of a destructor, or a step of a worker. `malloc` and
`pthread_create` are whether these succeed. -/
inductive TeardownInput
  | construct (settings : ServerSettings)
  | init (k : ℕ) (malloc : Bool) (sys : InitResults)
  | start (k : ℕ) (pthread_create : Bool)
  | stop (k : ℕ)
  | destroy (k : ℕ)
  | resume
  | work (j : ℕ) (act : WorkerAct)
  deriving DecidableEq, Repr

/-- What is joined and released. -/
inductive TeardownObs
  | join (thread : Option ℕ)
  | destroyContext (context : ℕ)
  | freeEvents (k : ℕ)
  | release (k : ℕ)
  deriving DecidableEq, Repr

/-- Whether the server has `m_events`. -/
def ServerKind.polls : ServerKind → Bool
  | .inetDomainSocketTcpServer => true
  | .unixDomainSocketTcpServer => true
  | _ => false

/-! ### The calls -/

/-- The constructors; the thread is not initialised. -/
def Teardown.construct (s : Teardown) (settings : ServerSettings) : Teardown :=
  { s with
    objects := s.objects ++
      [{ settings, m_run_thread := false, m_thread := none, m_events := false, started := false,
         released := false }] }

/-- `init` of the server at `k`, as far as `m_events` and `m_context` go. -/
def Teardown.init (s : Teardown) (k : ℕ) (object : ServerObject) (malloc : Bool)
    (sys : InitResults) : Teardown :=
  let kind := object.settings.kind
  let s :=
    { s with
      objects := s.objects.set k
        { object with m_events := if kind.polls then malloc else object.m_events } }
  match object.settings.storesContext sys with
  | none => s
  | some created =>
      { s with
        m_context :=
          Function.update s.m_context kind (if created then some s.users.length else none)
        users := if created then s.users ++ [k] else s.users
        stale := if kind = .httpTcpServer then false else s.stale }

/-- `start`; a `pthread_create` that fails leaves the thread undefined. -/
def Teardown.start (s : Teardown) (k : ℕ) (object : ServerObject) (pthread_create : Bool) :
    Teardown :=
  if pthread_create then
    { s with
      objects := s.objects.set k
        { object with m_thread := some s.threads.length, started := true }
      threads := s.threads ++
        [{ object := k, phase := .entry, joined := false, context := none, user := none }] }
  else { s with objects := s.objects.set k { object with m_thread := none, started := false } }

/-- The threads once `pthread_join` has been called. -/
def ServerObject.joinThread (object : ServerObject) (threads : List ServerThread) :
    List ServerThread :=
  object.m_thread.elim threads fun j => threads.modify j fun w => { w with joined := true }

/-- `stop`, called by itself or by the destructor, up to `pthread_join` where there is one. -/
def Teardown.stop (s : Teardown) (k : ℕ) (object : ServerObject) (destroys : Bool) :
    Teardown × List TeardownObs :=
  let objects := s.objects.set k { object with m_run_thread := false, started := false }
  if object.settings.kind.joins then
    ({ s with
        objects
        threads := object.joinThread s.threads
        call := .joining object.m_thread k destroys },
      [.join object.m_thread])
  else ({ s with objects, call := if destroys then .destructing k else .idle }, [])

/-- The context that a destructor destroys. -/
def Teardown.ownContext (s : Teardown) (object : ServerObject) : Option ℕ :=
  if object.settings.kind.service then s.m_context object.settings.kind else none

/-- A destructor after its `stop`. -/
def Teardown.destruct (s : Teardown) (k : ℕ) (object : ServerObject) :
    Teardown × List TeardownObs :=
  let kind := object.settings.kind
  let context := s.ownContext object
  ({ s with
      objects := s.objects.set k { object with m_events := false, released := true }
      m_context :=
        if kind = .webSocketTcpServer then Function.update s.m_context kind none
        else s.m_context
      destroyed := s.destroyed ++ context.toList
      stale := if kind = .httpTcpServer then s.stale || context.isSome else s.stale
      call := .idle },
    context.toList.map .destroyContext ++
      (if kind.polls ∧ object.m_events then [.freeEvents k] else []) ++ [.release k])

/-! ### The workers -/

/-- The class of the server at `k`. -/
def Teardown.kindAt (s : Teardown) (k : ℕ) : Option ServerKind :=
  s.objects[k]?.map (·.settings.kind)

/-- `lws_context_user(m_context)`, unless `m_context` is null. -/
def Teardown.contextUser (s : Teardown) (kind : ServerKind) : Option ℕ :=
  (s.m_context kind).bind fun context => s.users[context]?

/-- The flag that a worker looks at: a callback first looks whether there is a context and then at
the flag of the user of the context, everything else at the flag of the worker's own server. -/
def Teardown.flag (s : Teardown) (w : ServerThread) (object : ServerObject) (act : WorkerAct) :
    Bool :=
  match w.phase, act with
  | .wait, .handle _ =>
      ((s.contextUser object.settings.kind).bind fun k => s.objects[k]?).any (·.m_run_thread)
  | _, _ => object.m_run_thread

/-- A worker that has moved on: `lws_service` is called with `m_context`, and a callback that gets
past its two tests works for the user of the context. -/
def Teardown.moved (s : Teardown) (w : ServerThread) (kind : ServerKind) (phase : WorkerPhase) :
    ServerThread :=
  { w with
    phase
    context :=
      match w.phase, phase with
      | .test, .wait => s.m_context kind
      | .wait, .test => none
      | _, _ => w.context
    user :=
      match w.phase, phase with
      | .wait, .notifying _ _ => s.contextUser kind
      | .notifying _ _, .notifying _ _ => w.user
      | _, _ => none }

/-- A step. A program in `pthread_join` or in a destructor makes no calls, and there are none on
servers that have been destroyed. -/
def Teardown.next (s : Teardown) (i : TeardownInput) : Option (Teardown × List TeardownObs) :=
  match i, s.call with
  | .construct settings, .idle => some (s.construct settings, [])
  | .init k malloc sys, .idle => do
      let object ← s.objects[k]?
      if object.released then none else some (s.init k object malloc sys, [])
  | .start k pthread_create, .idle => do
      let object ← s.objects[k]?
      if object.released then none else some (s.start k object pthread_create, [])
  | .stop k, .idle => do
      let object ← s.objects[k]?
      if object.released then none else some (s.stop k object false)
  | .destroy k, .idle => do
      let object ← s.objects[k]?
      if object.released then none else some (s.stop k object true)
  -- a join of no thread, which is undefined, is over at once
  | .resume, .joining thread k destroys =>
      if ∀ j ∈ thread, ∀ w ∈ s.threads[j]?, w.phase = .left then
        some ({ s with call := if destroys then .destructing k else .idle }, [])
      else none
  | .resume, .destructing k => do
      let object ← s.objects[k]?
      some (s.destruct k object)
  -- workers go on, also when their server has been released
  | .work j act, _ => do
      let w ← s.threads[j]?
      let object ← s.objects[w.object]?
      let r ← Worker.next object.settings.kind
        { m_run_thread := s.flag w object act, phase := w.phase } act
      -- the first statement is the only one that stores to a flag
      let m_run_thread := if w.phase = .entry then r.1.m_run_thread else object.m_run_thread
      some ({ s with
        objects := s.objects.set w.object { object with m_run_thread }
        threads := s.threads.set j (s.moved w object.settings.kind r.1.phase) }, [])
  | _, _ => none

/-- Sequences of calls, interleaved with the workers. -/
abbrev Teardown.Step : Lts Teardown TeardownInput TeardownObs :=
  ofFn Teardown.next

/-! ### What is asked of a step -/

/-- A worker uses a context that it is in `lws_service` with, and the one that `m_context` of its
class points to, which is where it looks for a context. -/
def Teardown.UsesContext (s : Teardown) (w : ServerThread) (context : ℕ) : Prop :=
  w.context = some context ∨ ∃ kind, s.kindAt w.object = some kind ∧ s.m_context kind = some context

/-- A worker uses its own server with its `m_events`, the server that the callback works for that
it is in, and the server that the context was created for, with its table of protocols, that it is
in `lws_service` with. -/
def Teardown.UsesObject (s : Teardown) (w : ServerThread) (k : ℕ) : Prop :=
  w.object = k ∨ w.user = some k ∨ (w.context.bind fun context => s.users[context]?) = some k

instance {s : Teardown} {w : ServerThread} {k : ℕ} : Decidable (s.UsesObject w k) :=
  inferInstanceAs (Decidable (_ ∨ _))

/-- Only threads that have been created and not joined are joined, contexts are destroyed once,
and nothing is released that a worker uses which has not left its loop. -/
structure TornDown (s : Teardown) (i : TeardownInput) (s' : Teardown) (o : List TeardownObs) :
    Prop where
  join : ∀ thread, .join thread ∈ o → ∃ j w, thread = some j ∧ s.threads[j]? = some w ∧
    w.joined = false
  once : ∀ context, .destroyContext context ∈ o → context ∉ s.destroyed
  context : ∀ context, .destroyContext context ∈ o → ∀ w ∈ s.threads,
    s.UsesContext w context → w.phase = .left
  object : ∀ k, .freeEvents k ∈ o ∨ .release k ∈ o →
    ∀ w ∈ s.threads, s.UsesObject w k → w.phase = .left

/-- A websocket server is stopped or destroyed only when its last `start` has succeeded and no
`stop` has come since. When a destructor has done its `stop`, the workers that use the server and
that nobody has joined have left their loops; and if there is a context to destroy, so have those
of all servers of the class, and for an http server the context has been stored since one was
destroyed. -/
def TearsDown (s : Teardown) : TeardownInput → Prop
  | .stop k | .destroy k => ∀ object, s.objects[k]? = some object →
      object.settings.kind.joins = true → object.started = true
  | .resume => ∀ k object, s.call = .destructing k → s.objects[k]? = some object →
      (∀ w ∈ s.threads, w.joined = false → s.UsesObject w k → w.phase = .left) ∧
      ((s.ownContext object).isSome →
        (object.settings.kind = .httpTcpServer → s.stale = false) ∧
        ∀ w ∈ s.threads, w.joined = false → s.kindAt w.object = some object.settings.kind →
          w.phase = .left)
  | _ => True

/-! ### What a step does -/

/-- What a step does, by its input and by where a destructor is. -/
inductive TeardownEffect (s : Teardown) : TeardownInput → Teardown → List TeardownObs → Prop
  | construct (settings : ServerSettings) :
      TeardownEffect s (.construct settings) (s.construct settings) []
  | init {k : ℕ} {object : ServerObject} (malloc : Bool) (sys : InitResults)
      (hk : s.objects[k]? = some object) :
      TeardownEffect s (.init k malloc sys) (s.init k object malloc sys) []
  | start {k : ℕ} {object : ServerObject} (pthread_create : Bool)
      (hk : s.objects[k]? = some object) :
      TeardownEffect s (.start k pthread_create) (s.start k object pthread_create) []
  | stop {k : ℕ} {object : ServerObject} (hcall : s.call = .idle)
      (hk : s.objects[k]? = some object) :
      TeardownEffect s (.stop k) (s.stop k object false).1 (s.stop k object false).2
  | destroy {k : ℕ} {object : ServerObject} (hcall : s.call = .idle)
      (hk : s.objects[k]? = some object) :
      TeardownEffect s (.destroy k) (s.stop k object true).1 (s.stop k object true).2
  | joined {thread : Option ℕ} {k : ℕ} {destroys : Bool}
      (hcall : s.call = .joining thread k destroys)
      (hleft : ∀ j w, thread = some j → s.threads[j]? = some w → w.phase = .left) :
      TeardownEffect s .resume { s with call := if destroys then .destructing k else .idle } []
  | destruct {k : ℕ} {object : ServerObject} (hcall : s.call = .destructing k)
      (hk : s.objects[k]? = some object) :
      TeardownEffect s .resume (s.destruct k object).1 (s.destruct k object).2
  | work {j : ℕ} {w : ServerThread} {object : ServerObject} (act : WorkerAct)
      (m_run_thread : Bool) (phase : WorkerPhase) (hj : s.threads[j]? = some w)
      (hk : s.objects[w.object]? = some object) (hphase : w.phase ≠ .left) :
      TeardownEffect s (.work j act)
        { s with
          objects := s.objects.set w.object { object with m_run_thread }
          threads := s.threads.set j (s.moved w object.settings.kind phase) } []

section

variable {s s' s₀ : Teardown} {i : TeardownInput} {is : List TeardownInput}
  {o os : List TeardownObs} {k : ℕ} {object object' : ServerObject}

/-- Calls are on servers that have not been destroyed. -/
theorem Teardown.call_inv {f : ServerObject → Teardown × List TeardownObs}
    (h : (s.objects[k]?.bind fun object => if object.released then none else some (f object)) =
      some (s', o)) :
    ∃ object, s.objects[k]? = some object ∧ f object = (s', o) := by
  obtain ⟨object, hk, h⟩ := Option.bind_eq_some_iff.mp h
  exact ⟨object, hk, Option.some.inj (Option.ite_none_left_eq_some.mp h).2⟩

/-- **Inversion of a step.** -/
theorem Teardown.next_effect (h : s.next i = some (s', o)) : TeardownEffect s i s' o := by
  simp only [Teardown.next] at h
  split at h
  · obtain ⟨rfl, rfl⟩ := Prod.mk.inj (Option.some.inj h)
    exact .construct _
  · obtain ⟨object, hk, h⟩ := Teardown.call_inv h
    obtain ⟨rfl, rfl⟩ := Prod.mk.inj h
    exact .init _ _ hk
  · obtain ⟨object, hk, h⟩ := Teardown.call_inv h
    obtain ⟨rfl, rfl⟩ := Prod.mk.inj h
    exact .start _ hk
  · next hcall =>
    obtain ⟨object, hk, h⟩ := Teardown.call_inv h
    obtain ⟨rfl, rfl⟩ := Prod.mk.inj h
    exact .stop hcall hk
  · next hcall =>
    obtain ⟨object, hk, h⟩ := Teardown.call_inv h
    obtain ⟨rfl, rfl⟩ := Prod.mk.inj h
    exact .destroy hcall hk
  · next hcall =>
    rw [Option.ite_none_right_eq_some] at h
    obtain ⟨hleft, h⟩ := h
    obtain ⟨rfl, rfl⟩ := Prod.mk.inj (Option.some.inj h)
    exact .joined hcall fun j w hthread hw => hleft j hthread w hw
  · next hcall =>
    simp only [bind, Option.bind_eq_some_iff] at h
    obtain ⟨object, hk, h⟩ := h
    obtain ⟨rfl, rfl⟩ := Prod.mk.inj (Option.some.inj h)
    exact .destruct hcall hk
  · simp only [bind, Option.bind_eq_some_iff] at h
    obtain ⟨w, hj, object, hk, r, hr, h⟩ := h
    obtain ⟨rfl, rfl⟩ := Prod.mk.inj (Option.some.inj h)
    refine .work _ _ _ hj hk fun hphase => ?_
    simp [Worker.next, hphase] at hr
  · cases h

/-! ### What holds of every reachable state -/

/-- The thread that the server at `k` names is one of its own, and `started` says of a server
whose `stop` joins whether the thread can be joined. -/
structure ServerObject.Fits (threads : List ServerThread) (k : ℕ) (object : ServerObject) :
    Prop where
  owner : ∀ j, object.m_thread = some j → ∃ w, threads[j]? = some w ∧ w.object = k
  started : object.settings.kind.joins = true → (object.started = true ↔
    ∃ j w, object.m_thread = some j ∧ threads[j]? = some w ∧ w.joined = false)

/-- The class of the server that a context has been created for. -/
def Teardown.contextKind (s : Teardown) (context : ℕ) : Option ServerKind :=
  s.users[context]?.bind s.kindAt

/-- The classes point to contexts of their own servers, and their workers are in `lws_service` with
such; `stale` says of the context of the http servers whether it has been destroyed, and that of the
websocket servers has not been. -/
structure Teardown.WellFormed (s : Teardown) : Prop where
  fits : ∀ (k : ℕ) (object : ServerObject), s.objects[k]? = some object →
    object.Fits s.threads k
  created : ∀ (kind : ServerKind) (c : ℕ), s.m_context kind = some c →
    s.contextKind c = some kind
  serviced : ∀ w ∈ s.threads, ∀ c, w.context = some c →
    ∃ kind, s.contextKind c = some kind ∧ s.kindAt w.object = some kind
  destroyed : ∀ c ∈ s.destroyed, c < s.users.length
  stale : ∀ c, s.m_context .httpTcpServer = some c → (c ∈ s.destroyed ↔ s.stale = true)
  live : ∀ c, s.m_context .webSocketTcpServer = some c → c ∉ s.destroyed

/-- A server fits as long as its own threads stay, joined or not as they were. -/
theorem ServerObject.Fits.frame {threads threads' : List ServerThread} (h : object.Fits threads k)
    (hthreads : ∀ (j : ℕ) (w : ServerThread), threads[j]? = some w → w.object = k →
      ∃ w', threads'[j]? = some w' ∧ w'.object = k ∧ w'.joined = w.joined) :
    object.Fits threads' k := by
  constructor
  · intro j hj
    obtain ⟨w, hw, hk⟩ := h.owner j hj
    obtain ⟨w', hw', hk', -⟩ := hthreads j w hw hk
    exact ⟨w', hw', hk'⟩
  · intro hjoins
    rw [h.started hjoins]
    constructor
    · rintro ⟨j, w, hj, hw, hjoined⟩
      obtain ⟨v, hv, hk⟩ := h.owner j hj
      obtain rfl := Option.some.inj (hw.symm.trans hv)
      obtain ⟨w', hw', -, hjoined'⟩ := hthreads j w hw hk
      exact ⟨j, w', hj, hw', hjoined'.trans hjoined⟩
    · rintro ⟨j, w', hj, hw', hjoined⟩
      obtain ⟨w, hw, hk⟩ := h.owner j hj
      obtain ⟨v, hv, -, hjoined'⟩ := hthreads j w hw hk
      obtain rfl := Option.some.inj (hw'.symm.trans hv)
      exact ⟨j, w, hj, hw, hjoined'.symm.trans hjoined⟩

/-- What a server fits by. -/
theorem ServerObject.Fits.congr {threads : List ServerThread} (h : object.Fits threads k)
    (hthread : object'.m_thread = object.m_thread) (hsettings : object'.settings = object.settings)
    (hstarted : object'.started = object.started) : object'.Fits threads k := by
  constructor
  · rw [hthread]
    exact h.owner
  · rw [hthread, hsettings, hstarted]
    exact h.started

/-- A thread has been appended. -/
theorem ServerObject.Fits.append {threads : List ServerThread} {w : ServerThread}
    (h : object.Fits threads k) : object.Fits (threads ++ [w]) k := by
  refine h.frame fun j v hv hk => ⟨v, ?_, hk, rfl⟩
  rw [List.getElem?_append_left (List.getElem?_eq_some_iff.mp hv).1]
  exact hv

/-- Servers after a change to one of them. -/
theorem Teardown.fits_set {threads : List ServerThread} (hk : s.objects[k]? = some object)
    (hothers : ∀ (j : ℕ) (object : ServerObject), s.objects[j]? = some object → j ≠ k →
      object.Fits threads j)
    (hobject : object'.Fits threads k) (j : ℕ) (object₁ : ServerObject)
    (hj : (s.objects.set k object')[j]? = some object₁) : object₁.Fits threads j := by
  rcases Keyed.getElem?_set_cases hk hj with ⟨rfl, rfl⟩ | ⟨hne, hj⟩
  · exact hobject
  · exact hothers j object₁ hj hne

/-- The thread that `start` creates belongs to the server; where there is none, none can be
joined. -/
theorem Teardown.start_fits (h : s.WellFormed) (hk : s.objects[k]? = some object)
    (pthread_create : Bool) (j : ℕ) (object₁ : ServerObject)
    (hj : (s.start k object pthread_create).objects[j]? = some object₁) :
    object₁.Fits (s.start k object pthread_create).threads j := by
  cases pthread_create with
  | false =>
      refine Teardown.fits_set hk (fun j object hj _ => h.fits j object hj) ⟨?_, ?_⟩ j object₁ hj
      · simp
      · simp
  | true =>
      refine Teardown.fits_set hk (fun j object hj _ => (h.fits j object hj).append) ⟨?_, ?_⟩ j
        object₁ hj
      · rintro j' hj'
        obtain rfl := Option.some.inj hj'
        exact ⟨_, List.getElem?_concat_length, rfl⟩
      · exact fun _ => iff_of_true rfl ⟨_, _, rfl, List.getElem?_concat_length, rfl⟩

/-- Joining marks the thread of the object and no other. -/
theorem ServerObject.getElem?_joinThread (threads : List ServerThread) (j : ℕ) :
    (object.joinThread threads)[j]? = threads[j]?.map fun w =>
      if object.m_thread = some j then { w with joined := true } else w := by
  cases hthread : object.m_thread with
  | none => simp [ServerObject.joinThread, hthread]
  | some i =>
      rw [ServerObject.joinThread, hthread, Option.elim_some, List.getElem?_modify]
      simp

/-- A `stop` marks threads and changes nothing else of them. -/
theorem Teardown.stop_threads {destroys : Bool} {w' : ServerThread}
    (h : w' ∈ (s.stop k object destroys).1.threads) :
    ∃ w ∈ s.threads, w'.object = w.object ∧ w'.context = w.context := by
  unfold Teardown.stop at h
  split at h
  · obtain ⟨j, hj⟩ := List.getElem?_of_mem h
    rw [ServerObject.getElem?_joinThread] at hj
    obtain ⟨w, hw, rfl⟩ := Option.map_eq_some_iff.mp hj
    refine ⟨w, List.mem_of_getElem? hw, ?_, ?_⟩ <;> split <;> rfl
  · exact ⟨w', h, rfl, rfl⟩

/-- A `stop` marks no thread of another server. -/
theorem Teardown.stop_fits (h : s.WellFormed) (hk : s.objects[k]? = some object)
    (destroys : Bool) (j : ℕ) (object₁ : ServerObject)
    (hj : (s.stop k object destroys).1.objects[j]? = some object₁) :
    object₁.Fits (s.stop k object destroys).1.threads j := by
  cases hjoins : object.settings.kind.joins with
  | false =>
      rw [Teardown.stop, if_neg (by simp [hjoins])] at hj ⊢
      refine Teardown.fits_set hk (fun j object hj _ => h.fits j object hj) ?_ j object₁ hj
      refine ⟨(h.fits k object hk).owner, fun hjoins' => ?_⟩
      cases hjoins.symm.trans hjoins'
  | true =>
      rw [Teardown.stop, if_pos hjoins] at hj ⊢
      have hobject := h.fits k object hk
      refine Teardown.fits_set hk (fun j object' hj hne => ?_) ⟨?_, fun _ => ?_⟩ j object₁ hj
      · refine (h.fits j object' hj).frame fun i w hi hw => ⟨w, ?_, hw, rfl⟩
        rw [ServerObject.getElem?_joinThread, hi, Option.map_some, if_neg]
        intro hthread
        obtain ⟨v, hv, hvk⟩ := hobject.owner i hthread
        obtain rfl := Option.some.inj (hi.symm.trans hv)
        exact hne (hw.symm.trans hvk)
      · intro i hthread
        obtain ⟨w, hw, hwk⟩ := hobject.owner i hthread
        refine ⟨{ w with joined := true }, ?_, hwk⟩
        rw [ServerObject.getElem?_joinThread, hw, Option.map_some, if_pos hthread]
      · refine iff_of_false Bool.false_ne_true ?_
        rintro ⟨i, w, hthread, hw, hjoined⟩
        rw [ServerObject.getElem?_joinThread] at hw
        obtain ⟨v, -, rfl⟩ := Option.map_eq_some_iff.mp hw
        rw [if_pos hthread] at hjoined
        cases hjoined

/-- A worker's step changes no server but in its flag, and of no thread whose it is. -/
theorem Teardown.work_fits (h : s.WellFormed) {j : ℕ} {w : ServerThread} (m_run_thread : Bool)
    (phase : WorkerPhase) (hj : s.threads[j]? = some w) (hk : s.objects[w.object]? = some object)
    (k : ℕ) (object₁ : ServerObject)
    (hk₁ : (s.objects.set w.object { object with m_run_thread })[k]? = some object₁) :
    object₁.Fits (s.threads.set j (s.moved w object.settings.kind phase)) k := by
  have hframe (k : ℕ) (object' : ServerObject) (hk : s.objects[k]? = some object') :
      object'.Fits (s.threads.set j (s.moved w object.settings.kind phase)) k := by
    refine (h.fits k object' hk).frame fun i v hi hv => ?_
    rw [List.getElem?_set]
    split
    · next hij =>
      subst hij
      obtain rfl := Option.some.inj (hj.symm.trans hi)
      exact ⟨_, if_pos (List.getElem?_eq_some_iff.mp hj).1, hv, rfl⟩
    · exact ⟨v, hi, hv, rfl⟩
  refine Teardown.fits_set hk (fun k object hk _ => hframe k object hk) ?_ k object₁ hk₁
  exact (hframe _ _ hk).congr rfl rfl rfl

/-- A context of a class is one that has been created. -/
theorem Teardown.lt_of_contextKind {c : ℕ} {kind : ServerKind} (h : s.contextKind c = some kind) :
    c < s.users.length := by
  obtain ⟨k, hk, -⟩ := Option.bind_eq_some_iff.mp h
  exact (List.getElem?_eq_some_iff.mp hk).1

/-- The two libwebsockets classes point to different contexts. -/
theorem Teardown.WellFormed.distinct (h : s.WellFormed) {kind kind' : ServerKind} {c : ℕ}
    (hc : s.m_context kind = some c) (hc' : s.m_context kind' = some c) : kind = kind' :=
  Option.some.inj ((h.created kind c hc).symm.trans (h.created kind' c hc'))

/-- The class at `k` is that of the server at `k`. -/
theorem Teardown.kindAt_eq (hk : s.objects[k]? = some object) :
    s.kindAt k = some object.settings.kind := by
  rw [Teardown.kindAt, hk, Option.map_some]

/-- The servers that there have been keep their classes. -/
theorem Teardown.kindAt_mono
    (hobjects : s.objects.map (·.settings.kind) <+: s'.objects.map (·.settings.kind))
    {kind : ServerKind} (hk : s.kindAt k = some kind) : s'.kindAt k = some kind := by
  obtain ⟨added, hadded⟩ := hobjects
  rw [Teardown.kindAt, ← List.getElem?_map] at hk ⊢
  rw [← hadded, List.getElem?_append_left (List.getElem?_eq_some_iff.mp hk).1]
  exact hk

/-- So do the contexts that have been created. -/
theorem Teardown.contextKind_mono
    (hobjects : s.objects.map (·.settings.kind) <+: s'.objects.map (·.settings.kind))
    (husers : s.users <+: s'.users) {c : ℕ} {kind : ServerKind}
    (hc : s.contextKind c = some kind) : s'.contextKind c = some kind := by
  obtain ⟨k, hk, hkind⟩ := Option.bind_eq_some_iff.mp hc
  obtain ⟨added, hadded⟩ := husers
  have hk' : s'.users[c]? = some k := by
    rw [← hadded, List.getElem?_append_left (List.getElem?_eq_some_iff.mp hk).1]
    exact hk
  exact Option.bind_eq_some_iff.mpr ⟨k, hk', Teardown.kindAt_mono hobjects hkind⟩

/-- A change to one server that keeps its settings. -/
theorem Teardown.kinds_set (hk : s.objects[k]? = some object)
    (hsettings : object'.settings = object.settings) :
    s.objects.map (·.settings.kind) <+: (s.objects.set k object').map (·.settings.kind) := by
  rw [Keyed.map_set hk (by rw [hsettings])]

/-- Nothing has happened to the contexts; `threads` is what the workers in `lws_service` have been
before. -/
theorem Teardown.WellFormed.frame (h : s.WellFormed)
    (hfits : ∀ (k : ℕ) (object : ServerObject), s'.objects[k]? = some object →
      object.Fits s'.threads k)
    (hobjects : s.objects.map (·.settings.kind) <+: s'.objects.map (·.settings.kind))
    (hthreads : ∀ w' ∈ s'.threads, ∀ c, w'.context = some c →
      ∃ kind, s.contextKind c = some kind ∧ s.kindAt w'.object = some kind)
    (hm_context : s'.m_context = s.m_context) (husers : s'.users = s.users)
    (hdestroyed : s'.destroyed = s.destroyed) (hstale : s'.stale = s.stale) : s'.WellFormed := by
  have hprefix : s.users <+: s'.users := husers ▸ List.prefix_rfl
  refine ⟨hfits, fun kind c hc => ?_, fun w' hw' c hc => ?_, ?_, ?_, ?_⟩
  · rw [hm_context] at hc
    exact Teardown.contextKind_mono hobjects hprefix (h.created kind c hc)
  · obtain ⟨kind, hkind, hobject⟩ := hthreads w' hw' c hc
    exact ⟨kind, Teardown.contextKind_mono hobjects hprefix hkind,
      Teardown.kindAt_mono hobjects hobject⟩
  · rw [hdestroyed, husers]
    exact h.destroyed
  · rw [hm_context, hdestroyed, hstale]
    exact h.stale
  · rw [hm_context, hdestroyed]
    exact h.live

/-- A new context is none of those that there have been. -/
theorem Teardown.WellFormed.init (h : s.WellFormed) (hk : s.objects[k]? = some object)
    (malloc : Bool) (sys : InitResults) : (s.init k object malloc sys).WellFormed := by
  have hfits (j : ℕ) (object₁ : ServerObject)
      (hj : (s.objects.set k { object with m_events :=
        if object.settings.kind.polls then malloc else object.m_events })[j]? = some object₁) :
      object₁.Fits s.threads j := by
    refine Teardown.fits_set hk (fun j object hj _ => h.fits j object hj) ?_ j object₁ hj
    exact (h.fits k object hk).congr rfl rfl rfl
  unfold Teardown.init
  cases object.settings.storesContext sys with
  | none => exact h.frame hfits (Teardown.kinds_set hk rfl) h.serviced rfl rfl rfl rfl
  | some created =>
      have hnew {kind : ServerKind} {c : ℕ}
          (hc : Function.update s.m_context object.settings.kind
            (if created then some s.users.length else none) kind = some c) :
          kind = object.settings.kind ∧ created = true ∧ c = s.users.length ∨
            kind ≠ object.settings.kind ∧ s.m_context kind = some c := by
        rw [Function.update_apply] at hc
        split at hc
        · next hkind =>
          obtain ⟨hcreated, hc⟩ := Option.ite_none_right_eq_some.mp hc
          exact .inl ⟨hkind, hcreated, (Option.some.inj hc).symm⟩
        · next hkind => exact .inr ⟨hkind, hc⟩
      have hfresh : s.users.length ∉ s.destroyed := fun hmem => (h.destroyed _ hmem).ne rfl
      have hobjects : s.objects.map (·.settings.kind) <+: (s.objects.set k { object with
          m_events := if object.settings.kind.polls then malloc else object.m_events }).map
          (·.settings.kind) := Teardown.kinds_set hk rfl
      have husers : s.users <+: if created then s.users ++ [k] else s.users := by
        split
        · exact List.prefix_append _ _
        · exact List.prefix_rfl
      refine ⟨hfits, fun kind c hc => ?_, fun w hw c hc => ?_, fun c hc => ?_, fun c hc => ?_,
        fun c hc => ?_⟩
      · rcases hnew hc with ⟨rfl, rfl, rfl⟩ | ⟨-, hc⟩
        · -- the context just created is one for this server
          exact Option.bind_eq_some_iff.mpr ⟨k, List.getElem?_concat_length,
            Teardown.kindAt_mono hobjects (Teardown.kindAt_eq hk)⟩
        · exact Teardown.contextKind_mono hobjects husers (h.created kind c hc)
      · obtain ⟨kind, hkind, hobject⟩ := h.serviced w hw c hc
        exact ⟨kind, Teardown.contextKind_mono hobjects husers hkind,
          Teardown.kindAt_mono hobjects hobject⟩
      · exact (h.destroyed c hc).trans_le husers.length_le
      · rcases hnew hc with ⟨hkind, -, rfl⟩ | ⟨hkind, hc⟩
        · simp [hkind.symm, hfresh]
        · simpa only [if_neg (Ne.symm hkind)] using h.stale c hc
      · rcases hnew hc with ⟨-, -, rfl⟩ | ⟨-, hc⟩
        · exact hfresh
        · exact h.live c hc

/-- A destructor destroys the context of its class, if it is a class with one. -/
theorem Teardown.ownContext_eq_some {c : ℕ} : s.ownContext object = some c ↔
    object.settings.kind.service = true ∧ s.m_context object.settings.kind = some c := by
  rw [Teardown.ownContext, Option.ite_none_right_eq_some]

/-- Only the class of a context destroys it. -/
theorem Teardown.WellFormed.ownContext_iff (h : s.WellFormed) {kind : ServerKind} {c : ℕ}
    (hc : s.m_context kind = some c) (hservice : kind.service = true) :
    s.ownContext object = some c ↔ object.settings.kind = kind := by
  rw [Teardown.ownContext_eq_some]
  constructor
  · rintro ⟨-, hc'⟩
    exact h.distinct hc' hc
  · rintro rfl
    exact ⟨hservice, hc⟩

/-- A destructor destroys a context that there is, and leaves no other pointer to it. -/
theorem Teardown.WellFormed.destruct (h : s.WellFormed) (hk : s.objects[k]? = some object) :
    (s.destruct k object).1.WellFormed := by
  have hkept {kind : ServerKind} {c : ℕ}
      (hc : (s.destruct k object).1.m_context kind = some c) : s.m_context kind = some c := by
    simp only [Teardown.destruct] at hc
    split at hc
    · rw [Function.update_apply] at hc
      exact (Option.ite_none_left_eq_some.mp hc).2
    · exact hc
  have hobjects : s.objects.map (·.settings.kind) <+: (s.objects.set k { object with
      m_events := false, released := true }).map (·.settings.kind) := Teardown.kinds_set hk rfl
  have husers : s.users <+: (s.destruct k object).1.users := List.prefix_rfl
  refine ⟨?_, fun kind c hc => ?_, fun w hw c hc => ?_, fun c hc => ?_, fun c hc => ?_,
    fun c hc => ?_⟩
  · exact Teardown.fits_set hk (fun j object hj _ => h.fits j object hj)
      ((h.fits k object hk).congr rfl rfl rfl)
  · exact Teardown.contextKind_mono hobjects husers (h.created kind c (hkept hc))
  · obtain ⟨kind, hkind, hobject⟩ := h.serviced w hw c hc
    exact ⟨kind, Teardown.contextKind_mono hobjects husers hkind,
      Teardown.kindAt_mono hobjects hobject⟩
  · rcases List.mem_append.mp hc with hc | hc
    · exact h.destroyed c hc
    · have hown := Teardown.ownContext_eq_some.mp (Option.mem_toList.mp hc)
      have hlt : c < s.users.length := Teardown.lt_of_contextKind (h.created _ c hown.2)
      exact hlt
  · have hown : s.ownContext object = some c ↔ _ := h.ownContext_iff (hkept hc) rfl
    simp only [Teardown.destruct, List.mem_append, Option.mem_toList]
    split
    · next hkind => simp [hown.mpr hkind]
    · next hkind => simp [mt hown.mp hkind, h.stale c (hkept hc)]
  · have hown : s.ownContext object = some c ↔ _ := h.ownContext_iff (hkept hc) rfl
    have hkind : object.settings.kind ≠ .webSocketTcpServer := by
      intro hkind
      simp [Teardown.destruct, hkind] at hc
    simp only [Teardown.destruct, List.mem_append, Option.mem_toList, not_or]
    exact ⟨h.live c (hkept hc), mt hown.mp hkind⟩

/-- What a worker is in `lws_service` with, it has been before or finds in `m_context`. -/
theorem Teardown.moved_context {w : ServerThread} {kind : ServerKind} {phase : WorkerPhase} {c : ℕ}
    (h : (s.moved w kind phase).context = some c) :
    s.m_context kind = some c ∨ w.context = some c := by
  simp only [Teardown.moved] at h
  split at h
  · exact .inl h
  · cases h
  · exact .inr h

/-- **What a step keeps.** -/
theorem Teardown.WellFormed.step (h : s.WellFormed) (ht : Teardown.Step s i s' o) :
    s'.WellFormed := by
  cases Teardown.next_effect ht with
  | construct settings =>
      refine h.frame (fun j object hj => ?_) ?_ h.serviced rfl rfl rfl rfl
      · simp only [Teardown.construct, List.getElem?_append] at hj
        split at hj
        · exact h.fits j object hj
        · obtain rfl := List.mem_singleton.mp (List.mem_of_getElem? hj)
          exact ⟨by simp, by simp⟩
      · rw [Teardown.construct, List.map_append]
        exact List.prefix_append _ _
  | init malloc sys hk => exact h.init hk malloc sys
  | start pthread_create hk =>
      refine h.frame (Teardown.start_fits h hk pthread_create) ?_ (fun w hw c hc => ?_) ?_ ?_ ?_ ?_
      · cases pthread_create <;> exact Teardown.kinds_set hk rfl
      · cases pthread_create with
        | false => exact h.serviced w hw c hc
        | true =>
            rcases List.mem_append.mp hw with hw | hw
            · exact h.serviced w hw c hc
            · rw [List.mem_singleton.mp hw] at hc
              cases hc
      all_goals cases pthread_create <;> rfl
  | stop hcall hk | destroy hcall hk =>
      refine h.frame (Teardown.stop_fits h hk _) ?_ (fun w' hw' c hc => ?_) ?_ ?_ ?_ ?_
      · unfold Teardown.stop
        split <;> exact Teardown.kinds_set hk rfl
      · obtain ⟨w, hw, hobject, hcontext⟩ := Teardown.stop_threads hw'
        rw [hobject]
        exact h.serviced w hw c (hcontext ▸ hc)
      all_goals
        unfold Teardown.stop
        split <;> rfl
  | joined hcall hleft => exact h.frame h.fits List.prefix_rfl h.serviced rfl rfl rfl rfl
  | destruct hcall hk => exact h.destruct hk
  | @work j w object act m_run_thread phase hj hk hphase =>
      refine h.frame (Teardown.work_fits h m_run_thread phase hj hk) (Teardown.kinds_set hk rfl)
        (fun w' hw' c hc => ?_) rfl rfl rfl rfl
      rcases List.mem_or_eq_of_mem_set hw' with hw' | rfl
      · exact h.serviced w' hw' c hc
      · rcases Teardown.moved_context hc with hc | hc
        · exact ⟨_, h.created _ c hc, Teardown.kindAt_eq hk⟩
        · exact h.serviced w (List.mem_of_getElem? hj) c hc

/-- **A whole run.** -/
theorem Teardown.wellFormed_of_run (h : Run Teardown.Step .empty is os s) : s.WellFormed := by
  refine h.invariant (P := fun _ _ s => s.WellFormed) ?_ fun _ hs ht => hs.step ht
  refine ⟨?_, ?_, ?_, ?_, ?_, ?_⟩ <;> simp [Teardown.empty]

/-- A thread that has been joined has left its loop, once `pthread_join` is over. -/
def Teardown.JoinedLeft (s : Teardown) : Prop :=
  ∀ j w, s.threads[j]? = some w → w.joined = true → w.phase = .left ∨
    ∃ k destroys, s.call = .joining (some j) k destroys

/-- `stop()` leaves only workers joined that have left their loops. -/
theorem Teardown.JoinedLeft.stop (h : s.JoinedLeft) (hcall : s.call = .idle) (destroys : Bool) :
    (s.stop k object destroys).1.JoinedLeft := by
  have hleft (j : ℕ) (w : ServerThread) (hw : s.threads[j]? = some w) (hjoined : w.joined = true) :
      w.phase = .left := by
    rcases h j w hw hjoined with hleft | ⟨k, destroys, hjoining⟩
    · exact hleft
    · cases hcall.symm.trans hjoining
  rw [Teardown.stop]
  split
  · intro j w hw hjoined
    rw [ServerObject.getElem?_joinThread] at hw
    obtain ⟨v, hv, rfl⟩ := Option.map_eq_some_iff.mp hw
    by_cases hthread : object.m_thread = some j
    · exact .inr ⟨k, destroys, by rw [hthread]⟩
    · rw [if_neg hthread] at hjoined ⊢
      exact .inl (hleft j v hv hjoined)
  · exact fun j w hw hjoined => .inl (hleft j w hw hjoined)

/-- So does every step. -/
theorem Teardown.JoinedLeft.step (h : s.JoinedLeft) (ht : Teardown.Step s i s' o) :
    s'.JoinedLeft := by
  cases Teardown.next_effect ht with
  | construct settings => exact h
  | init malloc sys hk =>
      unfold Teardown.init
      split <;> exact h
  | start pthread_create hk =>
      cases pthread_create with
      | false => exact h
      | true =>
          intro j w hw hjoined
          simp only [Teardown.start, if_true, List.getElem?_append] at hw
          split at hw
          · exact h j w hw hjoined
          · obtain rfl := List.mem_singleton.mp (List.mem_of_getElem? hw)
            cases hjoined
  | stop hcall hk | destroy hcall hk => exact h.stop hcall _
  | joined hcall hleft =>
      intro j w hw hjoined
      rcases h j w hw hjoined with hphase | ⟨k, destroys, hjoining⟩
      · exact .inl hphase
      · cases hcall.symm.trans hjoining
        exact .inl (hleft j w rfl hw)
  | destruct hcall hk =>
      intro j w hw hjoined
      rcases h j w hw hjoined with hphase | ⟨k, destroys, hjoining⟩
      · exact .inl hphase
      · cases hcall.symm.trans hjoining
  | work act m_run_thread phase hj hk hphase =>
      intro j w hw hjoined
      rcases Keyed.getElem?_set_cases hj hw with ⟨rfl, rfl⟩ | ⟨-, hw⟩
      · exact .inr ((h j _ hj hjoined).resolve_left hphase)
      · exact h j w hw hjoined

/-- So every worker that was joined has left its loop. -/
theorem Teardown.joinedLeft_of_run (h : Run Teardown.Step .empty is os s) : s.JoinedLeft :=
  h.invariant (P := fun _ _ s => s.JoinedLeft) (by simp [Teardown.JoinedLeft, Teardown.empty])
    fun _ hs ht => hs.step ht

/-- In a destructor after its `stop`, the workers that have been joined have left. -/
theorem Teardown.JoinedLeft.left (h : s.JoinedLeft) (hcall : s.call = .destructing k)
    {w : ServerThread} (hw : w ∈ s.threads) (hjoined : w.joined = true) : w.phase = .left := by
  obtain ⟨j, hj⟩ := List.getElem?_of_mem hw
  rcases h j w hj hjoined with hleft | ⟨k', destroys, hjoining⟩
  · exact hleft
  · cases hcall.symm.trans hjoining

/-! ### When a step is as asked -/

/-- A step without releases tears down nothing too early. -/
theorem tornDown_nil : TornDown s i s' [] :=
  ⟨by simp, by simp, by simp, by simp⟩

/-- What `stop` may join. -/
theorem Teardown.tornDown_stop (h : s.WellFormed) (hk : s.objects[k]? = some object)
    (destroys : Bool) :
    TornDown s i s' (s.stop k object destroys).2 ↔
      (object.settings.kind.joins = true → object.started = true) := by
  cases hjoins : object.settings.kind.joins with
  | false =>
      rw [Teardown.stop, if_neg (by simp [hjoins])]
      exact iff_of_true tornDown_nil (by simp)
  | true =>
      rw [Teardown.stop, if_pos hjoins, imp_iff_right rfl, (h.fits k object hk).started hjoins]
      constructor
      · intro hdown
        exact hdown.join _ (List.mem_singleton_self _)
      · intro hcan
        refine ⟨fun thread hmem => ?_, by simp, by simp, by simp⟩
        cases List.mem_singleton.mp hmem
        exact hcan

/-- A destructor destroys its own context. -/
theorem Teardown.destroyContext_mem_destruct {c : ℕ} :
    .destroyContext c ∈ (s.destruct k object).2 ↔ s.ownContext object = some c := by
  simp only [Teardown.destruct, List.mem_append, List.mem_map, Option.mem_toList,
    List.mem_singleton]
  split <;> simp

/-- A destructor joins nobody. -/
theorem Teardown.join_notMem_destruct {thread : Option ℕ} :
    .join thread ∉ (s.destruct k object).2 := by
  simp only [Teardown.destruct, List.mem_append, List.mem_map, List.mem_singleton]
  split <;> simp

/-- A destructor releases its own object. -/
theorem Teardown.releases_destruct {j : ℕ} :
    .freeEvents j ∈ (s.destruct k object).2 ∨ .release j ∈ (s.destruct k object).2 ↔ j = k := by
  simp only [Teardown.destruct, List.mem_append, List.mem_map, List.mem_singleton]
  split <;> simp

/-- What a destructor may release. -/
theorem Teardown.tornDown_destruct (h : s.WellFormed) (hleft : s.JoinedLeft)
    (hcall : s.call = .destructing k) :
    TornDown s i s' (s.destruct k object).2 ↔
      (∀ w ∈ s.threads, w.joined = false → s.UsesObject w k → w.phase = .left) ∧
      ((s.ownContext object).isSome →
        (object.settings.kind = .httpTcpServer → s.stale = false) ∧
        ∀ w ∈ s.threads, w.joined = false → s.kindAt w.object = some object.settings.kind →
          w.phase = .left) := by
  constructor
  · intro hdown
    refine ⟨fun w hw _ => hdown.object k (Teardown.releases_destruct.mpr rfl) w hw, ?_⟩
    intro hsome
    obtain ⟨c, hown⟩ := Option.isSome_iff_exists.mp hsome
    have hmem := Teardown.destroyContext_mem_destruct (k := k).mpr hown
    have hc := (Teardown.ownContext_eq_some.mp hown).2
    refine ⟨fun hkind => ?_, fun w hw _ hkind => hdown.context c hmem w hw (.inr ⟨_, hkind, hc⟩)⟩
    rw [hkind] at hc
    exact Bool.eq_false_iff.mpr (mt (h.stale c hc).mpr (hdown.once c hmem))
  · rintro ⟨hobject, hcontext⟩
    -- what is asked of the workers that have not been joined holds of all
    have hall {P : ServerThread → Prop} (hP : ∀ w ∈ s.threads, w.joined = false → P w →
        w.phase = .left) (w : ServerThread) (hw : w ∈ s.threads) (hPw : P w) : w.phase = .left := by
      cases hjoined : w.joined with
      | true => exact hleft.left hcall hw hjoined
      | false => exact hP w hw hjoined hPw
    refine ⟨fun thread hmem => absurd hmem Teardown.join_notMem_destruct, ?_, ?_, ?_⟩
    · intro c hmem
      have hown := Teardown.destroyContext_mem_destruct.mp hmem
      obtain ⟨hservice, hc⟩ := Teardown.ownContext_eq_some.mp hown
      have hstale := (hcontext (by simp [hown])).1
      cases hkind : object.settings.kind with
      | httpTcpServer =>
          rw [hkind] at hc
          exact mt (h.stale c hc).mp (by simp [hstale hkind])
      | webSocketTcpServer =>
          rw [hkind] at hc
          exact h.live c hc
      | inetDomainSocketTcpServer | unixDomainSocketTcpServer | inetDomainSocketUdpServer |
          unixDomainSocketUdpServer =>
          rw [hkind] at hservice
          cases hservice
    · intro c hmem w hw huses
      have hown := Teardown.destroyContext_mem_destruct.mp hmem
      have hc := (Teardown.ownContext_eq_some.mp hown).2
      refine hall (hcontext (by simp [hown])).2 w hw ?_
      -- only workers of the class use a context of the class
      rcases huses with hserviced | ⟨kind, hkind, hc'⟩
      · obtain ⟨kind, hkind, hworker⟩ := h.serviced w hw c hserviced
        rw [hworker, ← hkind, h.created _ c hc]
      · rw [hkind, h.distinct hc' hc]
    · intro j hmem w hw huses
      rw [Teardown.releases_destruct.mp hmem] at huses
      exact hall hobject w hw huses

/-- The condition on a destructor: no worker may use what it releases. -/
theorem tearsDown_destructing (hcall : s.call = .destructing k)
    (hk : s.objects[k]? = some object) :
    TearsDown s .resume ↔
      (∀ w ∈ s.threads, w.joined = false → s.UsesObject w k → w.phase = .left) ∧
      ((s.ownContext object).isSome →
        (object.settings.kind = .httpTcpServer → s.stale = false) ∧
        ∀ w ∈ s.threads, w.joined = false → s.kindAt w.object = some object.settings.kind →
          w.phase = .left) := by
  constructor
  · intro hdown
    exact hdown k object hcall hk
  · intro hdown j object' hcall' hk'
    cases hcall.symm.trans hcall'
    obtain rfl := Option.some.inj (hk.symm.trans hk')
    exact hdown

/-- **A step is as asked exactly if it meets the condition**, in every state that is reached. -/
theorem Teardown.tornDown_step (h : s.WellFormed) (hleft : s.JoinedLeft)
    (ht : Teardown.Step s i s' o) : TornDown s i s' o ↔ TearsDown s i := by
  cases Teardown.next_effect ht with
  | construct settings => exact iff_of_true tornDown_nil trivial
  | init malloc sys hk => exact iff_of_true tornDown_nil trivial
  | start pthread_create hk => exact iff_of_true tornDown_nil trivial
  | stop hcall hk | destroy hcall hk =>
      rw [Teardown.tornDown_stop h hk, TearsDown, hk]
      exact ⟨fun hstarted object hobject => Option.some.inj hobject ▸ hstarted,
        fun hstarted => hstarted _ rfl⟩
  | joined hcall _ =>
      refine iff_of_true tornDown_nil fun k object hcall' _ => ?_
      cases hcall.symm.trans hcall'
  | destruct hcall hk =>
      rw [Teardown.tornDown_destruct h hleft hcall, tearsDown_destructing hcall hk]
  | work act m_run_thread phase hj hk hphase => exact iff_of_true tornDown_nil trivial

/-- **When servers are taken down in order.** In a sequence of calls on any number of servers,
interleaved with their workers, only threads that can be joined are, no context is destroyed
twice, and nothing is released that a worker still uses, exactly if a websocket server is
stopped or destroyed only while its last `start` is to be joined, a destructor finds the workers
that it does not join gone, and an http server finds no context that has been destroyed. -/
theorem torn_down_iff (h : Run Teardown.Step .empty is os s) :
    EachStep Teardown.Step TornDown .empty is ↔ Along Teardown.Step TearsDown .empty is :=
  h.eachStep_iff_along deterministic_ofFn fun hrun _ ht =>
    Teardown.tornDown_step (Teardown.wellFormed_of_run hrun) (Teardown.joinedLeft_of_run hrun) ht

end

/-! ### Servers of the libwebsockets classes -/

/-- The settings of a libwebsockets server. -/
def lwsServer (kind : ServerKind) : ServerSettings :=
  { kind, m_name := [97], m_bind := ascii "80", m_tcp := true, m_max_client := 1 }

/-- A websocket server that is started and destroyed while its worker runs. -/
def startedAndDestroyed : List TeardownInput :=
  [.construct (lwsServer .webSocketTcpServer), .init 0 true goodResults, .start 0 true,
    .work 0 .advance, .destroy 0, .work 0 .advance, .resume, .resume]

/-- A server that is stopped, joined and then destroyed is torn down in order. -/
theorem torn_down_iff_startedAndDestroyed :
    EachStep Teardown.Step TornDown .empty startedAndDestroyed := by
  have hrun : ∃ s, Run Teardown.Step .empty startedAndDestroyed
      [.join (some 0), .destroyContext 0, .release 0] s := ⟨_, run_of_exec rfl⟩
  obtain ⟨s, hrun⟩ := hrun
  refine (torn_down_iff hrun).mpr ?_
  refine along_cons rfl trivial (along_cons rfl trivial (along_cons rfl trivial
    (along_cons rfl trivial (along_cons rfl ?_ (along_cons rfl trivial (along_cons rfl ?_
    (along_cons rfl ?_ along_nil)))))))
  · intro object hobject _
    obtain rfl := Option.some.inj hobject
    rfl
  · intro k object hcall
    cases hcall
  · refine (tearsDown_destructing (k := 0) rfl (?_ : _ = some (ServerObject.mk
      (lwsServer .webSocketTcpServer) false (some 0) false false false))).mpr
      ⟨by decide, fun _ => ⟨by decide, by decide⟩⟩
    rfl

/-- A websocket server is destroyed that has never been started. -/
def neverStarted : List TeardownInput :=
  [.construct (lwsServer .webSocketTcpServer), .destroy 0]

/-- Two http servers are initialised and destroyed. -/
def twoHttpServers : List TeardownInput :=
  [.construct (lwsServer .httpTcpServer), .construct (lwsServer .httpTcpServer),
    .init 0 true goodResults, .init 1 true goodResults, .destroy 0, .resume, .destroy 1, .resume]

/-- An http server is destroyed while its worker waits. -/
def httpWaiting : List TeardownInput :=
  [.construct (lwsServer .httpTcpServer), .init 0 true goodResults, .start 0 true,
    .work 0 .advance, .work 0 .advance, .destroy 0, .resume]

/-- Of three http servers, the second one is destroyed while the worker of the first is in a
callback for it. The third one's `init` has failed meanwhile, so that `m_context` is null. -/
def httpCalledBack : List TeardownInput :=
  [.construct (lwsServer .httpTcpServer), .construct (lwsServer .httpTcpServer),
    .construct (lwsServer .httpTcpServer), .init 0 true goodResults, .init 1 true goodResults,
    .start 0 true, .start 1 true, .work 1 .advance, .work 0 .advance, .work 0 .advance,
    .work 0 (.handle [.onClientConnected 1 16]),
    .init 2 true { goodResults with lws_create_context := false },
    .destroy 1, .work 1 .advance, .resume]

/-- A thread is joined that there is not; a context is destroyed twice; a server and its context
are released with a worker in `lws_service`; a server is released that another one's worker works
for. -/
theorem taken_down_wrongly :
    (∃ s, Run Teardown.Step .empty neverStarted [.join none] s ∧
      ¬ EachStep Teardown.Step TornDown .empty neverStarted) ∧
    (∃ s, Run Teardown.Step .empty twoHttpServers
        [.destroyContext 1, .release 0, .destroyContext 1, .release 1] s ∧
      ¬ EachStep Teardown.Step TornDown .empty twoHttpServers) ∧
    (∃ s, Run Teardown.Step .empty httpWaiting [.destroyContext 0, .release 0] s ∧
      ¬ EachStep Teardown.Step TornDown .empty httpWaiting) ∧
    ∃ s, Run Teardown.Step .empty httpCalledBack [.release 1] s ∧
      ¬ EachStep Teardown.Step TornDown .empty httpCalledBack := by
  refine ⟨⟨_, run_of_exec rfl, fun hall => ?_⟩, ⟨_, run_of_exec rfl, fun hall => ?_⟩,
    ⟨_, run_of_exec rfl, fun hall => ?_⟩, ⟨_, run_of_exec rfl, fun hall => ?_⟩⟩
  · have hdown := hall [_] _ [] _ _ rfl (run_of_exec rfl) _ _ rfl
    obtain ⟨j, w, hj, -⟩ := hdown.join _ (List.mem_singleton_self _)
    cases hj
  · have hdown := hall [_, _, _, _, _, _, _] _ [] _ _ rfl (run_of_exec rfl) _ _ rfl
    exact hdown.once 1 (by decide) (by decide)
  · have hdown := hall [_, _, _, _, _, _] _ [] _ _ rfl (run_of_exec rfl) _ _ rfl
    have hleft := hdown.object 0 (.inr (by decide)) ⟨0, .wait, false, some 0, none⟩ (by decide)
      (.inl rfl)
    cases hleft
  · have hdown := hall [_, _, _, _, _, _, _, _, _, _, _, _, _, _] _ [] _ _ rfl (run_of_exec rfl) _ _
      rfl
    have hleft := hdown.object 1 (.inr (by decide))
      ⟨0, .notifying [.onClientConnected 1 16] none, false, some 1, some 1⟩ (by decide)
      (.inr (.inl rfl))
    cases hleft

end AnyServer
