import AnyServer.Resources

/-!
# Shutdown

This module follows a server from `init` to its destructor, when its worker has left the loop,
and asks what has become of its clients and of what it has obtained.

The destructors only stop the worker, but for those of the libwebsockets servers, which destroy
the context; the connections it then closes are reported by callbacks, and those find
`m_run_thread` cleared and do nothing.

The pointer to the context is a static member, so the `init` of another server of the class
replaces it, and the destructor of another server destroys what it points to. Both are inputs
here (`SharedInput`).

## Main results

* `LwsLife.outcome`: what becomes of a libwebsockets server.
* `shuts_down_iff`: when nothing is left open and every client has been reported.
-/

namespace AnyServer

open Lts Session

/-! ### A static context -/

/-- What happens to a libwebsockets server: what it takes itself; another server of its class
stores its own context, or null, in `m_context`; or another server of its class is destroyed. -/
inductive SharedInput (I : Type)
  | own (i : I)
  | overwrite
  | destroy
  deriving DecidableEq, Repr

/-- A server that shares `m_context` with others. `m_context` says whether the pointer is to the
server's own context, and `keeps` whether a destructor leaves the pointer as it is. -/
def withSharedContext {S I ο : Type} (T : Lts S I ο) (m_context : S → Bool)
    (setContext : S → Bool → S) (keeps : Bool) :
    Lts S (SharedInput I) (ο ⊕ Event Resource Unit) :=
  fun s i s' o =>
    match i with
    | .own i => ∃ os, T s i s' os ∧ o = os.map .inl
    | .overwrite => s' = setContext s false ∧ o = []
    | .destroy =>
        if m_context s then s' = setContext s keeps ∧ o = [.inr (.closed .context)]
        else s' = s ∧ o = []

/-- Whether another server has stored its context in `m_context`. -/
def overwritten {I : Type} : List (SharedInput I) → Bool
  | [] => false
  | .own _ :: is | .destroy :: is => overwritten is
  | .overwrite :: _ => true

/-- How many other servers have been destroyed before any has stored its context. -/
def destroysFirst {I : Type} : List (SharedInput I) → ℕ
  | [] => 0
  | .own _ :: is => destroysFirst is
  | .overwrite :: _ => 0
  | .destroy :: is => destroysFirst is + 1

/-- With a destructor that leaves the pointer: no other server has stored its context and none
has been destroyed, or one has been destroyed before that. With one that does not: none has
stored its context, unless one had been destroyed before. -/
def ContextClosedOnce {I : Type} (keeps : Bool) (is : List (SharedInput I)) : Prop :=
  if keeps then destroysFirst is = if overwritten is then 1 else 0
  else overwritten is = true → 0 < destroysFirst is

/-- The fds announced and not closed, over the changes to `m_context`. -/
def OpenFds.sharedNext {C : Type} [IsTcpClientInfo C] (keeps : Bool) (t : OpenFds) :
    SharedInput (LwsInput C) → OpenFds
  | .own i => t.next i
  | .overwrite => { t with m_context := false }
  | .destroy => { t with m_context := t.m_context && keeps }

/-- An input with what the server itself takes replaced. -/
def SharedInput.map {I J : Type} (f : I → J) : SharedInput I → SharedInput J
  | .own i => .own (f i)
  | .overwrite => .overwrite
  | .destroy => .destroy

/-- The fds that the callbacks handled among `is` have announced and not closed again. -/
def sharedFds {I C : Type} [IsTcpClientInfo C] (f : I → LwsInput C) (keeps m_run_thread : Bool)
    (is : List (SharedInput I)) : OpenFds :=
  (is.map (SharedInput.map f)).foldl (OpenFds.sharedNext keeps) ⟨true, m_run_thread, []⟩

section

variable {I : Type} {is : List (SharedInput I)} {i : SharedInput I}

/-- The pointer is overwritten when it was before, or when the last input does it. -/
@[simp] theorem overwritten_concat :
    overwritten (is ++ [i]) = (overwritten is || overwritten [i]) := by
  induction is with
  | nil => rfl
  | cons a is ih => cases a <;> simp [overwritten, ih]

/-- A destruction counts as long as the pointer is not overwritten. -/
@[simp] theorem destroysFirst_concat :
    destroysFirst (is ++ [i]) =
      destroysFirst is + bif overwritten is then 0 else destroysFirst [i] := by
  induction is with
  | nil => simp [destroysFirst, overwritten]
  | cons a is ih =>
      cases a with
      | own _ => simpa [destroysFirst, overwritten] using ih
      | overwrite => simp [destroysFirst, overwritten]
      | destroy => simp [destroysFirst, overwritten, ih, Nat.add_right_comm]

/-- The next callback changes the shared descriptors by its own effect. -/
@[simp] theorem sharedFds_concat {C : Type} [IsTcpClientInfo C] {f : I → LwsInput C}
    {keeps m_run_thread : Bool} :
    sharedFds f keeps m_run_thread (is ++ [i]) =
      (sharedFds f keeps m_run_thread is).sharedNext keeps (i.map f) := by
  simp [sharedFds]

end

/-! ### From `init` to the destructor -/

/-- An epoll server that is started once after its `init`, up to the destructor, which comes when
its worker has left and closes nothing. The one worker followed is that of this start: the
`.store true` of another, which a second start after a `stop` would make, may be among the inputs,
but what that worker closes when it leaves is not in the log. A number that is open, as the epoll
fd is, is not given out again. -/
structure EpollLife (kind : EpollKind) where
  started : EpollWorker
  destroyed : EpollWorker
  m_epoll_fd : ℤ
  inputs : List EpollInput
  os : List (EpollObs ⊕ Event Resource Unit)
  initial : started.Initial
  epoll_fd_ne : m_epoll_fd ≠ started.server.m_server_fd
  run : Run (withResources (EpollWorker.Step kind) (EpollWorker.resources kind)) started inputs os
    destroyed
  left : destroyed.pc = .left
  epoll_fd_open : .opened (.fd m_epoll_fd) ∉ resourceLog os

/-- A datagram server likewise, with one start and the worker of that start. -/
structure UdpLife (kind : UdpKind) where
  debug : Bool
  started : UdpWorker
  destroyed : UdpWorker
  inputs : List UdpInput
  os : List (UdpObs ⊕ Event Resource Unit)
  initial : started.Initial kind
  run : Run (withResources (UdpWorker.Step kind debug) UdpWorker.resources) started inputs os
    destroyed
  left : destroyed.pc = .left

/-- A libwebsockets server of a class whose callbacks are `T`: all that happens until its
destructor, its worker having left the loop, and then the destructor: its `stop`, and the
callbacks that `lws_context_destroy` makes. -/
structure LwsLife {S CB C : Type} (T : Lts S (ServerInput CB) Notification)
    (lws : S → LwsServer C) (setContext : S → Bool → S) (keeps : Bool) where
  started : S
  left : S
  destroyed : S
  inputs : List (SharedInput (ServerInput CB))
  os : List (Notification ⊕ Event Resource Unit)
  closing : List CB
  ns : List Notification
  client_list : (lws started).m_client_list = []
  m_context : (lws started).m_context = true
  run : Run (withSharedContext T (fun s => (lws s).m_context) setContext keeps) started inputs os
    left
  m_run_thread : (lws left).m_run_thread = false
  destructor : Run T left (.store false :: closing.map .callback) ns destroyed

/-- The life of an http server, whose destructor leaves `m_context`. -/
abbrev HttpLife :=
  LwsLife HttpTcpServer.Driven HttpTcpServer.lws
    (fun server m_context => { server with m_context }) true

/-- The life of a WebSocket server, whose destructor clears it. -/
abbrev WebSocketLife :=
  LwsLife WebSocketTcpServer.Driven WebSocketTcpServer.lws
    (fun server m_context => { server with m_context }) false

/-- A server of one of the six classes. -/
inductive Life
  | inetTcp (life : EpollLife .inet)
  | unixTcp (life : EpollLife .unix)
  | inetUdp (life : UdpLife .inet)
  | unixUdp (life : UdpLife .unix)
  | http (life : HttpLife)
  | webSocket (life : WebSocketLife)

/-- What an epoll server has reported. -/
def EpollLife.notifications {kind : EpollKind} (life : EpollLife kind) : List Notification :=
  (observed life.os).flatMap EpollObs.notification

/-- What it has obtained and closed, from `init` on. -/
def EpollLife.resourceLog {kind : EpollKind} (life : EpollLife kind) : ResourceLog :=
  [.opened (.fd life.m_epoll_fd), .opened (.fd life.started.server.m_server_fd)] ++
    AnyServer.resourceLog life.os

/-- What a datagram server has reported. -/
def UdpLife.notifications {kind : UdpKind} (life : UdpLife kind) : List Notification :=
  (observed life.os).flatMap UdpObs.notification

/-- What it has obtained and closed. -/
def UdpLife.resourceLog {kind : UdpKind} (life : UdpLife kind) : ResourceLog :=
  [.opened (.fd life.started.server.m_server_fd)] ++ AnyServer.resourceLog life.os

section

variable {S CB C : Type} {T : Lts S (ServerInput CB) Notification} {lws : S → LwsServer C}
  {setContext : S → Bool → S} {keeps : Bool}

/-- What a libwebsockets server has reported, in its destructor too. -/
def LwsLife.notifications (life : LwsLife T lws setContext keeps) : List Notification :=
  observed life.os ++ life.ns

/-- The context of `init`, what has become of it since, and what the destructor destroys. -/
def LwsLife.resourceLog (life : LwsLife T lws setContext keeps) : ResourceLog :=
  [.opened .context] ++ AnyServer.resourceLog life.os ++
    if (lws life.destroyed).m_context then [.closed .context] else []

end

/-- The server as its destructor leaves it. -/
def Life.server : Life → BaseServerImpl
  | .inetTcp life => .inetTcp life.destroyed.server
  | .unixTcp life => .unixTcp life.destroyed.server
  | .inetUdp life => .inetUdp life.destroyed.server
  | .unixUdp life => .unixUdp life.destroyed.server
  | .http life => .http life.destroyed
  | .webSocket life => .webSocket life.destroyed

/-- What it has reported. -/
def Life.notifications : Life → List Notification
  | .inetTcp life | .unixTcp life => life.notifications
  | .inetUdp life | .unixUdp life => life.notifications
  | .http life => life.notifications
  | .webSocket life => life.notifications

/-- What it has obtained and closed. -/
def Life.resourceLog : Life → ResourceLog
  | .inetTcp life | .unixTcp life => life.resourceLog
  | .inetUdp life | .unixUdp life => life.resourceLog
  | .http life => life.resourceLog
  | .webSocket life => life.resourceLog

/-- Every client announced has been reported disconnected since, none is registered, and what
has been obtained has been closed exactly once. -/
structure ShutDown (life : Life) : Prop where
  reported : ∀ pre client_id post,
    life.notifications.map Notification.event = pre ++ .opened client_id :: post →
      .closed client_id ∈ post
  client_list : life.server.clientIds = []
  matched : ClosesMatched life.resourceLog
  closed : outstanding life.resourceLog = []

/-- The server is a datagram server, or one of libwebsockets: then every fd that a callback has
announced before `m_run_thread` was cleared, a callback has closed before that, and no other
server of the class has come between it and its context. -/
def Life.ClosesFirst : Life → Prop
  | .inetTcp _ | .unixTcp _ => False
  | .inetUdp _ | .unixUdp _ => True
  | .http life =>
      (sharedFds HttpCallback.lws true life.started.m_run_thread life.inputs).fds = [] ∧
        ContextClosedOnce true life.inputs
  | .webSocket life =>
      (sharedFds WebSocketCallback.lws false life.started.m_run_thread life.inputs).fds = [] ∧
        ContextClosedOnce false life.inputs

/-! ### When a server shuts down -/

section

variable {C : Type} [IsTcpClientInfo C] {server server₀ : LwsServer C} {is : List (LwsInput C)}
  {log os : List (Event ℕ Bytes)}

/-- With all ids closed, every client announced has been reported since. -/
theorem Registered.reported (h : Registered log []) :
    ∀ pre client_id post, log = pre ++ .opened client_id :: post → .closed client_id ∈ post := by
  rintro pre client_id post rfl
  by_contra hpost
  have hopen : client_id ∈ outstanding (pre ++ .opened client_id :: post) :=
    mem_outstanding_of_opened hpost
  rw [h.perm.eq_nil] at hopen
  cases hopen

/-- Callbacks leave the server's context alone. -/
theorem LwsServer.run_m_context (h : Run LwsServer.Step server₀ is os server) :
    server.m_context = server₀.m_context := by
  refine (h.const (f := LwsServer.m_context) (Q := fun _ _ => True) fun ht => ?_).1
  refine ⟨?_, fun _ _ => trivial⟩
  cases ht <;> rfl

/-- With the flag cleared, callbacks do nothing. -/
theorem LwsServer.run_stopped (hstop : server₀.m_run_thread = false)
    (his : ∀ i ∈ is, i ≠ .store true) (h : Run LwsServer.Step server₀ is os server) :
    server = server₀ ∧ os = [] := by
  induction h with
  | start => exact ⟨rfl, rfl⟩
  | @step is os server i server' o _ ht ih =>
      rw [List.forall_mem_append] at his
      obtain ⟨rfl, rfl⟩ := ih his.1
      have hgate : server.handles = false := by rw [handles, hstop, Bool.and_false]
      cases ht with
      | store b =>
          obtain rfl : b = false := by simpa using his.2
          refine ⟨?_, rfl⟩
          rw [← hstop]
      | idle _ _ => exact ⟨rfl, rfl⟩
      | announce hg _ _ | close hg | other hg _ => cases hgate.symm.trans hg

/-- How things stand with a libwebsockets server after `inputs`: its registry, whether
`m_context` points to its context, and how often that has been destroyed. -/
structure LwsStands {I : Type} (f : I → LwsInput C) (keeps m_run_thread : Bool)
    (inputs : List (SharedInput I)) (shown : List (Notification ⊕ Event Resource Unit))
    (server : LwsServer C) : Prop where
  registered : Registered ((observed shown).map Notification.event)
    (clientIds server.m_client_list)
  tracked : server.Tracked (sharedFds f keeps m_run_thread inputs)
  m_context : server.m_context = (!overwritten inputs && (keeps || destroysFirst inputs == 0))
  destroyed : resourceLog shown =
    List.replicate (if keeps then destroysFirst inputs else min 1 (destroysFirst inputs))
      (.closed .context)

variable {I : Type} {f : I → LwsInput C} {keeps m_run_thread : Bool}
  {inputs : List (SharedInput I)} {shown : List (Notification ⊕ Event Resource Unit)}
  {server' : LwsServer C}

/-- A step of its own. -/
theorem LwsStands.own {i : I} {ns : List Notification}
    (h : LwsStands f keeps m_run_thread inputs shown server)
    (ht : LwsServer.Step server (f i) server' (ns.map Notification.event)) :
    LwsStands f keeps m_run_thread (inputs ++ [.own i]) (shown ++ ns.map .inl) server' := by
  have hshown := And.intro (observed_shown ns []) (resourceLog_shown ns [])
  simp only [List.map_nil, List.append_nil] at hshown
  refine ⟨?_, ?_, ?_, ?_⟩
  · rw [observed_append, hshown.1, List.map_append]
    exact ht.registered h.registered
  · rw [sharedFds_concat]
    exact ht.tracked h.tracked
  · rw [LwsServer.run_m_context (.single ht), h.m_context]
    simp [overwritten, destroysFirst]
  · rw [resourceLog_append, hshown.2, h.destroyed]
    simp [destroysFirst]

/-- Another context is stored. -/
theorem LwsStands.overwrite (h : LwsStands f keeps m_run_thread inputs shown server) :
    LwsStands f keeps m_run_thread (inputs ++ [.overwrite]) shown
      { server with m_context := false } := by
  refine ⟨h.registered, ?_, ?_, ?_⟩
  · rw [sharedFds_concat, h.tracked.open_eq]
    exact ⟨h.tracked.ids_nodup, h.tracked.zero_notMem, rfl⟩
  · simp [overwritten]
  · simpa [destroysFirst] using h.destroyed

/-- Another server destroys the context. -/
theorem LwsStands.destroy (h : LwsStands f keeps m_run_thread inputs shown server)
    (hown : server.m_context = true) :
    LwsStands f keeps m_run_thread (inputs ++ [.destroy])
      (shown ++ [.inr (.closed .context)]) { server with m_context := keeps } := by
  have hshown : observed (shown ++ [.inr (.closed .context)]) = observed shown ∧
      resourceLog (shown ++ [.inr (.closed .context)]) =
        resourceLog shown ++ [.closed .context] := by
    simp [observed, resourceLog]
  have hctx := h.m_context
  rw [hown, eq_comm, Bool.and_eq_true, Bool.not_eq_true'] at hctx
  obtain ⟨hover, hfirst⟩ := hctx
  refine ⟨?_, ?_, ?_, ?_⟩
  · rw [hshown.1]
    exact h.registered
  · rw [sharedFds_concat, h.tracked.open_eq]
    exact ⟨h.tracked.ids_nodup, h.tracked.zero_notMem,
      by simp [OpenFds.sharedNext, SharedInput.map, hown]⟩
  · simp [overwritten, destroysFirst, hover]
  · rw [hshown.2, h.destroyed, destroysFirst_concat, hover]
    cases keeps with
    | true => simp [destroysFirst, List.replicate_succ']
    | false =>
        have hnone : destroysFirst inputs = 0 := by simpa using hfirst
        simp [hnone, destroysFirst]

/-- Another server destroys what is not the server's. -/
theorem LwsStands.destroyOther (h : LwsStands f keeps m_run_thread inputs shown server)
    (hother : server.m_context = false) :
    LwsStands f keeps m_run_thread (inputs ++ [.destroy]) shown server := by
  have hctx := h.m_context
  rw [hother, eq_comm, Bool.and_eq_false_iff, Bool.not_eq_false', Bool.or_eq_false_iff,
    beq_eq_false_iff_ne] at hctx
  refine ⟨h.registered, ?_, ?_, ?_⟩
  · rw [sharedFds_concat, h.tracked.open_eq]
    refine ⟨h.tracked.ids_nodup, h.tracked.zero_notMem, ?_⟩
    simp [OpenFds.sharedNext, SharedInput.map, hother]
  · rw [hother]
    rcases hctx with hover | ⟨rfl, hfirst⟩
    · simp [hover]
    · simp [hfirst]
  · rw [h.destroyed]
    rcases hctx with hover | ⟨rfl, hfirst⟩
    · simp [hover]
    · have hpos : 0 < destroysFirst inputs := Nat.pos_of_ne_zero hfirst
      simp only [Bool.false_eq_true, if_false, destroysFirst_concat]
      congr 1
      omega

/-- A context is closed exactly once if one close follows. -/
theorem closed_once_iff {n : ℕ} :
    (ClosesMatched ([.opened .context] ++ List.replicate n (.closed .context) : ResourceLog) ∧
      outstanding ([.opened .context] ++ List.replicate n (.closed .context) : ResourceLog) = []) ↔
      n = 1 := by
  match n with
  | 0 => exact iff_of_false (fun h => by cases h.2) (by omega)
  | 1 =>
      have hopened : ClosesMatched ([.opened .context] : ResourceLog) :=
        closesMatched_concat.mpr ⟨closesMatched_nil, by simp⟩
      refine iff_of_true ⟨closesMatched_concat.mpr ⟨hopened, ?_⟩, rfl⟩ rfl
      rintro id ⟨⟩
      exact List.mem_singleton_self _
  | n + 2 =>
      refine iff_of_false (fun h => ?_) (by omega)
      -- the second close finds nothing open
      have hmem := h.1 [.opened .context, .closed .context] .context
        (List.replicate n (.closed .context)) rfl
      cases hmem

/-- The closes counted. -/
theorem contextClosedOnce_iff {I : Type} {keeps : Bool} {is : List (SharedInput I)} :
    ((if keeps then destroysFirst is else min 1 (destroysFirst is)) +
      if !overwritten is && (keeps || destroysFirst is == 0) then 1 else 0) = 1 ↔
      ContextClosedOnce keeps is := by
  cases keeps <;> cases hover : overwritten is
  · by_cases hfirst : destroysFirst is = 0
    · simp [ContextClosedOnce, hover, hfirst]
    · have hmin : min 1 (destroysFirst is) = 1 := by omega
      simp [ContextClosedOnce, hover, hfirst, hmin]
  · simp only [ContextClosedOnce, hover, Bool.false_eq_true, if_false, Bool.not_true,
      Bool.false_and, Nat.add_zero, true_implies]
    omega
  · simp [ContextClosedOnce, hover]
  · simp [ContextClosedOnce, hover]

end

section

variable {S CB C : Type} [IsTcpClientInfo C] {T : Lts S (ServerInput CB) Notification}
  {lws : S → LwsServer C} {setContext : S → Bool → S} {keeps : Bool}
  {f : ServerInput CB → LwsInput C}

/-- How things stand before the destructor. -/
theorem LwsLife.stands (life : LwsLife T lws setContext keeps)
    (hT : ∀ {s i s' o}, T s i s' o →
      LwsServer.Step (lws s) (f i) (lws s') (o.map Notification.event))
    (hset : ∀ s b, lws (setContext s b) = { lws s with m_context := b }) :
    LwsStands f keeps (lws life.started).m_run_thread life.inputs life.os (lws life.left) := by
  refine life.run.invariant (P := fun is os s =>
    LwsStands f keeps (lws life.started).m_run_thread is os (lws s)) ?_ ?_
  · have hreg := LwsServer.run_registered life.client_list Run.start
    refine ⟨hreg, ⟨?_, ?_, ?_⟩, ?_, ?_⟩
    · simp [life.client_list]
    · simp [life.client_list]
    · simp [life.client_list, life.m_context, sharedFds]
    · simp [life.m_context, overwritten, destroysFirst]
    · simp [destroysFirst, AnyServer.resourceLog]
  · intro is os s i s' o _ ih ht
    cases i with
    | own i =>
        obtain ⟨ns, ht, rfl⟩ := ht
        exact ih.own (hT ht)
    | overwrite =>
        obtain ⟨rfl, rfl⟩ := ht
        rw [List.append_nil, hset]
        exact ih.overwrite
    | destroy =>
        simp only [withSharedContext] at ht
        split at ht
        · next hown =>
          obtain ⟨rfl, rfl⟩ := ht
          rw [hset]
          exact ih.destroy hown
        · next hother =>
          obtain ⟨rfl, rfl⟩ := ht
          rw [List.append_nil]
          exact ih.destroyOther (by simpa using hother)

/-- What becomes of a libwebsockets server: its clients are those that were registered when the
flag was cleared, and its context is closed as often as `m_context` lets it be. -/
theorem LwsLife.outcome (life : LwsLife T lws setContext keeps)
    (hT : ∀ {s i s' o}, T s i s' o →
      LwsServer.Step (lws s) (f i) (lws s') (o.map Notification.event))
    (hset : ∀ s b, lws (setContext s b) = { lws s with m_context := b })
    (hf : ∀ i, f i = .store true → i = .store true) :
    Registered (life.notifications.map Notification.event)
        (clientIds (lws life.destroyed).m_client_list) ∧
      (clientIds (lws life.destroyed).m_client_list = [] ↔
        (sharedFds f keeps (lws life.started).m_run_thread life.inputs).fds = []) ∧
      (ClosesMatched life.resourceLog ∧ outstanding life.resourceLog = [] ↔
        ContextClosedOnce keeps life.inputs) := by
  have hstands := life.stands hT hset
  have hlast := life.destructor.simulate lws f Notification.event hT
  have hinputs : ∀ i ∈ (ServerInput.store false :: life.closing.map .callback).map f,
      i ≠ .store true := by
    intro i hi heq
    obtain ⟨j, hj, rfl⟩ := List.mem_map.mp hi
    rw [hf j heq] at hj
    simp at hj
  obtain ⟨hdestroyed, hns⟩ := LwsServer.run_stopped life.m_run_thread hinputs hlast
  refine ⟨?_, ?_, ?_⟩
  · rw [hdestroyed, notifications, List.map_append, hns, List.append_nil]
    exact hstands.registered
  · rw [hdestroyed, hstands.tracked.open_eq, clientIds, clientFds, List.map_eq_nil_iff,
      List.map_eq_nil_iff]
  · have hlog : life.resourceLog = [.opened .context] ++
        List.replicate ((if keeps then destroysFirst life.inputs
            else min 1 (destroysFirst life.inputs)) +
          if !overwritten life.inputs && (keeps || destroysFirst life.inputs == 0) then 1 else 0)
          (.closed .context) := by
      rw [resourceLog, hdestroyed, hstands.destroyed, hstands.m_context, List.append_assoc,
        List.replicate_add]
      congr 2
      split <;> rfl
    rw [hlog, closed_once_iff, contextClosedOnce_iff]

end

section

/-- Only a store is a store. -/
theorem HttpCallback.lws_store (i : ServerInput HttpCallback)
    (h : HttpCallback.lws i = .store true) : i = .store true := by
  rcases i with ⟨wsi, client_fd, reason⟩ | b
  · cases reason <;> cases h
  · obtain rfl := LwsInput.store.inj h
    rfl

/-- The same for the WebSocket server. -/
theorem WebSocketCallback.lws_store (i : ServerInput WebSocketCallback)
    (h : WebSocketCallback.lws i = .store true) : i = .store true := by
  rcases i with ⟨wsi, client_fd, reason⟩ | b
  · cases reason <;> cases h
  · obtain rfl := LwsInput.store.inj h
    rfl

/-- An epoll server leaves its epoll fd open. -/
theorem EpollLife.outstanding_ne_nil {kind : EpollKind} (life : EpollLife kind) :
    outstanding life.resourceLog ≠ [] := by
  have hopen : LeavesOpen life.resourceLog (life.destroyed.Holds kind life.m_epoll_fd) :=
    EpollWorker.leavesOpen_run life.initial life.epoll_fd_ne life.run life.epoll_fd_open
  rw [ne_eq, hopen.outstanding_eq_nil_iff]
  exact fun h => h (.fd life.m_epoll_fd) (.inl rfl)

/-- A datagram server has no clients left, and has closed its socket. -/
theorem UdpLife.closed {kind : UdpKind} (life : UdpLife kind) :
    life.destroyed.server.m_client_list = [] ∧ ClosesMatched life.resourceLog ∧
      outstanding life.resourceLog = [] := by
  obtain ⟨hlist, hopen⟩ := UdpWorker.leavesOpen_run life.initial life.run
  refine ⟨hlist, hopen.matched, hopen.outstanding_eq_nil_iff.mpr fun resource => ?_⟩
  cases resource with
  | fd fd => simp [UdpWorker.Holds, life.left]
  | context => exact id

/-- Where the notifications are about the registered clients, what is left to ask. -/
theorem shutDown_iff_of_registered (life : Life)
    (h : Registered (life.notifications.map Notification.event) life.server.clientIds) :
    ShutDown life ↔ life.server.clientIds = [] ∧
      ClosesMatched life.resourceLog ∧ outstanding life.resourceLog = [] := by
  constructor
  · intro hdown
    exact ⟨hdown.client_list, hdown.matched, hdown.closed⟩
  · rintro ⟨hids, hmatched, hclosed⟩
    rw [hids] at h
    exact ⟨h.reported, hids, hmatched, hclosed⟩

/-- **When a server shuts down.** An epoll server never does, a datagram server always, and a
libwebsockets server exactly if the last client has gone before `m_run_thread` is cleared and
its context is the one that is destroyed. -/
theorem shuts_down_iff (life : Life) : ShutDown life ↔ life.ClosesFirst := by
  cases life with
  | inetTcp life | unixTcp life =>
      exact iff_of_false (fun h => life.outstanding_ne_nil h.closed) id
  | inetUdp life =>
      have hreg := serverRun_registered (.inetUdp life.initial (run_observed life.run))
      obtain ⟨hlist, hclosed⟩ := life.closed
      rw [shutDown_iff_of_registered (.inetUdp life) hreg]
      exact iff_of_true ⟨congrArg clientIds hlist, hclosed⟩ trivial
  | unixUdp life =>
      have hreg := serverRun_registered (.unixUdp life.initial (run_observed life.run))
      obtain ⟨hlist, hclosed⟩ := life.closed
      rw [shutDown_iff_of_registered (.unixUdp life) hreg]
      exact iff_of_true ⟨congrArg clientIds hlist, hclosed⟩ trivial
  | http life =>
      obtain ⟨hreg, hids, hclosed⟩ := life.outcome (fun h => HttpTcpServer.driven_simulates h)
        (fun _ _ => rfl) HttpCallback.lws_store
      rw [shutDown_iff_of_registered (.http life) hreg]
      exact and_congr hids hclosed
  | webSocket life =>
      obtain ⟨hreg, hids, hclosed⟩ := life.outcome
        (fun h => WebSocketTcpServer.driven_simulates h) (fun _ _ => rfl)
        WebSocketCallback.lws_store
      rw [shutDown_iff_of_registered (.webSocket life) hreg]
      exact and_congr hids hclosed

end

/-! ### Three servers -/

/-- A worker for a datagram server on fd `3`. -/
def receiving : UdpWorker :=
  { server := { m_server_id := 1, m_server_fd := 3, m_run_thread := false, m_client_list := [] }
    clientaddr := List.replicate 110 0
    clientlen := 0
    pc := .entry }

/-- A datagram of one byte arrives from `/a`, and then the server is stopped. -/
def receivedAndStopped : List UdpInput :=
  [.advance, .advance,
    .recvfrom { recvfrom := some (some (.path [47, 97]), [7]), hostp := true, m_client_id := 16,
                replies := [] },
    .store false, .advance]

/-- A datagram server that has received a datagram shuts down. -/
theorem shuts_down_iff_receiving :
    ∃ life : UdpLife .unix, life.inputs = receivedAndStopped ∧ ShutDown (.unixUdp life) := by
  -- the worker takes the datagram, tests the flag once more and leaves
  have hrun : ∃ os w, Run (UdpWorker.Step .unix false) receiving receivedAndStopped os w ∧
      w.pc = .left := ⟨_, _, run_guarded_of_exec rfl, rfl⟩
  obtain ⟨os, w, hrun, hleft⟩ := hrun
  obtain ⟨os', hrun', -⟩ : ∃ os', Run (withResources (UdpWorker.Step .unix false)
      UdpWorker.resources) receiving receivedAndStopped os' w ∧ observed os' = os :=
    run_withResources hrun
  refine ⟨⟨false, receiving, w, receivedAndStopped, os', ⟨rfl, rfl, rfl⟩, hrun', hleft⟩, rfl, ?_⟩
  exact (shuts_down_iff (.unixUdp _)).mpr trivial

/-- The server of `listening`, stopped before anyone connects. -/
def listeningLife : EpollLife .inet where
  started := listening
  destroyed :=
    { server := listening.server, kernel := listening.kernel.close 3, pc := .left }
  m_epoll_fd := 4
  inputs := [.advance, .store false, .advance]
  os := [.inr (.closed (.fd 3))]
  initial := listening_initial
  epoll_fd_ne := by decide
  run := by
    have h₀ : Run (withResources (EpollWorker.Step .inet) (EpollWorker.resources .inet)) listening
        [] [] listening := .start
    exact ((h₀.step ⟨[], .entry rfl, rfl⟩).step ⟨[], .store false, rfl⟩).step
      ⟨[], .leave rfl rfl, rfl⟩
  left := rfl
  epoll_fd_open := by decide

/-- An http server with its context. -/
def serving : HttpTcpServer :=
  { m_server_id := 1, m_context := true, m_run_thread := false, m_client_list := [],
    req_body := [] }

/-- The same with one client. -/
def servingOne : HttpTcpServer :=
  { serving with m_client_list := [{ m_tcp := true, m_client_id := 16, m_fd := 5, m_wsi := 0 }] }

/-- The server of `serving`, with a client that is still there when it is stopped. -/
def servingLife : HttpLife where
  started := serving
  left := servingOne
  destroyed := servingOne
  inputs := [.own (.store true), .own (.callback ⟨0, 5, .serverNewClientInstantiated 16⟩),
    .own (.store false)]
  os := [.inl (.onClientConnected 1 16)]
  closing := [⟨0, 5, .closedHttp⟩, ⟨0, 5, .delPollFd⟩]
  ns := []
  client_list := rfl
  m_context := rfl
  run := by
    let T := withSharedContext HttpTcpServer.Driven (fun server => server.lws.m_context)
      (fun server m_context => { server with m_context }) true
    have h₁ : T serving (.own (.store true)) { serving with m_run_thread := true } [] :=
      ⟨[], ⟨rfl, rfl⟩, rfl⟩
    have h₂ : T { serving with m_run_thread := true }
        (.own (.callback ⟨0, 5, .serverNewClientInstantiated 16⟩))
        { servingOne with m_run_thread := true } [.inl (.onClientConnected 1 16)] :=
      ⟨[.onClientConnected 1 16], ⟨by decide, rfl⟩, rfl⟩
    have h₃ : T { servingOne with m_run_thread := true } (.own (.store false)) servingOne [] :=
      ⟨[], ⟨rfl, rfl⟩, rfl⟩
    exact ((Run.start.step h₁).step h₂).step h₃
  m_run_thread := rfl
  destructor := by
    have h₁ : HttpTcpServer.Driven servingOne (.store false) servingOne [] := ⟨rfl, rfl⟩
    have h₂ : HttpTcpServer.Driven servingOne (.callback ⟨0, 5, .closedHttp⟩) servingOne [] :=
      ⟨by decide, rfl⟩
    have h₃ : HttpTcpServer.Driven servingOne (.callback ⟨0, 5, .delPollFd⟩) servingOne [] :=
      ⟨by decide, rfl⟩
    exact ((Run.start.step h₁).step h₂).step h₃

/-- The epoll fd stays open, and a client that is connected at the end is never reported. -/
theorem stopped_leavesOpen :
    outstanding (Life.inetTcp listeningLife).resourceLog = [.fd 4] ∧
      ¬ ShutDown (.inetTcp listeningLife) ∧
      (Life.http servingLife).notifications = [.onClientConnected 1 16] ∧
      ¬ ShutDown (.http servingLife) := by
  refine ⟨rfl, fun h => ?_, rfl, fun h => ?_⟩
  · cases h.closed
  · cases h.client_list

end AnyServer
