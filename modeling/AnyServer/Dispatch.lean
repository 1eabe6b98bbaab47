import AnyServer.ClientRegistry
import AnyServer.Library.Lts
import AnyServer.Library.NodeList

/-!
# Handing Events to Listeners

An event goes through two layers, each with a list of listeners and a loop over it: nine loops
in `AnyServerImpl` and `ServerFactory`, which differ in the method that they call. They
iterate the list itself, and a listener may call `addEventListener` and `removeEventListener`
meanwhile.

`Dispatch` is such a loop. With a step a listener is called, changes the list as it likes, and
returns, and `++it` follows. The servers below notify their listeners with a loop over a copy
of the list (`Notify`).

What `ServerFactory` logs before its loops, and the echo that `onReceive` sends after its
own, are left out.

## Main results

* `dispatched_iff`: when a loop calls every listener that stays, and no erased iterator is
  advanced.
* `notified_all`: a loop over a copy calls all listeners, whatever they do.
-/

namespace AnyServer

open Lts

/-! ### The loops -/

/-- What is called of a listener, with the arguments. -/
inductive ListenerCall
  | notified (n : Notification)
  | onReceivedSystemSignal (signal : ℤ)
  deriving DecidableEq, Repr

/-- A call: the node of the list, the listener that it holds, and what is called of it. -/
structure Call (L : Type) where
  node : ℕ
  listener : L
  event : ListenerCall
  deriving DecidableEq, Repr

/-- A loop over a list of listeners. -/
structure Dispatch (L : Type) where
  listeners : NodeList L
  it : NodeList.Iterator

/-- The loop before its first turn. -/
def Dispatch.start {L : Type} (listeners : NodeList L) : Dispatch L :=
  { listeners, it := listeners.begin }

section

variable {L : Type} [DecidableEq L]

/-- `addEventListener` of both classes. -/
abbrev addEventListener (listener : L) : NodeList.Change L :=
  .pushBack listener

/-- `removeEventListener` of both classes. -/
abbrev removeEventListener (listener : L) : NodeList.Change L :=
  .eraseFirst listener

/-- A turn of a loop; `changes` is what the listener does to the list. -/
def Dispatch.next (event : ListenerCall) (s : Dispatch L) (changes : List (NodeList.Change L)) :
    Option (Dispatch L × List (Call L)) :=
  match s.it with
  | .atNode k =>
      (s.listeners.deref k).map fun listener =>
        let listeners := s.listeners.applyAll changes
        ({ listeners, it := listeners.advance k }, [{ node := k, listener, event }])
  | _ => none

/-- The loop under the changes that its listeners make to the list. -/
abbrev Dispatch.Step (event : ListenerCall) :
    Lts (Dispatch L) (List (NodeList.Change L)) (Call L) :=
  ofFn (Dispatch.next event)

/-- `AnyServerImpl::onClientConnected`. -/
abbrev AnyServerImpl.onClientConnected (server_id client_id : ℕ) :
    Lts (Dispatch L) (List (NodeList.Change L)) (Call L) :=
  Dispatch.Step (.notified (.onClientConnected server_id client_id))

/-- `AnyServerImpl::onClientDisconnected`. -/
abbrev AnyServerImpl.onClientDisconnected (server_id client_id : ℕ) :
    Lts (Dispatch L) (List (NodeList.Change L)) (Call L) :=
  Dispatch.Step (.notified (.onClientDisconnected server_id client_id))

/-- `AnyServerImpl::onReceive` without a protocol. -/
abbrev AnyServerImpl.onReceive (server_id client_id : ℕ) (msg : Bytes) (msg_len : ℕ) :
    Lts (Dispatch L) (List (NodeList.Change L)) (Call L) :=
  Dispatch.Step (.notified (.onReceive server_id client_id msg msg_len))

/-- `AnyServerImpl::onReceive` with a protocol. -/
abbrev AnyServerImpl.onReceiveProtocol (server_id client_id : ℕ) (msg : Bytes) (msg_len : ℕ)
    (protocol : Bytes) : Lts (Dispatch L) (List (NodeList.Change L)) (Call L) :=
  Dispatch.Step (.notified (.onReceiveProtocol server_id client_id msg msg_len protocol))

/-- `AnyServerImpl::onReceivedPosixSignal`. -/
abbrev AnyServerImpl.onReceivedPosixSignal (signal_id : ℤ) :
    Lts (Dispatch L) (List (NodeList.Change L)) (Call L) :=
  Dispatch.Step (.onReceivedSystemSignal signal_id)

/-- `ServerFactory::onClientConnected`. -/
abbrev ServerFactory.onClientConnected (server_id client_id : ℕ) :
    Lts (Dispatch L) (List (NodeList.Change L)) (Call L) :=
  Dispatch.Step (.notified (.onClientConnected server_id client_id))

/-- `ServerFactory::onClientDisconnected`. -/
abbrev ServerFactory.onClientDisconnected (server_id client_id : ℕ) :
    Lts (Dispatch L) (List (NodeList.Change L)) (Call L) :=
  Dispatch.Step (.notified (.onClientDisconnected server_id client_id))

/-- `ServerFactory::onReceive` without a protocol, when the echo is off. -/
abbrev ServerFactory.onReceive (server_id client_id : ℕ) (msg : Bytes) (msg_len : ℕ) :
    Lts (Dispatch L) (List (NodeList.Change L)) (Call L) :=
  Dispatch.Step (.notified (.onReceive server_id client_id msg msg_len))

/-- `ServerFactory::onReceive` with a protocol. -/
abbrev ServerFactory.onReceiveProtocol (server_id client_id : ℕ) (msg : Bytes) (msg_len : ℕ)
    (protocol : Bytes) : Lts (Dispatch L) (List (NodeList.Change L)) (Call L) :=
  Dispatch.Step (.notified (.onReceiveProtocol server_id client_id msg msg_len protocol))

/-! ### What is asked of a loop -/

/-- The calls of the listeners at the given nodes. -/
def callsOf (event : ListenerCall) (nodes : List (ℕ × L)) : List (Call L) :=
  nodes.map fun n => { node := n.1, listener := n.2, event }

/-- What is asked of a loop that began with the list `l` and has made the calls `os`: no
iterator was advanced after its node was erased, so that the loop goes on to its end; all calls
are for the event; and when the loop has ended, or has made as many calls as there were
listeners, those that were there at the beginning and still are have been called once each, in
order. -/
structure Dispatched (event : ListenerCall) (l : NodeList L) (s : Dispatch L)
    (os : List (Call L)) : Prop where
  safe : s.it ≠ .dangling
  goes_on : s.it ≠ .atEnd → ∀ changes, (Dispatch.next event s changes).isSome
  same_event : ∀ c ∈ os, c.event = event
  called : s.it = .atEnd ∨ l.nodes.length ≤ os.length →
    (os.filter fun c => c.node ∈ l.ids ∧ c.node ∈ s.listeners.ids) =
      callsOf event (l.nodes.filter fun n => n.1 ∈ s.listeners.ids)

/-- A listener removes itself at most as often as it is registered before the place where the
loop is. -/
def KeepsOwn (s : Dispatch L) (changes : List (NodeList.Change L)) : Prop :=
  ∀ k listener, s.it = .atNode k → s.listeners.deref k = some listener →
    changes.count (removeEventListener listener) ≤ (s.listeners.ahead k).count listener

/-! ### A loop that was not derailed -/

variable {event : ListenerCall} {l : NodeList L} {s s' : Dispatch L}
  {changes : List (NodeList.Change L)} {is : List (List (NodeList.Change L))}
  {o os : List (Call L)} {k : ℕ} {listener : L}

/-- **Inversion of a turn.** -/
theorem Dispatch.Step.inv (ht : Dispatch.Step event s changes s' o) :
    ∃ k listener, s.it = .atNode k ∧ (k, listener) ∈ s.listeners.nodes ∧
      s'.listeners = s.listeners.applyAll changes ∧ s'.it = s'.listeners.advance k ∧
      o = [{ node := k, listener, event }] := by
  have ht : Dispatch.next event s changes = some (s', o) := ht
  rw [Dispatch.next] at ht
  split at ht
  · rename_i k hit
    obtain ⟨listener, hderef, heq⟩ := Option.map_eq_some_iff.mp ht
    obtain ⟨rfl, rfl⟩ := Prod.mk.inj heq
    exact ⟨k, listener, hit, NodeList.deref_eq_some_iff.mp hderef, rfl, rfl, rfl⟩
  · cases ht

/-- Where a loop stands that began with the list `l`. -/
structure OnTrack (event : ListenerCall) (l : NodeList L) (s : Dispatch L)
    (os : List (Call L)) : Prop where
  later : NodeList.Later l s.listeners
  at_mem : ∀ k, s.it = .atNode k → k ∈ s.listeners.ids
  calls : (os.filter fun c => c.node < l.fresh ∧ c.node ∈ s.listeners.ids) =
    callsOf event ((s.listeners.visited s.it).filter fun n => n.1 < l.fresh)
  known : ∀ c ∈ os, c.node < l.fresh → c.node ∈ l.ids
  increasing : (os.map Call.node).Pairwise (· < ·)
  before : ∀ k, s.it = .atNode k → ∀ c ∈ os, c.node < k
  same_event : ∀ c ∈ os, c.event = event

omit [DecidableEq L] in
/-- At its start the loop has called nobody and has them all before it. -/
theorem onTrack_start : OnTrack event l (.start l) [] := by
  refine ⟨.refl l, fun k hk => ?_, ?_, by simp, .nil, by simp, by simp⟩
  · have hk : NodeList.Iterator.ofNode l.nodes.head? = .atNode k := hk
    cases hnodes : l.nodes with
    | nil =>
        rw [hnodes] at hk
        cases hk
    | cons n nodes =>
        rw [hnodes] at hk
        obtain rfl : n.1 = k := NodeList.Iterator.atNode.inj hk
        exact NodeList.mem_ids_of_mem (by simp [Dispatch.start, hnodes])
  · rw [Dispatch.start, NodeList.visited_begin]
    rfl

/-- **A turn after which the iterator is good.** -/
theorem OnTrack.step (h : OnTrack event l s os) (ht : Dispatch.Step event s changes s' o)
    (hsafe : s'.it ≠ .dangling) : OnTrack event l s' (os ++ o) := by
  obtain ⟨k, listener, hit, hmem, hlist, hit', rfl⟩ := ht.inv
  have hlater : NodeList.Later s.listeners s'.listeners := hlist ▸ NodeList.later_applyAll
  have hk : k ∈ s'.listeners.ids := by
    by_contra hgone
    exact hsafe (hit' ▸ NodeList.advance_dangling_iff.mpr hgone)
  have hmem' := hlater.mem_nodes hmem hk
  obtain ⟨hvisited, -, hnext⟩ := NodeList.advance_visited hmem'
  rw [← hit'] at hvisited hnext
  have hknown : k < l.fresh → k ∈ l.ids := fun hlt =>
    h.later.mem_ids hlt (NodeList.mem_ids_of_mem hmem)
  refine ⟨h.later.trans hlater, hnext, ?_, ?_, ?_, fun k' hk' c hc => ?_, ?_⟩
  · -- of the calls before, those of listeners that are left
    have hbefore : (os.filter fun c => c.node < l.fresh ∧ c.node ∈ s'.listeners.ids) =
        callsOf event
          ((s'.listeners.visited (.atNode k)).filter fun n => n.1 < l.fresh) := by
      have hlive : (os.filter fun c => c.node < l.fresh ∧ c.node ∈ s'.listeners.ids) =
          (os.filter fun c => c.node < l.fresh ∧ c.node ∈ s.listeners.ids).filter
            fun c => c.node ∈ s'.listeners.ids := by
        rw [List.filter_filter]
        refine List.filter_congr fun c _ => ?_
        rw [← Bool.decide_and, decide_eq_decide]
        refine ⟨fun ⟨hlt, hc⟩ => ⟨hc, hlt, ?_⟩, fun ⟨hc, hlt, _⟩ => ⟨hlt, hc⟩⟩
        exact hlater.mem_ids (Nat.lt_of_lt_of_le hlt h.later.fresh_le) hc
      rw [hlive, h.calls, hit, hlater.visited_eq (s.listeners.lt_fresh _ hmem), callsOf,
        List.filter_map, List.filter_comm]
      rfl
    rw [List.filter_append, hbefore, hvisited, List.filter_append, callsOf, callsOf,
      List.map_append]
    congr 1
    by_cases hlt : k < l.fresh <;> simp [hlt, hk]
  · rw [List.forall_mem_append]
    refine ⟨h.known, fun c hc => ?_⟩
    rw [List.mem_singleton.mp hc]
    exact hknown
  · rw [List.map_append, List.pairwise_append]
    refine ⟨h.increasing, List.pairwise_singleton _ _, fun i hi j hj => ?_⟩
    obtain ⟨c, hc, rfl⟩ := List.mem_map.mp hi
    rw [List.map_singleton, List.mem_singleton] at hj
    rw [hj]
    exact h.before k hit c hc
  · -- the next node comes after this one
    have hkk' : (k, listener) ∈ s'.listeners.visited (.atNode k') := by
      rw [← hk', hvisited]
      exact List.mem_append_right _ (List.mem_singleton_self _)
    have hlt : k < k' := by simpa using (List.mem_filter.mp hkk').2
    rcases List.mem_append.mp hc with hc | hc
    · exact Nat.lt_trans (h.before k hit c hc) hlt
    · rwa [List.mem_singleton.mp hc]
  · rw [List.forall_mem_append]
    refine ⟨h.same_event, fun c hc => ?_⟩
    rw [List.mem_singleton.mp hc]

/-- As long as the iterator is valid, the loop is where the calls so far say. -/
theorem onTrack_of_run (h : Run (Dispatch.Step event) (.start l) is os s)
    (hsafe : s.it ≠ .dangling) : OnTrack event l s os := by
  induction h with
  | start => exact onTrack_start
  | step _ ht ih =>
      obtain ⟨k, -, hit, -⟩ := ht.inv
      exact (ih (by simp [hit])).step ht hsafe

/-- What a loop that was not derailed has done. -/
theorem OnTrack.dispatched (h : OnTrack event l s os) (hsafe : s.it ≠ .dangling) :
    Dispatched event l s os := by
  refine ⟨hsafe, fun hend changes => ?_, h.same_event, fun hdone => ?_⟩
  · cases hit : s.it with
    | dangling => exact absurd hit hsafe
    | atEnd => exact absurd hit hend
    | atNode k =>
        obtain ⟨⟨_, listener⟩, hn, rfl⟩ := List.mem_map.mp (h.at_mem k hit)
        simp [Dispatch.next, hit, NodeList.deref_eq_some_iff.mpr hn]
  · -- the loop is past all listeners of the beginning
    have hpast : ∀ k, s.it = .atNode k → l.fresh ≤ k := by
      intro k hit
      by_contra hlt
      have hk : k ∈ l.ids := h.later.mem_ids (by omega) (h.at_mem k hit)
      have hsub : os.map Call.node ++ [k] ⊆ l.ids := by
        refine List.append_subset.mpr ⟨fun i hi => ?_, by simpa using hk⟩
        obtain ⟨c, hc, rfl⟩ := List.mem_map.mp hi
        have := h.before k hit c hc
        exact h.known c hc (by omega)
      have hnodup : (os.map Call.node ++ [k]).Nodup := by
        rw [List.nodup_append_comm, List.singleton_append, List.nodup_cons]
        refine ⟨fun hmem => ?_, h.increasing.imp Nat.ne_of_lt⟩
        obtain ⟨c, hc, heq⟩ := List.mem_map.mp hmem
        have := h.before k hit c hc
        omega
      have hlen := hnodup.length_le_of_subset hsub
      simp only [List.length_append, List.length_map, List.length_singleton,
        NodeList.ids] at hlen
      have hle := hdone.resolve_left (by simp [hit])
      omega
    have hvisited : ((s.listeners.visited s.it).filter fun n => n.1 < l.fresh) =
        s.listeners.nodes.filter fun n => n.1 < l.fresh := by
      cases hit : s.it with
      | dangling => exact absurd hit hsafe
      | atEnd => rfl
      | atNode k =>
          rw [NodeList.visited, List.filter_filter]
          refine List.filter_congr fun n _ => ?_
          have := hpast k hit
          rw [← Bool.decide_and, decide_eq_decide]
          omega
    rw [← h.later.filter_eq, ← hvisited, ← h.calls]
    refine List.filter_congr fun c hc => ?_
    rw [decide_eq_decide]
    exact and_congr_left fun _ => ⟨NodeList.lt_of_mem_ids, h.known c hc⟩

/-- An iterator goes bad when the listener at it has removed itself. -/
theorem Dispatch.safe_iff_along (h : Run (Dispatch.Step event) (.start l) is os s) :
    s.it ≠ .dangling ↔ Along (Dispatch.Step event) KeepsOwn (.start l) is := by
  induction h with
  | start => exact iff_of_true NodeList.begin_ne_dangling along_nil
  | @step is os s changes s' o hrun ht ih =>
      obtain ⟨k, listener, hit, hmem, hlist, hit', -⟩ := ht.inv
      have hkeeps : KeepsOwn s changes ↔
          changes.count (removeEventListener listener) ≤
            (s.listeners.ahead k).count listener := by
        refine ⟨fun h => h k listener hit (NodeList.deref_eq_some_iff.mpr hmem), ?_⟩
        intro hle k' listener' hk' hderef
        obtain rfl := NodeList.Iterator.atNode.inj (hit.symm.trans hk')
        rw [NodeList.deref_eq_some_iff.mpr hmem] at hderef
        obtain rfl := Option.some.inj hderef
        exact hle
      rw [along_concat deterministic_ofFn hrun, ← ih, and_iff_right (by simp [hit]), hkeeps,
        ← NodeList.mem_ids_applyAll_iff hmem, hit', hlist, Ne, NodeList.advance_dangling_iff,
        not_not]

/-- **When a loop calls every listener that stays.** A loop over a list that the listeners
change does what is asked of it exactly if no listener, when it is called, removes itself more
often than it is registered before the place where the loop is. -/
theorem dispatched_iff (h : Run (Dispatch.Step event) (.start l) is os s) :
    Dispatched event l s os ↔ Along (Dispatch.Step event) KeepsOwn (.start l) is := by
  rw [← Dispatch.safe_iff_along h]
  exact ⟨fun hd => hd.safe, fun hsafe => (onTrack_of_run h hsafe).dispatched hsafe⟩

/-! ### A loop over a copy -/

/-- The loop of the `NOTIFY` macros: the list, and what is left of the copy of it. -/
structure Notify (L : Type) where
  m_listeners : NodeList L
  rest : List L

/-- The copy is made before the first turn. -/
def Notify.start (m_listeners : NodeList L) : Notify L :=
  { m_listeners, rest := m_listeners.nodes.map Prod.snd }

/-- One turn of the abstract loop. -/
def Notify.next (event : ListenerCall) (s : Notify L) (changes : List (NodeList.Change L)) :
    Option (Notify L × List (L × ListenerCall)) :=
  match s.rest with
  | [] => none
  | listener :: rest =>
      some ({ m_listeners := s.m_listeners.applyAll changes, rest }, [(listener, event)])

/-- The abstract loop under the changes that its listeners make. -/
abbrev Notify.Step (event : ListenerCall) :
    Lts (Notify L) (List (NodeList.Change L)) (L × ListenerCall) :=
  ofFn (Notify.next event)

/-- **A loop over a copy calls all listeners once, in order, whatever they do.** -/
theorem notified_all {t : Notify L} {os : List (L × ListenerCall)}
    (h : Run (Notify.Step event) (.start l) is os t) :
    os ++ t.rest.map (·, event) = (l.nodes.map Prod.snd).map (·, event) := by
  induction h with
  | start => rfl
  | @step is os t changes t' o _ ht ih =>
      have ht : Notify.next event t changes = some (t', o) := ht
      rw [Notify.next] at ht
      split at ht
      · cases ht
      · rename_i listener rest hrest
        obtain ⟨rfl, rfl⟩ := Prod.mk.inj (Option.some.inj ht)
        rw [← ih, hrest]
        simp

end

/-! ### Two listeners -/

/-- Listener `1` is registered twice, with `2` between; its second call removes its first
registration. -/
theorem dispatched_iff_twice :
    ∃ s os, Run (AnyServerImpl.onClientConnected 1 16) (.start (.ofList [1, 2, 1]))
        [[], [addEventListener 3], [removeEventListener 1], []] os s ∧ s.it = .atEnd ∧
      os.map Call.listener = [1, 2, 1, 3] ∧
      Dispatched (.notified (.onClientConnected 1 16)) (.ofList [1, 2, 1]) s os := by
  have hrun : ∃ s os, Run (AnyServerImpl.onClientConnected 1 16) (.start (.ofList [1, 2, 1]))
        [[], [addEventListener 3], [removeEventListener 1], []] os s ∧ s.it = .atEnd ∧
      os.map Call.listener = [1, 2, 1, 3] := ⟨_, _, run_of_exec rfl, rfl, rfl⟩
  obtain ⟨s, os, hrun, hend, hlisteners⟩ := hrun
  refine ⟨s, os, hrun, hend, hlisteners, (dispatched_iff hrun).mpr ?_⟩
  refine along_cons rfl ?_ (along_cons rfl ?_ (along_cons rfl ?_ (along_cons rfl ?_ along_nil)))
  · intro k listener _ _
    exact Nat.zero_le _
  · intro k listener _ _
    exact Nat.zero_le _
  · intro k listener hit hderef
    obtain rfl : 2 = k := NodeList.Iterator.atNode.inj hit
    obtain rfl : 1 = listener := Option.some.inj hderef
    decide
  · intro k listener _ _
    exact Nat.zero_le _

/-- A listener that removes itself when it is called: `++it` comes after its node is erased,
and the next listener is not called. -/
theorem selfRemoval_dangling :
    ∃ s os, Run (ServerFactory.onReceive 1 16 [104, 105] 2) (.start (.ofList [1, 2]))
        [[removeEventListener 1]] os s ∧ s.it = .dangling ∧ os.map Call.listener = [1] ∧
      ¬ Dispatched (.notified (.onReceive 1 16 [104, 105] 2)) (.ofList [1, 2]) s os :=
  ⟨_, _, run_of_exec rfl, rfl, rfl, fun h => h.safe rfl⟩

end AnyServer
