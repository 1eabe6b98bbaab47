import AnyServer.Broadcast
import AnyServer.ServerIds
import AnyServer.StreamFidelity

/-!
# The Echo of the TCP Servers

With `enable_echo_test` the factory's `onReceive` ends with a `sendToClient` of what has come, on
the thread of the server's worker. It knows the client by an id, the server by another one, and
writes to an fd; that the bytes come back on the connection that they were read from follows from
the tables that the worker keeps.

`write` may take fewer bytes than it is given, and what it leaves is not sent again. So a client
gets its own bytes back, in order, exactly as long as every `write` takes the whole message.

## Main results

* `EchoServer.step_sent`: what one step sends.
* `echo_messages`: what is sent to a connection is what was read from it, message by message.
* `echo_whole_iff`: when a connection is given back what it sent.
-/

namespace AnyServer

open Lts

/-! ### The system -/

/-- What can be seen: what the worker does, the bytes of an echo that are handed to `write`, with
the connection that the fd names and the result of the call, and a call that goes through a null
client. -/
inductive EchoObs
  | seen (o : EpollObs)
  | sent (conn : Option ℕ) (msg : Bytes) (result : ℤ)
  | crashed
  deriving DecidableEq, Repr

/-- The server as the factory has it. -/
def EpollKind.impl : EpollKind → EpollServer → BaseServerImpl
  | .inet => .inetTcp
  | .unix => .unixTcp

/-- The end of `ServerFactory::onReceive` with `enable_echo_test`, the call of
`ServerFactory::sendToClient`. -/
def echo (m_servers : List BaseServerImpl) (kernel : Kernel) (r : SendResults) :
    Notification → List EchoObs
  | .onReceive server_id client_id msg msg_len =>
      match m_servers.find? fun server => server_id == server.getId with
      | none => []
      | some server =>
          match server.sendToClient client_id (msg.take msg_len) r with
          | none => [.crashed]
          | some (_, writes) => writes.flatMap fun write =>
              match write with
              | .write fd msg => [.sent (kernel.conn fd) msg r.write]
              | _ => []
  | _ => []

/-- What the worker does, with what follows it in the factory. -/
def EchoObs.following (m_servers : List BaseServerImpl) (kernel : Kernel) (r : SendResults) :
    EpollObs → List EchoObs
  | .read conn bs => [.seen (.read conn bs)]
  | .notify conn n => .seen (.notify conn n) :: echo m_servers kernel r n

/-- The worker of a server that the factory has between other ones. -/
inductive EchoServer.Step (kind : EpollKind) (before after : List BaseServerImpl) :
    Lts EpollWorker (EpollInput × SendResults) EchoObs
  | step {w w' : EpollWorker} {i : EpollInput} {o : List EpollObs} (r : SendResults) :
      EpollWorker.Step kind w i w' o →
      Step kind before after w (i, r) w'
        (o.flatMap (EchoObs.following (before ++ kind.impl w'.server :: after) w'.kernel r))

/-- What the worker did. -/
def seenOf (os : List EchoObs) : List EpollObs :=
  os.filterMap fun o =>
    match o with
    | .seen o => some o
    | _ => none

/-- The messages read from connection `k`. -/
def messagesRead (k : ℕ) (os : List EpollObs) : List Bytes :=
  os.filterMap fun o =>
    match o with
    | .read conn bs => if conn = some k then some bs else none
    | .notify _ _ => none

/-- The messages handed to `write` for connection `k`, with what `write` returned. -/
def echoes (k : ℕ) (os : List EchoObs) : List (Bytes × ℤ) :=
  os.filterMap fun o =>
    match o with
    | .sent conn msg result => if conn = some k then some (msg, result) else none
    | _ => none

/-- The bytes that `write` has taken for connection `k`. -/
def bytesTaken (k : ℕ) (os : List EchoObs) : Bytes :=
  (echoes k os).flatMap fun e => e.1.take e.2.toNat

/-- A run without a null client in which every echo is of what was just read, on the connection
that it was read from. -/
structure Echoes (os : List EchoObs) : Prop where
  crashed : .crashed ∉ os
  lost : ∀ msg result, .sent none msg result ∉ os
  messages : ∀ k, (echoes k os).map Prod.fst = messagesRead k (seenOf os)

section

variable {kind : EpollKind} {before after : List BaseServerImpl} {w w' w₀ : EpollWorker}
  {i : EpollInput × SendResults} {is : List (EpollInput × SendResults)} {o os : List EchoObs}
  {k : ℕ}

@[simp] theorem seenOf_append : seenOf (os ++ o) = seenOf os ++ seenOf o :=
  List.filterMap_append

@[simp] theorem messagesRead_append {os o : List EpollObs} :
    messagesRead k (os ++ o) = messagesRead k os ++ messagesRead k o :=
  List.filterMap_append

@[simp] theorem echoes_append : echoes k (os ++ o) = echoes k os ++ echoes k o :=
  List.filterMap_append

/-- Two logs in which every message is echoed make one. -/
theorem Echoes.append (h : Echoes os) (ho : Echoes o) : Echoes (os ++ o) where
  crashed hmem := (List.mem_append.mp hmem).elim h.crashed ho.crashed
  lost msg result hmem := (List.mem_append.mp hmem).elim (h.lost msg result) (ho.lost msg result)
  messages k := by
    rw [echoes_append, List.map_append, h.messages, ho.messages, seenOf_append,
      messagesRead_append]

/-- The messages that were read are together the bytes that were read. -/
theorem flatten_messagesRead (k : ℕ) (os : List EpollObs) :
    (messagesRead k os).flatten = bytesRead k os := by
  induction os with
  | nil => rfl
  | cons o os ih =>
      cases o with
      | notify conn n => exact ih
      | read conn bs =>
          by_cases hk : conn = some k
          · simpa [messagesRead, bytesRead, hk] using ih
          · simpa [messagesRead, bytesRead, hk] using ih

/-! ### One step -/

/-- The factory's search ends at the server that called. -/
theorem find?_impl {server : EpollServer} (hbefore : ∀ s ∈ before, s.getId ≠ server.m_server_id) :
    (before ++ kind.impl server :: after).find? (fun s => server.m_server_id == s.getId) =
      some (kind.impl server) := by
  have hnone : before.find? (fun s => server.m_server_id == s.getId) = none :=
    List.find?_eq_none.mpr fun s hs heq => hbefore s hs (eq_of_beq heq).symm
  have hself : (server.m_server_id == (kind.impl server).getId) = true := by
    cases kind <;> exact beq_self_eq_true _
  rw [List.find?_append, hnone, Option.none_or]
  exact List.find?_cons_of_pos hself

/-- The echo of what has been read on an fd goes to that fd. -/
theorem echo_received {fd : ℤ} {client : TcpClientInfo} {bs : Bytes} {r : SendResults}
    (htab : Tables w) (hbefore : ∀ s ∈ before, s.getId ≠ w.server.m_server_id)
    (hc : findClientInfoFd w.server.m_client_list fd = some client) :
    echo (before ++ kind.impl w.server :: after) w.kernel r
        (.onReceive w.server.m_server_id (getClientId client) (readBuffer bs) bs.length) =
      [.sent (w.kernel.conn fd) bs r.write] := by
  have hfind : findClientInfo w.server.m_client_list (getClientId client) = some client :=
    findClientInfo_of_mem htab.ids_nodup (Keyed.mem_of_find hc)
  have hfd : client.m_fd = fd := Keyed.key_of_find hc
  have hsend : w.server.sendToClient (getClientId client) bs r.write =
      some (decide (r.write ≠ -1), [.write fd bs]) := by
    simp only [EpollServer.sendToClient, hfind, hfd, bind, Option.bind_some]
    split <;> simp [*]
  rw [echo, find?_impl hbefore, take_readBuffer]
  cases kind <;> simp [EpollKind.impl, BaseServerImpl.sendToClient, hsend]

/-- Before any message there is no echo. -/
theorem echoes_nil : Echoes [] :=
  ⟨List.not_mem_nil, fun _ _ => List.not_mem_nil, fun _ => rfl⟩

/-- A notification that is not of data is not echoed. -/
theorem echoes_notify {conn : Option ℕ} {n : Notification} {m_servers : List BaseServerImpl}
    {kernel : Kernel} {r : SendResults} (h : echo m_servers kernel r n = []) :
    Echoes ([EpollObs.notify conn n].flatMap (EchoObs.following m_servers kernel r)) := by
  have heq : [EpollObs.notify conn n].flatMap (EchoObs.following m_servers kernel r) =
      [.seen (.notify conn n)] := by
    simp [EchoObs.following, h]
  rw [heq]
  exact ⟨by simp, by simp, fun _ => rfl⟩

/-- Data are echoed where they were read. -/
theorem echoes_received {n : Notification} {bs : Bytes} {m_servers : List BaseServerImpl}
    {kernel : Kernel} {r : SendResults} {result : ℤ}
    (h : echo m_servers kernel r n = [.sent (some k) bs result]) :
    Echoes ([EpollObs.read (some k) bs, .notify (some k) n].flatMap
      (EchoObs.following m_servers kernel r)) := by
  have heq : [EpollObs.read (some k) bs, .notify (some k) n].flatMap
      (EchoObs.following m_servers kernel r) =
        [.seen (.read (some k) bs), .seen (.notify (some k) n), .sent (some k) bs result] := by
    simp [EchoObs.following, h]
  rw [heq]
  refine ⟨by simp, by simp, fun k' => ?_⟩
  by_cases hk : k = k'
  · simp [echoes, messagesRead, seenOf, hk]
  · simp [echoes, messagesRead, seenOf, hk]

/-- **One step.** What it reads on a connection it sends back there, whole and at once. -/
theorem EchoServer.step_echoes (htab : Tables w)
    (hbefore : ∀ s ∈ before, s.getId ≠ w.server.m_server_id)
    (ht : Step kind before after w i w' o) : Echoes o := by
  obtain ⟨r, ht⟩ := ht
  cases ht with
  | handle sys hpc hl heff =>
      cases handleEvent_effect heff with
      | accepted hfd => exact echoes_notify rfl
      | disconnected hfd hread => exact echoes_notify rfl
      | received bs client hfd hread hbs hc =>
          obtain ⟨k, hk⟩ := htab.event_conn hpc hfd
          have hecho : echo (before ++ kind.impl w.server :: after) w.kernel r
              (.onReceive w.server.m_server_id (getClientId client) (readBuffer bs) bs.length) =
              [.sent (w.kernel.conn _) bs r.write] := echo_received htab hbefore hc
          rw [hk] at hecho ⊢
          exact echoes_received hecho
  | store _ | entry _ | enter _ _ | leave _ _ | wait _ _ _ | again _ => exact echoes_nil

/-! ### Whole runs -/

/-- Every run of the echo server answers each message on the connection that it came from. -/
theorem echoes_run (h₀ : w₀.Initial)
    (hbefore : ∀ s ∈ before, s.getId ≠ w₀.server.m_server_id)
    (h : Run (EchoServer.Step kind before after) w₀ is os w) : Echoes os := by
  refine (h.invariant (P := fun _ os w => Tables w ∧
    w.server.m_server_id = w₀.server.m_server_id ∧ Echoes os)
    ⟨h₀.tables, rfl, echoes_nil⟩ fun _ ih ht => ?_).2.2
  obtain ⟨htab, hid, hos⟩ := ih
  have ho := EchoServer.step_echoes htab (fun s hs => hid ▸ hbefore s hs) ht
  obtain ⟨r, ht⟩ := ht
  exact ⟨htab.step ht, ht.server_id.1.trans hid, hos.append ho⟩

/-- **An echo for each message.** Of a server whose id no server before it in the list has: along
every run, no echo goes through a null client or to a closed connection, and what is handed to
`write` for a connection are the messages that were read from it, in order. -/
theorem echo_messages (h₀ : w₀.Initial)
    (hbefore : ∀ s ∈ before, s.getId ≠ w₀.server.m_server_id)
    (h : Run (EchoServer.Step kind before after) w₀ is os w) :
    .crashed ∉ os ∧ (∀ msg result, .sent none msg result ∉ os) ∧
      ∀ k, (echoes k os).map Prod.fst = messagesRead k (seenOf os) :=
  have hechoes := echoes_run h₀ hbefore h
  ⟨hechoes.crashed, hechoes.lost, hechoes.messages⟩

/-! ### Messages that are not taken whole -/

/-- `write` takes no more than it is given. -/
theorem length_flatMap_take_le (l : List (Bytes × ℤ)) :
    (l.flatMap fun e => e.1.take e.2.toNat).length ≤ (l.map Prod.fst).flatten.length := by
  induction l with
  | nil => exact le_rfl
  | cons e l ih =>
      rw [List.flatMap_cons, List.map_cons, List.flatten_cons, List.length_append,
        List.length_append]
      exact Nat.add_le_add (List.length_take_le' _ _) ih

/-- Messages cut short come to the whole only if none is cut. -/
theorem flatMap_take_eq_iff (l : List (Bytes × ℤ)) :
    (l.flatMap fun e => e.1.take e.2.toNat) = (l.map Prod.fst).flatten ↔
      ∀ e ∈ l, e.1.length ≤ e.2.toNat := by
  induction l with
  | nil => simp
  | cons e l ih =>
      rw [List.flatMap_cons, List.map_cons, List.flatten_cons, List.forall_mem_cons, ← ih]
      constructor
      · intro h
        have hlength := congrArg List.length h
        have hle := length_flatMap_take_le l
        rw [List.length_append, List.length_append, List.length_take] at hlength
        have hwhole : e.1.length ≤ e.2.toNat := by omega
        rw [List.take_of_length_le hwhole] at h
        exact ⟨hwhole, List.append_cancel_left h⟩
      · rintro ⟨hwhole, h⟩
        rw [List.take_of_length_le hwhole, h]

/-- **What a client gets back.** The bytes that `write` takes for a connection are those read from
it if and only if every `write` for it takes the whole of its message. -/
theorem echo_whole_iff (h₀ : w₀.Initial)
    (hbefore : ∀ s ∈ before, s.getId ≠ w₀.server.m_server_id)
    (h : Run (EchoServer.Step kind before after) w₀ is os w) (k : ℕ) :
    bytesTaken k os = bytesRead k (seenOf os) ↔
      ∀ e ∈ echoes k os, e.1.length ≤ e.2.toNat := by
  rw [bytesTaken, ← flatten_messagesRead, ← (echoes_run h₀ hbefore h).messages]
  exact flatMap_take_eq_iff _

end

/-! ### One connection -/

/-- All of two bytes are taken. -/
def twoTaken : SendResults :=
  { allWritten with write := 2 }

/-- Accept a connection on fd `5` and read two bytes from it, which are sent back. -/
theorem echo_run :
    ∃ is w, Run (EchoServer.Step .inet [] []) listening is
      [.seen (.notify (some 0) (.onClientConnected 1 16)), .seen (.read (some 0) [7, 8]),
        .seen (.notify (some 0) (.onReceive 1 16 (readBuffer [7, 8]) 2)),
        .sent (some 0) [7, 8] 2] w := by
  have h₀ : Run (EchoServer.Step .inet [] []) listening [] [] listening := .start
  have h₁ := ((h₀.step (.step twoTaken (.entry rfl))).step (.step twoTaken (.enter rfl rfl))).step
    (.step twoTaken (.wait [3] rfl ⟨by decide, by decide, by decide⟩))
  have h₂ := h₁.step (.step twoTaken (.handle ⟨5, true, 16, none⟩ rfl
    ⟨fun _ => .inr ⟨by decide, rfl, by decide⟩, fun _ => by decide, fun h => absurd rfl h⟩ rfl))
  have h₃ := ((h₂.step (.step twoTaken (.again rfl))).step
    (.step twoTaken (.enter rfl rfl))).step
    (.step twoTaken (.wait [5] rfl ⟨by decide, by decide, by decide⟩))
  have h₄ := h₃.step (.step twoTaken (.handle ⟨0, true, 0, some [7, 8]⟩ rfl
    ⟨by decide, by decide, fun _ bs h => by cases h; decide⟩ rfl))
  exact ⟨_, _, h₄⟩

/-- The echo server answers a message of two bytes with these two bytes. -/
theorem echo_messages_run :
    ∃ os : List EchoObs, .sent (some 0) [7, 8] 2 ∈ os ∧
      (echoes 0 os).map Prod.fst = messagesRead 0 (seenOf os) := by
  obtain ⟨is, w, hrun⟩ := echo_run
  exact ⟨_, by simp, (echo_messages listening_initial (List.forall_mem_nil _) hrun).2.2 0⟩

/-- When `write` takes both of them, the client gets back what it sent. -/
theorem echo_whole_iff_run :
    ∃ os : List EchoObs, .sent (some 0) [7, 8] 2 ∈ os ∧
      bytesTaken 0 os = bytesRead 0 (seenOf os) := by
  obtain ⟨is, w, hrun⟩ := echo_run
  refine ⟨_, by simp, (echo_whole_iff listening_initial (List.forall_mem_nil _) hrun 0).mpr ?_⟩
  intro e he
  obtain rfl := List.mem_singleton.mp he
  exact le_rfl

end AnyServer
