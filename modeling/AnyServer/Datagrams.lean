import AnyServer.ServerLoops

/-!
# One Datagram, One Session

A pass of the UDP servers' loop makes a client for the datagram that it receives, reports
connect, data and disconnect for it, and removes it again. It does so also after a failed
`recvfrom`, and then the length of the data is `-1` read as an `unsigned int`. In a debug
build the inet server's log call reads the host entry that `gethostbyaddr` has returned, also
where that is null.

## Main results

* `communication_isSome_iff`: when one pass goes through no null pointer.
* `handles_iff`: when one pass makes one session of its datagram.
* `datagrams_handled_iff`: the same for every pass of a run.
-/

namespace AnyServer

open Lts

/-! ### What a pass should do -/

/-- A call of `onReceive`. -/
def Notification.isReceive : Notification → Bool
  | .onReceive _ _ _ _ => true
  | .onReceiveProtocol _ _ _ _ _ => true
  | _ => false

/-- The notifications are one session around the bytes received, or for a failed `recvfrom`
have no data in them. -/
def SessionOf (server_id : ℕ) (received : Option (Option SockAddr × Bytes))
    (ns : List Notification) : Prop :=
  match received with
  | some (_, bs) => ∃ client_id buffer,
      ns = [.onClientConnected server_id client_id,
        .onReceive server_id client_id buffer bs.length,
        .onClientDisconnected server_id client_id] ∧ buffer.take bs.length = bs
  | none => ∀ n ∈ ns, n.isReceive = false

/-- No client is registered, and a pass that is due goes through no null pointer, notifies as
it should and leaves no client registered. -/
def UdpWorker.Handles (kind : UdpKind) (debug : Bool) (w : UdpWorker) (i : UdpInput) : Prop :=
  w.server.m_client_list = [] ∧
    ∀ r, i = .recvfrom r → w.pc = .recv → r.Legal kind w →
      ∃ w' o, communication kind debug w r = some (w', o) ∧ w'.server.m_client_list = [] ∧
        SessionOf w.server.m_server_id r.recvfrom (o.flatMap UdpObs.notification)

/-- `recvfrom` succeeds and, where the host entry is read, there is one. -/
def UdpWorker.Received (kind : UdpKind) (debug : Bool) (w : UdpWorker) (i : UdpInput) : Prop :=
  ∀ r, i = .recvfrom r → w.pc = .recv → r.Legal kind w →
    r.recvfrom ≠ none ∧ (kind = .inet → debug = true → r.hostp = true)

section

variable {kind : UdpKind} {debug : Bool} {w₀ w w' : UdpWorker} {is : List UdpInput}
  {i : UdpInput} {os o : List UdpObs} {r : RecvResults} {server : UdpServer} {client_id : ℕ}
  {client : UdpClientInfo}

/-! ### One pass -/

/-- Answers to a registered client go through no null pointer. -/
theorem sendReplies_isSome (hc : findClientInfo server.m_client_list client_id = some client)
    (replies : List (Bytes × ℤ)) :
    ∃ writes, sendReplies server client_id replies = some writes := by
  induction replies with
  | nil => exact ⟨[], rfl⟩
  | cons reply replies ih =>
      obtain ⟨msg, sendto⟩ := reply
      obtain ⟨writes, hwrites⟩ := ih
      have hfirst : ∃ x, server.sendToClient client_id msg sendto = some x := by
        simp only [UdpServer.sendToClient, hc, bind, Option.bind_some]
        split
        · exact ⟨_, rfl⟩
        · exact ⟨_, rfl⟩
      obtain ⟨x, hx⟩ := hfirst
      exact ⟨x.2 ++ writes, by simp [sendReplies, hx, hwrites]⟩

/-- **One pass** goes through no null pointer, unless the host entry is missing where it is
read. -/
theorem communication_isSome_iff (hl : r.Legal kind w) :
    (∃ w' o, communication kind debug w r = some (w', o)) ↔
      (kind = .inet → debug = true → r.hostp = true) := by
  let client : UdpClientInfo := ⟨⟨false, r.m_client_id⟩, (w.recvfrom r.recvfrom).clientaddr⟩
  have hfind : findClientInfo (w.server.m_client_list ++ [client]) r.m_client_id =
      some client := findClientInfo_concat hl.2.2
  obtain ⟨writes, hwrites⟩ : ∃ writes,
      sendReplies { w.server with m_client_list := w.server.m_client_list ++ [client] }
        r.m_client_id r.replies = some writes := sendReplies_isSome hfind r.replies
  have hid : getClientId client = r.m_client_id := rfl
  simp only [client] at hwrites hid
  simp only [communication, addClientInfo_fst, addClientInfo_snd, hid, hwrites, bind,
    Option.bind_some]
  split
  · next hnone =>
    obtain ⟨hk, hd, hh⟩ := hnone
    simp [hk, hd, hh]
  · next hnone =>
    refine iff_of_true ⟨_, _, rfl⟩ fun hk hd => ?_
    by_contra hh
    exact hnone ⟨hk, hd, by simpa using hh⟩

/-- **When a pass makes one session of its datagram.** -/
theorem handles_iff (hempty : w.server.m_client_list = []) :
    w.Handles kind debug i ↔ w.Received kind debug i := by
  constructor
  · rintro ⟨-, hall⟩ r hi hpc hl
    obtain ⟨w', o, hcomm, -, hsession⟩ := hall r hi hpc hl
    refine ⟨fun hfailed => ?_, (communication_isSome_iff hl).mp ⟨w', o, hcomm⟩⟩
    obtain ⟨-, hns⟩ := communication_notifications hl hcomm
    -- a failed `recvfrom` is reported like any other
    rw [hfailed, hns] at hsession
    cases hsession _ (.tail _ (.head _))
  · intro hreceived
    refine ⟨hempty, fun r hi hpc hl => ?_⟩
    obtain ⟨hsome, hhost⟩ := hreceived r hi hpc hl
    obtain ⟨w', o, hcomm⟩ := (communication_isSome_iff hl).mpr hhost
    obtain ⟨hserver, hns⟩ := communication_notifications hl hcomm
    refine ⟨w', o, hcomm, by rw [hserver, hempty], ?_⟩
    obtain ⟨⟨sender, bs⟩, hbs⟩ := Option.ne_none_iff_exists'.mp hsome
    have hlen : bs.length ≤ 2048 := (hl.1 _ hbs).2
    rw [hns, hbs]
    have hcount : ((bs.length : ℤ) % 2 ^ 32).toNat = bs.length := by omega
    refine ⟨r.m_client_id, (w.recvfrom (some (sender, bs))).buffer, ?_, ?_⟩
    · simp only [UdpWorker.recvfrom, hcount]
    · simp [UdpWorker.recvfrom]

/-! ### Runs -/

/-- Between the passes no client is registered. -/
theorem UdpWorker.empty_run (h₀ : w₀.Initial kind)
    (h : Run (UdpWorker.Step kind debug) w₀ is os w) : w.server.m_client_list = [] := by
  refine h.invariant (P := fun _ _ w => w.server.m_client_list = []) h₀.client_list ?_
  intro is os w i w' o _ hempty ht
  cases ht.effect with
  | stored _ | entered _ | again _ _ | left _ _ => exact hempty
  | pass hpc hl hcomm =>
      obtain ⟨hserver, -⟩ := communication_notifications hl hcomm
      rw [hserver, hempty]

/-- **When every datagram is one session.** -/
theorem datagrams_handled_iff (h₀ : w₀.Initial kind) (is : List UdpInput) :
    Along (UdpWorker.Step kind debug) (UdpWorker.Handles kind debug) w₀ is ↔
      Along (UdpWorker.Step kind debug) (UdpWorker.Received kind debug) w₀ is := by
  constructor
  · intro h pre i post os w his hrun
    exact (handles_iff (UdpWorker.empty_run h₀ hrun)).mp (h pre i post os w his hrun)
  · intro h pre i post os w his hrun
    exact (handles_iff (UdpWorker.empty_run h₀ hrun)).mpr (h pre i post os w his hrun)

end

/-! ### Failed calls -/

/-- A pass in which `recvfrom` fails. -/
def failedRecvfrom : RecvResults :=
  { recvfrom := none, hostp := true, m_client_id := 16, replies := [] }

/-- A worker of an inet server with cleared variables. -/
def inetWorker : UdpWorker :=
  { server := { m_server_id := 1, m_server_fd := 3, m_run_thread := false,
                m_client_list := [] }
    clientaddr := List.replicate 16 0
    clientlen := 0
    pc := .entry }

/-- A datagram from an address that `gethostbyaddr` knows no host for. -/
def unknownHost : RecvResults :=
  { recvfrom := some (some (.inet [0, 80] [127, 0, 0, 1]), [7]), hostp := false,
    m_client_id := 16, replies := [] }

/-- Two datagrams that `recvfrom` receives are one session each. -/
theorem datagrams_handled_iff_twoSenders :
    Along (UdpWorker.Step .unix false) (UdpWorker.Handles .unix false) unixWorker twoSenders := by
  refine (datagrams_handled_iff unixWorker_initial _).mpr ?_
  rintro pre i post os w his - r rfl - -
  have hmem : .recvfrom r ∈ twoSenders := his ▸ List.mem_append_right _ List.mem_cons_self
  have hr : r = datagramFrom [47, 97] ∨ r = datagramFrom [47, 98] := by
    simpa [twoSenders, firstSender] using hmem
  rcases hr with rfl | rfl
  · exact ⟨by decide, fun h => by cases h⟩
  · exact ⟨by decide, fun h => by cases h⟩

/-- A failed `recvfrom` is reported as data of 4294967295 bytes, and a debug build of the inet
server reads through a null host entry. -/
theorem failedCalls_mishandled :
    (∃ os w, Run (UnixDomainSocketUdpServer.Step false) unixWorker
        [.advance, .advance, .recvfrom failedRecvfrom] os w ∧
      .notify (.onReceive 1 16 (List.replicate 2048 0) 4294967295) ∈ os) ∧
    ¬ Along (UdpWorker.Step .unix false) (UdpWorker.Handles .unix false) unixWorker
      [.advance, .advance, .recvfrom failedRecvfrom] ∧
    ∃ os w, Run (InetDomainSocketUdpServer.Step true) inetWorker [.advance, .advance] os w ∧
      unknownHost.Legal .inet w ∧ communication .inet true w unknownHost = none := by
  refine ⟨⟨_, _, run_guarded_of_exec rfl, .tail _ (.head _)⟩, fun h => ?_,
    ⟨_, _, run_guarded_of_exec rfl, by decide, rfl⟩⟩
  have hhandles := h [.advance, .advance] (.recvfrom failedRecvfrom) [] _ _ rfl
    (run_guarded_of_exec rfl)
  have hreceived := (handles_iff rfl).mp hhandles
  exact (hreceived failedRecvfrom rfl rfl (by decide)).1 rfl

end AnyServer
