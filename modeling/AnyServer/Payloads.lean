import AnyServer.Datagrams
import AnyServer.Dispatch
import AnyServer.UdpReplies

/-!
# Payloads as C Strings

The loops of the socket servers clear a buffer of 2048 bytes, receive into all of it, and pass
the pointer on to `onReceive`. What takes it reads it as a C string: the UDP loops and
`ServerFactory::onReceive` log it with `%s` in a debug build, and so do listeners. The NUL that
ends it there is one that was received, or one left of the clearing.

`Passed` are the calls through which the pointer goes: the `NOTIFY` macro calls `ServerFactory`,
which calls `AnyServerImpl`, which calls the listeners of the application. `SocketRun` are the
runs of the four loops, with the results of their `read` and `recvfrom` calls.

## Main results

* `terminated_readBuffer_iff`: when a buffer is left with a NUL.
* `payloads_terminated_iff`: when all pointers passed on in a run are ended by one.
-/

namespace AnyServer

open Lts

/-! ### What is passed on -/

/-- The message of an `onReceive`, read as a C string, ends before its buffer does. -/
def ListenerCall.Terminated : ListenerCall → Prop
  | .notified (.onReceive _ _ msg _) => (CString.scan 0 msg).isSome
  | _ => True

/-- The calls that a notification leads to, through loops over a copy of a list of listeners and
loops over the list itself, whatever the listeners do to the list. -/
inductive Passed (n : Notification) : ListenerCall → Prop
  | notified : Passed n (.notified n)
  | copied {L : Type} [DecidableEq L] {event : ListenerCall} {l : NodeList L} {t : Notify L}
      {is : List (List (NodeList.Change L))} {os : List (L × ListenerCall)}
      {c : L × ListenerCall} (hevent : Passed n event)
      (h : Run (Notify.Step event) (.start l) is os t) (hc : c ∈ os) : Passed n c.2
  | dispatched {L : Type} [DecidableEq L] {event : ListenerCall} {l : NodeList L}
      {s : Dispatch L} {is : List (List (NodeList.Change L))} {os : List (Call L)} {c : Call L}
      (hevent : Passed n event) (h : Run (Dispatch.Step event) (.start l) is os s)
      (hc : c ∈ os) : Passed n c.event

/-- The result of a `read`. -/
def EpollObs.received : EpollObs → List Bytes
  | .read _ bs => [bs]
  | .notify _ _ => []

/-- The result of a `recvfrom` that succeeds. -/
def UdpInput.received : UdpInput → List Bytes
  | .recvfrom r => (r.recvfrom.map Prod.snd).toList
  | .store _ => []
  | .advance => []

/-- A run of one of the four loops: what it has received, and its notifications. -/
inductive SocketRun : List Bytes → List Notification → Prop
  | inetTcp {w₀ w : EpollWorker} {is : List EpollInput} {os : List EpollObs}
      (h : Run InetDomainSocketTcpServer.Step w₀ is os w) :
      SocketRun (os.flatMap EpollObs.received) (os.flatMap EpollObs.notification)
  | unixTcp {w₀ w : EpollWorker} {is : List EpollInput} {os : List EpollObs}
      (h : Run UnixDomainSocketTcpServer.Step w₀ is os w) :
      SocketRun (os.flatMap EpollObs.received) (os.flatMap EpollObs.notification)
  | inetUdp {debug : Bool} {w₀ w : UdpWorker} {is : List UdpInput} {os : List UdpObs}
      (h : Run (InetDomainSocketUdpServer.Step debug) w₀ is os w) :
      SocketRun (is.flatMap UdpInput.received) (os.flatMap UdpObs.notification)
  | unixUdp {debug : Bool} {w₀ w : UdpWorker} {is : List UdpInput} {os : List UdpObs}
      (h : Run (UnixDomainSocketUdpServer.Step debug) w₀ is os w) :
      SocketRun (is.flatMap UdpInput.received) (os.flatMap UdpObs.notification)

section

variable {n : Notification} {event : ListenerCall} {bs : Bytes} {server_id client_id msg_len : ℕ}

/-- The two layers pass on what they are called with. -/
theorem Passed.eq (h : Passed n event) : event = .notified n := by
  induction h with
  | notified => rfl
  | @copied L _ event l t is os c _ hrun hc ih =>
      have hc : c ∈ (l.nodes.map Prod.snd).map (·, event) :=
        notified_all hrun ▸ List.mem_append_left _ hc
      obtain ⟨_, -, rfl⟩ := List.mem_map.mp hc
      exact ih
  | @dispatched L _ event l s is os c _ hrun hc ih =>
      rw [← ih]
      refine hrun.invariant (P := fun _ os _ => ∀ c ∈ os, c.event = event) (by simp) ?_ c hc
      intro is os s changes s' o _ hos ht
      obtain ⟨k, listener, -, -, -, -, rfl⟩ := ht.inv
      exact List.forall_mem_append.mpr ⟨hos, fun c hc => by rw [List.mem_singleton.mp hc]⟩

/-! ### One buffer -/

/-- `readBuffer` is what `memset` and a call that receives `bs` leave in the buffer, whatever was
in it. -/
theorem readBuffer_eq_copyInto {buffer : Bytes} (hbuffer : buffer.length = BUFFER_LENGTH)
    (hbs : bs.length ≤ BUFFER_LENGTH) :
    readBuffer bs =
      CString.copyInto (List.replicate buffer.length 0) BUFFER_LENGTH bs := by
  rw [hbuffer, CString.copyInto_replicate hbs hbs, readBuffer]

/-- The UDP loops fill their buffer alike; a call that fails leaves it cleared. -/
theorem recvfrom_buffer (w : UdpWorker) (received : Option (Option SockAddr × Bytes)) :
    (w.recvfrom received).buffer = readBuffer ((received.map Prod.snd).getD []) := by
  cases received with
  | none => rfl
  | some received => rfl

/-- **When a buffer is left with a NUL.** -/
theorem terminated_readBuffer_iff (hbs : bs.length ≤ BUFFER_LENGTH) :
    (ListenerCall.notified (.onReceive server_id client_id (readBuffer bs) msg_len)).Terminated ↔
      bs.length < BUFFER_LENGTH ∨ 0 ∈ bs := by
  have hbuffer : (List.replicate BUFFER_LENGTH (0 : UInt8)).length = BUFFER_LENGTH :=
    List.length_replicate
  rw [ListenerCall.Terminated, CString.isSome_scan_iff, readBuffer_eq_copyInto hbuffer hbs, hbuffer]
  exact CString.mem_copyInto_replicate_iff hbs hbs

/-! ### The loops -/

/-- **A step of the epoll servers' loop.** -/
theorem EpollWorker.Step.terminated_iff {kind : EpollKind} {w w' : EpollWorker} {i : EpollInput}
    {o : List EpollObs} (ht : EpollWorker.Step kind w i w' o) :
    (∀ n ∈ o.flatMap EpollObs.notification, (ListenerCall.notified n).Terminated) ↔
      ∀ bs ∈ o.flatMap EpollObs.received, bs.length < BUFFER_LENGTH ∨ 0 ∈ bs := by
  cases ht with
  | store _ | entry _ | enter _ _ | leave _ _ | wait _ _ _ | again _ => simp
  | handle sys hpc hl hs =>
      cases handleEvent_effect hs with
      | accepted hfd => simp [EpollObs.notification, EpollObs.received, ListenerCall.Terminated]
      | disconnected hfd hread =>
          simp [EpollObs.notification, EpollObs.received, ListenerCall.Terminated]
      | received bs client hfd hread hbs hc =>
          simpa [EpollObs.notification, EpollObs.received] using
            terminated_readBuffer_iff (hl.read hfd bs hread)

/-- **A whole run of it.** -/
theorem EpollWorker.terminated_iff {kind : EpollKind} {w₀ w : EpollWorker} {is : List EpollInput}
    {os : List EpollObs} (h : Run (EpollWorker.Step kind) w₀ is os w) :
    (∀ n ∈ os.flatMap EpollObs.notification, (ListenerCall.notified n).Terminated) ↔
      ∀ bs ∈ os.flatMap EpollObs.received, bs.length < BUFFER_LENGTH ∨ 0 ∈ bs := by
  induction h with
  | start => simp
  | step _ ht ih =>
      rw [List.flatMap_append, List.flatMap_append, List.forall_mem_append,
        List.forall_mem_append, ih, ht.terminated_iff]

/-- **A step of the UDP servers' loop.** -/
theorem UdpWorker.Step.terminated_iff {kind : UdpKind} {debug : Bool} {w w' : UdpWorker}
    {i : UdpInput} {o : List UdpObs} (ht : UdpWorker.Step kind debug w i w' o) :
    (∀ n ∈ o.flatMap UdpObs.notification, (ListenerCall.notified n).Terminated) ↔
      ∀ bs ∈ i.received, bs.length < BUFFER_LENGTH ∨ 0 ∈ bs := by
  cases ht.effect with
  | stored _ | entered _ | again _ _ | left _ _ => simp [UdpInput.received]
  | @pass r _ _ hpc hl hcomm =>
      obtain ⟨-, hns⟩ := communication_notifications hl hcomm
      have hlen : ((r.recvfrom.map Prod.snd).getD []).length ≤ BUFFER_LENGTH := by
        cases hr : r.recvfrom with
        | none => exact Nat.zero_le _
        | some received => exact (hl.1 received hr).2
      rw [hns, recvfrom_buffer]
      simp only [List.forall_mem_cons, terminated_readBuffer_iff hlen]
      -- what a failed call leaves is read too, as an empty string
      cases hr : r.recvfrom with
      | none => simp [UdpInput.received, hr, ListenerCall.Terminated, BUFFER_LENGTH]
      | some received => simp [UdpInput.received, hr, ListenerCall.Terminated]

/-- **A whole run of it.** -/
theorem UdpWorker.terminated_iff {kind : UdpKind} {debug : Bool} {w₀ w : UdpWorker}
    {is : List UdpInput} {os : List UdpObs} (h : Run (UdpWorker.Step kind debug) w₀ is os w) :
    (∀ n ∈ os.flatMap UdpObs.notification, (ListenerCall.notified n).Terminated) ↔
      ∀ bs ∈ is.flatMap UdpInput.received, bs.length < BUFFER_LENGTH ∨ 0 ∈ bs := by
  induction h with
  | start => simp
  | step _ ht ih =>
      rw [List.flatMap_append, List.flatMap_append, List.forall_mem_append,
        List.forall_mem_append, ih, ht.terminated_iff, List.flatMap_singleton]

/-- **When a pointer passed on can be read as a C string.** In a run of any of the four loops, no
call that the pointer goes through is given one without a NUL in its buffer, exactly if nothing
received without a NUL has filled the buffer. -/
theorem payloads_terminated_iff {received : List Bytes} {ns : List Notification}
    (h : SocketRun received ns) :
    (∀ n ∈ ns, ∀ event, Passed n event → event.Terminated) ↔
      ∀ bs ∈ received, bs.length < BUFFER_LENGTH ∨ 0 ∈ bs := by
  have hpassed : (∀ n ∈ ns, ∀ event, Passed n event → event.Terminated) ↔
      ∀ n ∈ ns, (ListenerCall.notified n).Terminated := by
    refine forall₂_congr fun n _ => ⟨fun hall => hall _ .notified, fun hn event hevent => ?_⟩
    rwa [hevent.eq]
  rw [hpassed]
  cases h with
  | inetTcp hrun | unixTcp hrun => exact EpollWorker.terminated_iff hrun
  | inetUdp hrun | unixUdp hrun => exact UdpWorker.terminated_iff hrun

end

/-! ### A full buffer -/

/-- Two datagrams of one byte each. -/
theorem payloads_terminated_iff_twoSenders :
    ∃ received ns, received = [[7], [7]] ∧ SocketRun received ns ∧
      ∀ n ∈ ns, ∀ event, Passed n event → event.Terminated := by
  have hrun : Run (UnixDomainSocketUdpServer.Step false) unixWorker twoSenders _ _ :=
    run_guarded_of_exec rfl
  refine ⟨[[7], [7]], _, rfl, .unixUdp hrun, ?_⟩
  exact (payloads_terminated_iff (.unixUdp hrun)).mpr (by decide)

/-- A datagram of 2048 equal bytes. -/
def fullDatagram (x : UInt8) : RecvResults :=
  { recvfrom := some (some (.path [47, 97]), List.replicate 2048 x), hostp := true,
    m_client_id := 16, replies := [] }

/-- It fills the buffer, and there is no NUL to end it. -/
theorem fullDatagram_unterminated :
    ∃ w os, Run (UnixDomainSocketUdpServer.Step false) unixWorker
        [.advance, .advance, .recvfrom (fullDatagram 97)] os w ∧
      ∃ n ∈ os.flatMap UdpObs.notification, ¬ (ListenerCall.notified n).Terminated := by
  have hbegun : ∃ w, Run (UnixDomainSocketUdpServer.Step false) unixWorker
      [.advance, .advance] [] w ∧ w.pc = .recv ∧ w.server.m_client_list = [] :=
    ⟨_, run_guarded_of_exec rfl, rfl, rfl⟩
  obtain ⟨w, hrun, hpc, hlist⟩ := hbegun
  have hl : (fullDatagram 97).Legal .unix w := by
    refine ⟨?_, by decide, by rw [hlist]; exact List.not_mem_nil⟩
    rintro _ ⟨⟩
    exact ⟨by decide, List.length_replicate.le⟩
  obtain ⟨w', o, hcomm⟩ : ∃ w' o, communication .unix false w (fullDatagram 97) = some (w', o) :=
    (communication_isSome_iff hl).mpr fun _ _ => rfl
  have hstep : UnixDomainSocketUdpServer.Step false w (.recvfrom (fullDatagram 97)) w' o :=
    ⟨hl, by rw [UdpWorker.next, if_pos hpc, hcomm]⟩
  refine ⟨w', _, hrun.step hstep, ?_⟩
  by_contra! hall
  have hbs := (UdpWorker.terminated_iff (hrun.step hstep)).mp hall (List.replicate 2048 97)
    (.head _)
  rcases hbs with hlt | hmem
  · rw [List.length_replicate] at hlt
    exact absurd hlt (by decide)
  · exact absurd (List.eq_of_mem_replicate hmem) (by decide)

end AnyServer
