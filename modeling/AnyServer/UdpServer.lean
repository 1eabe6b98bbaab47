import AnyServer.Library.CString
import AnyServer.Library.Lts
import AnyServer.ClientRegistry

/-!
# The UDP Servers' Worker

`InetDomainSocketUdpServer` and `UnixDomainSocketUdpServer` run one loop,
`__communication_thread__`: receive a datagram, register a client with the sender's
address, report connect, data and disconnect, and forget the client again. A listener may
answer from inside `onReceive`, when the client is registered.

The sender's address lives in `clientaddr`, a local variable outside the loop, and its size
in `clientlen`, which `recvfrom` takes as the room there is and overwrites with the size of
the address. Neither is set again inside the loop, so each datagram finds them as the one
before has left them.

`SockAddr` are the addresses a sender can have and `SockAddr.raw` their bytes as `recvfrom`
delivers them; a sender without an address is `none`. `destination` is how `sendto` reads
the bytes that it is given.

The two loops differ in the type of `clientaddr`, and in `gethostbyaddr`, whose result the
inet loop reads in a debug build without looking whether it is null.

## Main results

* `communication_effect`: what one pass of the loop does.
* `UdpWorker.Step`: the worker, one pass at a time.
* `UdpWorker.Step.effect`: what a step does, by its input.
-/

namespace AnyServer

/-! ### Addresses -/

/-- The two classes that share the loop. -/
inductive UdpKind
  | inet
  | unix
  deriving DecidableEq, Repr

/-- The size of `clientaddr`, a `sockaddr_in` or a `sockaddr_un`. -/
def UdpKind.sizeofAddr : UdpKind → ℕ
  | .inet => 16
  | .unix => 110

/-- The address of a socket: address and port, or the path or the abstract name that a unix
socket is bound to. -/
inductive SockAddr
  | inet (sin_port sin_addr : Bytes)
  | path (sun_path : Bytes)
  | abstract_ (name : Bytes)
  deriving DecidableEq, Repr

/-- The addresses there are. A path ends at its first NUL and may fill `sun_path`. -/
def SockAddr.WellFormed : SockAddr → Prop
  | .inet sin_port sin_addr => sin_port.length = 2 ∧ sin_addr.length = 4
  | .path sun_path => sun_path ≠ [] ∧ 0 ∉ sun_path ∧ sun_path.length ≤ 108
  | .abstract_ name => name.length ≤ 107

instance : DecidablePred SockAddr.WellFormed := fun a => by
  cases a <;> simp only [SockAddr.WellFormed] <;> infer_instance

/-- The bytes of an address as `recvfrom` delivers them: `AF_INET` or `AF_UNIX`, then what
follows it; a path comes with its NUL, an abstract name after a leading NUL. -/
def SockAddr.raw : SockAddr → Bytes
  | .inet sin_port sin_addr => [2, 0] ++ sin_port ++ sin_addr ++ List.replicate 8 0
  | .path sun_path => [1, 0] ++ (sun_path ++ [0])
  | .abstract_ name => [1, 0] ++ (0 :: name)

/-- The kind of socket that can send to a server of this kind. -/
def SockAddr.kind : SockAddr → UdpKind
  | .inet _ _ => .inet
  | .path _ => .unix
  | .abstract_ _ => .unix

/-- The bytes that `recvfrom` delivers for a sender, none for a socket that is not bound. -/
def senderRaw : Option SockAddr → Bytes
  | none => []
  | some a => a.raw

/-- The socket that `sendto` takes an address of full size for; `none` is an address that it
refuses. A unix address names a path up to its first NUL, or with a leading NUL the abstract
name that fills the rest. -/
def destination (kind : UdpKind) (addr : Bytes) : Option SockAddr :=
  match kind with
  | .inet =>
      if addr.take 2 = [2, 0] then
        some (.inet ((addr.drop 2).take 2) ((addr.drop 4).take 4))
      else none
  | .unix =>
      if addr.take 2 = [1, 0] then
        let sun_path := addr.drop 2
        if sun_path.head? = some 0 then some (.abstract_ (sun_path.drop 1))
        else some (.path (CString.read 0 sun_path))
      else none

/-! ### The worker -/

/-- What the loop and `sendToClient` read and write of their server. -/
structure UdpServer where
  m_server_id : ℕ
  m_server_fd : ℤ
  m_run_thread : Bool
  m_client_list : List UdpClientInfo
  deriving DecidableEq, Repr

/-- `InetDomainSocketUdpServer::sendToClient` and `UnixDomainSocketUdpServer::sendToClient`;
`sendto` is the result of that call. The result is `none` where the source goes through a
null client. -/
def UdpServer.sendToClient (server : UdpServer) (client_id : ℕ) (msg : Bytes) (sendto : ℤ) :
    Option (Bool × List Write) := do
  let client ← findClientInfo server.m_client_list client_id
  let call := Write.sendto server.m_server_fd msg client.m_sockaddr
  if 0 > sendto then some (false, [call]) else some (true, [call])

/-- Where `__communication_thread__` is. -/
inductive UdpPc
  | entry
  | test
  | recv
  | left
  deriving DecidableEq, Repr

/-- A worker of a datagram server, with the local variables that it keeps from pass to pass. -/
structure UdpWorker where
  server : UdpServer
  clientaddr : Bytes
  clientlen : ℕ
  pc : UdpPc
  deriving DecidableEq, Repr

/-- The results of the calls that one pass makes: `recvfrom`, where `none` is `-1` and
otherwise there is a sender and the bytes received; whether `gethostbyaddr` finds a host;
the address of the client object; and the answers that listeners give from inside
`onReceive`, each with the result of its `sendto`. -/
structure RecvResults where
  recvfrom : Option (Option SockAddr × Bytes)
  hostp : Bool
  m_client_id : ℕ
  replies : List (Bytes × ℤ)
  deriving DecidableEq, Repr

/-- What can be seen of the worker: its notifications, the client made for a datagram with
the datagram's sender, and the answers sent from inside `onReceive`. -/
inductive UdpObs
  | notify (n : Notification)
  | registered (sender : Option SockAddr) (m_sockaddr : Bytes)
  | replied (sender : Option SockAddr) (w : Write)
  deriving DecidableEq, Repr

/-- The notification that is observed, if it is one. -/
def UdpObs.notification : UdpObs → List Notification
  | .notify n => [n]
  | .registered _ _ => []
  | .replied _ _ => []

/-- The answers given from inside `onReceive`, as calls of `sendToClient`. -/
def sendReplies (server : UdpServer) (client_id : ℕ) (replies : List (Bytes × ℤ)) :
    Option (List Write) :=
  match replies with
  | [] => some []
  | (msg, sendto) :: rest => do
      let r ← server.sendToClient client_id msg sendto
      let writes ← sendReplies server client_id rest
      some (r.2 ++ writes)

/-- What `recvfrom` leaves behind. -/
structure Received where
  clientaddr : Bytes
  clientlen : ℕ
  buffer : Bytes
  readn : ℤ
  deriving DecidableEq, Repr

/-- `memset` and `recvfrom`, which copies the sender's address to `clientaddr` as far as the
length passed to it allows. A failed call leaves address and length as they were. -/
def UdpWorker.recvfrom (w : UdpWorker) : Option (Option SockAddr × Bytes) → Received
  | none =>
      { clientaddr := w.clientaddr, clientlen := w.clientlen,
        buffer := List.replicate 2048 0, readn := -1 }
  | some (sender, bs) =>
      { clientaddr := CString.copyInto w.clientaddr w.clientlen (senderRaw sender),
        clientlen := (senderRaw sender).length,
        buffer := bs ++ List.replicate (2048 - bs.length) 0, readn := bs.length }

/-- The body of the loop of `__communication_thread__`. The result is `none` where the
source goes through a null pointer: `hostp` in a debug build. `readn` reaches the listeners
as an `unsigned int`. -/
def communication (kind : UdpKind) (debug : Bool) (w : UdpWorker) (r : RecvResults) :
    Option (UdpWorker × List UdpObs) :=
  let received := w.recvfrom r.recvfrom
  let client : UdpClientInfo :=
    { m_tcp := false, m_client_id := r.m_client_id, m_sockaddr := received.clientaddr }
  let added := addClientInfo w.server.m_client_list client
  let server := { w.server with m_client_list := added.1 }
  if kind = .inet ∧ debug = true ∧ r.hostp = false then none
  else do
    let writes ← sendReplies server added.2 r.replies
    let removed := removeClientInfo server.m_client_list added.2
    let sender := (r.recvfrom.map Prod.fst).toList
    some
      ({ server := { server with m_client_list := removed.1 }
         clientaddr := received.clientaddr
         clientlen := received.clientlen
         pc := .test },
        (sender.map fun sender => .registered sender received.clientaddr) ++
          [.notify (.onClientConnected server.m_server_id added.2),
            .notify (.onReceive server.m_server_id added.2 received.buffer
              (received.readn % 2 ^ 32).toNat)] ++
          (sender.flatMap fun sender => writes.map (.replied sender)) ++
          [.notify (.onClientDisconnected server.m_server_id removed.2)])

/-- The promise of `recvfrom` about a sender: it is of the server's kind, and only a unix
socket can be without an address. -/
def LegalSender (kind : UdpKind) : Option SockAddr → Prop
  | none => kind = .unix
  | some a => a.kind = kind ∧ a.WellFormed

instance {kind : UdpKind} : DecidablePred (LegalSender kind) := fun sender => by
  cases sender <;> simp only [LegalSender] <;> infer_instance

/-- The promises of `recvfrom` and of the allocator. -/
abbrev RecvResults.Legal (kind : UdpKind) (w : UdpWorker) (r : RecvResults) : Prop :=
  (∀ received ∈ r.recvfrom, LegalSender kind received.1 ∧ received.2.length ≤ 2048) ∧
    r.m_client_id ≠ 0 ∧ r.m_client_id ∉ clientIds w.server.m_client_list

/-- What drives the worker: a store to `m_run_thread` by another thread, the worker's own
next move, and a pass of the loop. -/
inductive UdpInput
  | store (m_run_thread : Bool)
  | advance
  | recvfrom (r : RecvResults)
  deriving DecidableEq, Repr

/-- `__communication_thread__`, with stores of other threads to the flag in between. -/
def UdpWorker.next (kind : UdpKind) (debug : Bool) (w : UdpWorker) :
    UdpInput → Option (UdpWorker × List UdpObs)
  | .store b => some ({ w with server := { w.server with m_run_thread := b } }, [])
  | .advance =>
      match w.pc with
      | .entry =>
          some ({ w with
            server := { w.server with m_run_thread := true }
            clientlen := kind.sizeofAddr
            pc := .test }, [])
      | .test =>
          if w.server.m_run_thread then some ({ w with pc := .recv }, [])
          else some ({ w with pc := .left }, [])
      | .recv => none
      | .left => none
  | .recvfrom r => if w.pc = .recv then communication kind debug w r else none

/-- An input that kernel and allocator may give. -/
def UdpInput.Legal (kind : UdpKind) (w : UdpWorker) : UdpInput → Prop
  | .recvfrom r => r.Legal kind w
  | _ => True

instance {kind : UdpKind} {w : UdpWorker} : DecidablePred (UdpInput.Legal kind w) := fun i => by
  cases i <;> simp only [UdpInput.Legal] <;> infer_instance

/-- The worker of either class. -/
abbrev UdpWorker.Step (kind : UdpKind) (debug : Bool) : Lts UdpWorker UdpInput UdpObs :=
  Lts.guarded (UdpInput.Legal kind) (UdpWorker.next kind debug)

/-- `InetDomainSocketUdpServer::__communication_thread__`. -/
abbrev InetDomainSocketUdpServer.Step (debug : Bool) : Lts UdpWorker UdpInput UdpObs :=
  UdpWorker.Step .inet debug

/-- `UnixDomainSocketUdpServer::__communication_thread__`. -/
abbrev UnixDomainSocketUdpServer.Step (debug : Bool) : Lts UdpWorker UdpInput UdpObs :=
  UdpWorker.Step .unix debug

/-- A worker that `start` has just created: nothing is known of its local variables. -/
structure UdpWorker.Initial (kind : UdpKind) (w : UdpWorker) : Prop where
  pc : w.pc = .entry
  client_list : w.server.m_client_list = []
  clientaddr : w.clientaddr.length = kind.sizeofAddr

/-! ### What one pass does -/

section

variable {kind : UdpKind} {debug : Bool} {w w' : UdpWorker} {r : RecvResults}
  {o : List UdpObs} {server : UdpServer} {client_id : ℕ} {client : UdpClientInfo}

/-- Every answer goes to the address stored for the client. -/
theorem sendReplies_mem {replies : List (Bytes × ℤ)} {writes : List Write}
    (hc : findClientInfo server.m_client_list client_id = some client)
    (h : sendReplies server client_id replies = some writes) :
    ∀ x ∈ writes, ∃ msg, x = .sendto server.m_server_fd msg client.m_sockaddr := by
  induction replies generalizing writes with
  | nil =>
      obtain rfl : [] = writes := Option.some.inj h
      simp
  | cons m replies ih =>
      obtain ⟨msg, sendto⟩ := m
      simp only [sendReplies, bind, Option.bind_eq_some_iff, Option.some.injEq] at h
      obtain ⟨x, hx, rest, hrest, rfl⟩ := h
      have hx2 : x.2 = [.sendto server.m_server_fd msg client.m_sockaddr] := by
        simp only [UdpServer.sendToClient, hc, bind, Option.bind_some] at hx
        split at hx <;> obtain rfl := Option.some.inj hx <;> rfl
      intro y hy
      rw [hx2] at hy
      rcases List.mem_append.mp hy with hy | hy
      · exact ⟨msg, List.mem_singleton.mp hy⟩
      · exact ih hrest y hy

/-- The client made last is the one that its id finds. -/
theorem findClientInfo_concat {l : List UdpClientInfo} (h : client.m_client_id ∉ clientIds l) :
    findClientInfo (l ++ [client]) client.m_client_id = some client := by
  have hnone : Keyed.find getClientId l client.m_client_id = none :=
    Keyed.find_eq_none_iff.mpr h
  rw [Keyed.find] at hnone
  rw [findClientInfo, Keyed.find, List.find?_append, hnone]
  simp [getClientId]

/-- **What one pass does**, as far as addresses go: the client of a datagram is made with
what then stands in `clientaddr`, and every answer goes there. -/
theorem communication_effect (hl : r.Legal kind w)
    (h : communication kind debug w r = some (w', o)) :
    w'.server.m_server_fd = w.server.m_server_fd ∧ w'.pc = .test ∧
      w'.clientaddr = (w.recvfrom r.recvfrom).clientaddr ∧
      w'.clientlen = (w.recvfrom r.recvfrom).clientlen ∧
      (∀ sender bs, r.recvfrom = some (sender, bs) → .registered sender w'.clientaddr ∈ o) ∧
      ∀ x ∈ o, (∃ n, x = .notify n) ∨
        ∃ sender bs, r.recvfrom = some (sender, bs) ∧
          (x = .registered sender w'.clientaddr ∨
            ∃ fd msg, x = .replied sender (.sendto fd msg w'.clientaddr)) := by
  obtain ⟨-, -, hnew⟩ := hl
  simp only [communication] at h
  split at h
  · cases h
  · simp only [bind, Option.bind_eq_some_iff, Option.some.injEq, Prod.mk.injEq] at h
    obtain ⟨writes, hwrites, rfl, rfl⟩ := h
    let client : UdpClientInfo := ⟨⟨false, r.m_client_id⟩, (w.recvfrom r.recvfrom).clientaddr⟩
    have hfind : findClientInfo (w.server.m_client_list ++ [client]) r.m_client_id =
        some client := findClientInfo_concat hnew
    have hsend := sendReplies_mem hfind hwrites
    refine ⟨rfl, rfl, rfl, rfl, fun sender bs hr => by simp [hr], ?_⟩
    intro x hx
    simp only [List.mem_append, List.mem_map, List.mem_cons, List.not_mem_nil, or_false,
      List.mem_flatMap, Option.mem_toList, Option.map_eq_some_iff, Prod.exists] at hx
    rcases hx with ((⟨sender, ⟨s, bs, hr, rfl⟩, rfl⟩ | rfl | rfl) |
      ⟨sender, ⟨s, bs, hr, rfl⟩, y, hy, rfl⟩) | rfl
    · exact .inr ⟨_, bs, hr, .inl rfl⟩
    · exact .inl ⟨_, rfl⟩
    · exact .inl ⟨_, rfl⟩
    · obtain ⟨msg, rfl⟩ := hsend y hy
      exact .inr ⟨_, bs, hr, .inr ⟨_, msg, rfl⟩⟩
    · exact .inl ⟨_, rfl⟩

/-- A pass makes its three notifications, under the id of the client that it adds and removes
again. -/
theorem communication_notifications (hl : r.Legal kind w)
    (h : communication kind debug w r = some (w', o)) :
    w'.server = w.server ∧ o.flatMap UdpObs.notification =
      [.onClientConnected w.server.m_server_id r.m_client_id,
        .onReceive w.server.m_server_id r.m_client_id (w.recvfrom r.recvfrom).buffer
          ((w.recvfrom r.recvfrom).readn % 2 ^ 32).toNat,
        .onClientDisconnected w.server.m_server_id r.m_client_id] := by
  simp only [communication] at h
  split at h
  · cases h
  · simp only [bind, Option.bind_eq_some_iff, Option.some.injEq, Prod.mk.injEq] at h
    obtain ⟨writes, -, rfl, rfl⟩ := h
    let client : UdpClientInfo := ⟨⟨false, r.m_client_id⟩, (w.recvfrom r.recvfrom).clientaddr⟩
    have hremove : removeClientInfo (w.server.m_client_list ++ [client]) r.m_client_id =
        (w.server.m_client_list, r.m_client_id) := removeClientInfo_concat hl.2.2
    have hid : getClientId client = r.m_client_id := rfl
    simp only [client] at hremove hid
    simp only [addClientInfo_fst, addClientInfo_snd, hid, hremove, true_and]
    -- neither the client made nor the answers are notifications
    cases r.recvfrom <;> simp [List.flatMap_map, UdpObs.notification]

/-! ### What one step does -/

/-- What a step does, by its input. -/
inductive UdpEffect (kind : UdpKind) (debug : Bool) (w : UdpWorker) :
    UdpInput → UdpWorker → List UdpObs → Prop
  | stored (b : Bool) :
      UdpEffect kind debug w (.store b)
        { w with server := { w.server with m_run_thread := b } } []
  | entered (hpc : w.pc = .entry) :
      UdpEffect kind debug w .advance
        { w with
          server := { w.server with m_run_thread := true }
          clientlen := kind.sizeofAddr
          pc := .test } []
  | again (hpc : w.pc = .test) (hrun : w.server.m_run_thread = true) :
      UdpEffect kind debug w .advance { w with pc := .recv } []
  | left (hpc : w.pc = .test) (hrun : w.server.m_run_thread = false) :
      UdpEffect kind debug w .advance { w with pc := .left } []
  | pass {r : RecvResults} {w' : UdpWorker} {o : List UdpObs} (hpc : w.pc = .recv)
      (hl : r.Legal kind w) (h : communication kind debug w r = some (w', o)) :
      UdpEffect kind debug w (.recvfrom r) w' o

/-- What one step of the datagram loop does. -/
theorem UdpWorker.Step.effect {i : UdpInput} (ht : UdpWorker.Step kind debug w i w' o) :
    UdpEffect kind debug w i w' o := by
  obtain ⟨hl, ht⟩ := ht
  cases i with
  | store b =>
      obtain ⟨rfl, rfl⟩ := Prod.mk.inj (Option.some.inj ht)
      exact .stored b
  | advance =>
      simp only [UdpWorker.next] at ht
      split at ht
      · next hpc =>
        obtain ⟨rfl, rfl⟩ := Prod.mk.inj (Option.some.inj ht)
        exact .entered hpc
      · next hpc =>
        split at ht
        · next hrun =>
          obtain ⟨rfl, rfl⟩ := Prod.mk.inj (Option.some.inj ht)
          exact .again hpc hrun
        · next hrun =>
          obtain ⟨rfl, rfl⟩ := Prod.mk.inj (Option.some.inj ht)
          exact .left hpc (by simpa using hrun)
      · cases ht
      · cases ht
  | recvfrom r =>
      simp only [UdpWorker.next, Option.ite_none_right_eq_some] at ht
      exact .pass ht.1 hl ht.2

end

end AnyServer
