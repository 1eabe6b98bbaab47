import AnyServer.UdpServer

/-!
# Answers to Datagrams

Whether an answer reaches the sender of a datagram is decided by what stands in
`clientaddr` after `recvfrom`, and there the two UDP servers part. An inet address always
has the size of the variable, so `recvfrom` always finds room for it and overwrites all of
it. A unix address has the size of its path, and as `clientlen` is not set again, the
address of the next sender is cut off there: what comes after is what the sender before has
left.

So a unix address is stored right exactly if the bytes that were cut off are there already,
and that is a condition on the state that the datagram finds, `SenderStored`. An abstract
name shorter than `sun_path` is never stored right, since `sendToClient` passes the whole
variable on, and a sender without an address leaves the one before in place.

## Main results

* `destination_eq_some_iff`: the bytes that `sendto` takes for a given address.
* `destination_recvfrom_iff`: when a datagram's sender is the destination of the answer.
* `udp_sender_stored_iff`: over whole runs, the inet server always has the sender's address,
  and the unix server has it exactly if every datagram meets `SenderStored`.
-/

namespace AnyServer

open Lts

/-! ### How `sendto` reads an address -/

/-- The addresses that survive `sendToClient`, which passes the whole variable on. -/
def SockAddr.Storable : SockAddr → Prop
  | .abstract_ name => name.length = 107
  | _ => True

section Destination

variable {addr : Bytes} {a : SockAddr}

/-- The family and the rest of an address. -/
theorem take_two_append {m : ℕ} (h : addr.length = m + 2) :
    ∃ x y rest, addr = [x, y] ++ rest ∧ rest.length = m := by
  match addr, h with
  | x :: y :: rest, h => exact ⟨x, y, rest, rfl, by simpa using h⟩

/-- **What `sendto` takes for a unix address**: the bytes of the address, as far as the
variable holds them. -/
theorem destination_eq_some_iff (hlen : addr.length = 110) (hk : a.kind = .unix)
    (hwf : a.WellFormed) :
    destination .unix addr = some a ↔ a.Storable ∧ a.raw.take 110 <+: addr := by
  obtain ⟨x, y, rest, rfl, hrest⟩ := take_two_append hlen
  have hfamily : ∀ bs : Bytes, ([1, 0] ++ bs).take 110 <+: [x, y] ++ rest ↔
      [x, y] = [1, 0] ∧ bs.take 108 <+: rest := by
    intro bs
    simp [List.cons_prefix_cons, eq_comm, and_assoc]
  cases a with
  | inet sin_port sin_addr => simp [SockAddr.kind] at hk
  | path sun_path =>
      obtain ⟨hne, h0, hle⟩ := hwf
      have hread : CString.read 0 rest = sun_path ↔
          (sun_path ++ [0]).take rest.length <+: rest := CString.read_eq_iff h0 (by omega)
      rw [SockAddr.raw, hfamily, ← hrest, ← hread]
      simp only [destination, SockAddr.Storable, true_and]
      by_cases hf : [x, y] = [1, 0]
      · rw [if_pos (by simpa using hf)]
        cases hrest : rest with
        | nil => simp [CString.read, hf, hne.symm]
        | cons b t =>
            by_cases hb : b = 0
            · simp [hb, CString.read, hf, hne.symm]
            · simp [hb, hf]
      · rw [if_neg (by simpa using hf)]
        simp [hf]
  | abstract_ name =>
      have hle : name.length ≤ 107 := hwf
      rw [SockAddr.raw, hfamily]
      simp only [destination, SockAddr.Storable]
      by_cases hf : [x, y] = [1, 0]
      · rw [if_pos (by simpa using hf)]
        cases hr : rest with
        | nil => simp [hr] at hrest
        | cons b t =>
            have ht : t.length = 107 := by simpa [hr] using hrest
            have htake : (0 :: name).take 108 = 0 :: name :=
              List.take_of_length_le (by rw [List.length_cons]; omega)
            rw [htake, List.cons_prefix_cons]
            by_cases hb : b = 0
            · subst hb
              simp only [List.drop_append, hf]
              constructor
              · intro h
                obtain rfl : t = name := by simpa using h
                exact ⟨ht, trivial, trivial, List.prefix_refl _⟩
              · rintro ⟨hlen, -, -, hpre⟩
                obtain rfl := hpre.eq_of_length (by omega)
                simp
            · simp [hb, Ne.symm hb]
      · rw [if_neg (by simpa using hf)]
        simp [hf]

/-- An inet address is read back as it is. -/
theorem destination_raw_inet (hk : a.kind = .inet) (hwf : a.WellFormed) :
    destination .inet a.raw = some a := by
  cases a with
  | inet sin_port sin_addr =>
      obtain ⟨hport, haddr⟩ := hwf
      obtain ⟨p, q, rest, rfl, hp⟩ := take_two_append (m := 0) hport
      obtain ⟨b, c, rest', rfl, hb⟩ := take_two_append (m := 2) haddr
      obtain ⟨d, e, rest'', rfl, hd⟩ := take_two_append (m := 0) hb
      obtain rfl := List.length_eq_zero_iff.mp hp
      obtain rfl := List.length_eq_zero_iff.mp hd
      rfl
  | path _ | abstract_ _ => simp [SockAddr.kind] at hk

/-- An INET address has sixteen bytes. -/
theorem length_raw_inet (hk : a.kind = .inet) (hwf : a.WellFormed) : a.raw.length = 16 := by
  cases a with
  | inet sin_port sin_addr =>
      obtain ⟨hport, haddr⟩ := hwf
      simp [SockAddr.raw, hport, haddr]
  | path _ | abstract_ _ => simp [SockAddr.kind] at hk

end Destination

/-! ### What a datagram finds -/

/-- The variables `clientaddr` and `clientlen` are such that the sender's address will be
stored right: the bytes of it that do not fit into `clientlen` are in their place already,
or for a sender without an address, no address is. -/
def UdpWorker.Stores (w : UdpWorker) : Option SockAddr → Prop
  | none => w.clientaddr.take 2 ≠ [1, 0]
  | some a =>
      a.Storable ∧ (a.raw.take w.clientaddr.length).drop w.clientlen <+:
        w.clientaddr.drop w.clientlen

/-- A pass that receives a datagram finds room for its sender's address. -/
def SenderStored (w : UdpWorker) : UdpInput → Prop
  | .recvfrom r => ∀ sender bs, r.recvfrom = some (sender, bs) → w.Stores sender
  | _ => True

/-- An observation is as it should be: the client made for a datagram has the address of its
sender, and an answer goes to the sender or fails. -/
def UdpObs.ToSender (kind : UdpKind) : UdpObs → Prop
  | .notify _ => True
  | .registered sender m_sockaddr => destination kind m_sockaddr = sender
  | .replied sender w => ∃ fd msg m_sockaddr, w = .sendto fd msg m_sockaddr ∧
      (destination kind m_sockaddr = none ∨ destination kind m_sockaddr = sender)

section Runs

variable {kind : UdpKind} {debug : Bool} {w₀ w w' : UdpWorker} {is : List UdpInput}
  {i : UdpInput} {os o : List UdpObs} {r : RecvResults} {sender : Option SockAddr} {bs : Bytes}

/-- **When a unix sender's address is stored right.** -/
theorem destination_recvfrom_iff (hlen : w.clientaddr.length = 110) (hl : r.Legal .unix w)
    (hr : r.recvfrom = some (sender, bs)) :
    destination .unix (w.recvfrom r.recvfrom).clientaddr = sender ↔ w.Stores sender := by
  rw [hr]
  simp only [UdpWorker.recvfrom, UdpWorker.Stores]
  cases sender with
  | none =>
      simp only [senderRaw, CString.copyInto_nil, destination]
      by_cases hf : w.clientaddr.take 2 = [1, 0]
      · rw [if_pos hf]
        split <;> simp [hf]
      · rw [if_neg hf]
        simp [hf]
  | some a =>
      obtain ⟨hk, hwf⟩ := hl.1 _ hr |>.1
      rw [destination_eq_some_iff (by rw [CString.length_copyInto, hlen]) hk hwf]
      have hpre : a.raw.take w.clientaddr.length <+:
          CString.copyInto w.clientaddr w.clientlen a.raw ↔
            (a.raw.take w.clientaddr.length).drop w.clientlen <+: w.clientaddr.drop w.clientlen :=
        CString.take_prefix_copyInto_iff
      rw [hlen] at hpre ⊢
      exact and_congr_right fun _ => hpre

/-- An inet sender's address is always stored right. -/
theorem destination_recvfrom_inet (hlen : w.clientaddr.length = 16) (hroom : w.clientlen = 16)
    (hl : r.Legal .inet w) (hr : r.recvfrom = some (sender, bs)) :
    destination .inet (w.recvfrom r.recvfrom).clientaddr = sender := by
  cases sender with
  | none => cases (hl.1 _ hr).1
  | some a =>
      obtain ⟨hk, hwf⟩ := hl.1 _ hr |>.1
      have hraw := length_raw_inet hk hwf
      have hcopy : CString.copyInto w.clientaddr w.clientlen a.raw = a.raw :=
        CString.copyInto_full (by omega) (by omega)
      rw [hr]
      simp only [UdpWorker.recvfrom, senderRaw, hcopy]
      exact destination_raw_inet hk hwf

/-- What is observed of one pass is as it should be exactly if the client of its datagram
has the address of the sender. -/
theorem toSender_iff (hl : r.Legal kind w) (h : communication kind debug w r = some (w', o)) :
    (∀ x ∈ o, x.ToSender kind) ↔ ∀ sender bs, r.recvfrom = some (sender, bs) →
      destination kind (w.recvfrom r.recvfrom).clientaddr = sender := by
  obtain ⟨-, -, haddr, -, hreg, hobs⟩ := communication_effect hl h
  rw [← haddr]
  constructor
  · intro hall sender bs hr
    exact hall _ (hreg sender bs hr)
  · intro hdest x hx
    rcases hobs x hx with ⟨n, rfl⟩ | ⟨sender, bs, hr, rfl | ⟨fd, msg, rfl⟩⟩
    · trivial
    · exact hdest sender bs hr
    · exact ⟨fd, msg, w'.clientaddr, rfl, .inr (hdest sender bs hr)⟩

/-- The variable keeps its size; and as long as only inet addresses are stored, so does
`clientlen`. -/
structure UdpWorker.Sized (kind : UdpKind) (w : UdpWorker) : Prop where
  clientaddr : w.clientaddr.length = kind.sizeofAddr
  clientlen : kind = .inet → w.pc ≠ .entry → w.clientlen = 16

/-- Each step keeps these sizes. -/
theorem UdpWorker.Sized.step (hw : w.Sized kind) (ht : UdpWorker.Step kind debug w i w' o) :
    w'.Sized kind := by
  obtain ⟨hlen, hroom⟩ := hw
  cases ht.effect with
  | stored b => exact ⟨hlen, hroom⟩
  | entered _ => exact ⟨hlen, fun hk _ => by rw [hk]; rfl⟩
  | again hpc _ | left hpc _ => exact ⟨hlen, fun hk _ => hroom hk (by simp [hpc])⟩
  | @pass r _ _ hpc hl hcomm =>
      obtain ⟨-, -, haddr, hlen', -, -⟩ := communication_effect hl hcomm
      have h16 := fun hk => hroom hk (by simp [hpc])
      constructor
      · rw [haddr, ← hlen]
        cases hr : r.recvfrom with
        | none => rfl
        | some p => exact CString.length_copyInto
      · intro hk _
        rw [hlen']
        cases hr : r.recvfrom with
        | none => exact h16 hk
        | some p =>
            obtain ⟨sender, bs⟩ := p
            cases sender with
            | none =>
                rw [(hl.1 _ hr).1] at hk
                cases hk
            | some a =>
                obtain ⟨hka, hwf⟩ := hl.1 _ hr |>.1
                exact length_raw_inet (hka.trans hk) hwf

/-- They are the sizes in every state of a run. -/
theorem UdpWorker.sized_run (h₀ : w₀.Initial kind)
    (h : Run (UdpWorker.Step kind debug) w₀ is os w) : w.Sized kind := by
  refine h.invariant (P := fun _ _ w => w.Sized kind) ?_ fun _ hw ht => hw.step ht
  exact ⟨h₀.clientaddr, fun _ hpc => absurd h₀.pc hpc⟩

/-- **When answers go to the sender.** The inet server stores every sender's address and
answers to it. The unix server does so exactly if every datagram finds the bytes of its
sender's address that do not fit into `clientlen` in their place. -/
theorem udp_sender_stored_iff (debug : Bool) :
    (∀ w₀ is os w, w₀.Initial .inet →
      Run (InetDomainSocketUdpServer.Step debug) w₀ is os w → ∀ x ∈ os, x.ToSender .inet) ∧
    (∀ w₀ is os w, w₀.Initial .unix →
      Run (UnixDomainSocketUdpServer.Step debug) w₀ is os w →
        ((∀ x ∈ os, x.ToSender .unix) ↔
          Along (UnixDomainSocketUdpServer.Step debug) SenderStored w₀ is)) := by
  constructor
  · intro w₀ is os w h₀ h
    refine h.invariant (P := fun _ os _ => ∀ x ∈ os, x.ToSender .inet) (by simp) ?_
    intro is os w i w' o hrun ih ht
    refine List.forall_mem_append.mpr ⟨ih, ?_⟩
    cases ht.effect with
    | stored _ | entered _ | again _ _ | left _ _ => simp
    | pass hpc hl hcomm =>
        have hsized := UdpWorker.sized_run h₀ hrun
        exact (toSender_iff hl hcomm).mpr fun sender bs hr =>
          destination_recvfrom_inet hsized.clientaddr (hsized.clientlen rfl (by simp [hpc])) hl hr
  · intro w₀ is os w h₀ h
    refine h.forall_iff_along deterministic_guarded ?_
    intro is os w i w' o hrun ht
    cases ht.effect with
    | stored _ | entered _ | again _ _ | left _ _ => simp [SenderStored]
    | pass hpc hl hcomm =>
        have hlen := (UdpWorker.sized_run h₀ hrun).clientaddr
        rw [toSender_iff hl hcomm]
        exact forall_congr' fun sender => forall_congr' fun bs => forall_congr' fun hr =>
          destination_recvfrom_iff hlen hl hr

end Runs

/-! ### Two senders -/

/-- A worker of a unix server with cleared variables. -/
def unixWorker : UdpWorker :=
  { server := { m_server_id := 1, m_server_fd := 3, m_run_thread := false,
                m_client_list := [] }
    clientaddr := List.replicate 110 0
    clientlen := 0
    pc := .entry }

/-- The worker has received nothing. -/
theorem unixWorker_initial : unixWorker.Initial .unix := by
  constructor <;> rfl

/-- A datagram of one byte from a socket with this path, answered with one byte. -/
def datagramFrom (sun_path : Bytes) : RecvResults :=
  { recvfrom := some (some (.path sun_path), [7]), hostp := true, m_client_id := 16,
    replies := [([8], 1)] }

/-- A datagram from `/a`. -/
def firstSender : List UdpInput :=
  [.advance, .advance, .recvfrom (datagramFrom [47, 97])]

/-- A datagram from `/b` after it. -/
def twoSenders : List UdpInput :=
  firstSender ++ [.advance, .recvfrom (datagramFrom [47, 98])]

/-- Both senders have paths of one length, and both get their answers. -/
theorem udp_sender_stored_iff_twoSenders :
    ∃ os w, Run (UnixDomainSocketUdpServer.Step false) unixWorker twoSenders os w ∧
      .registered (some (.path [47, 98])) ([1, 0, 47, 98] ++ List.replicate 106 0) ∈ os ∧
      ∀ x ∈ os, x.ToSender .unix := by
  have hrun : Run (UnixDomainSocketUdpServer.Step false) unixWorker twoSenders _ _ :=
    run_guarded_of_exec rfl
  refine ⟨_, _, hrun, by decide,
    ((udp_sender_stored_iff false).2 _ _ _ _ unixWorker_initial hrun).mpr ?_⟩
  have hT : Deterministic (UnixDomainSocketUdpServer.Step false) := deterministic_guarded
  refine .cons hT ⟨by decide, rfl⟩ trivial (.cons hT ⟨by decide, rfl⟩ trivial (.cons hT
    ⟨by decide, rfl⟩ ?_ (.cons hT ⟨by decide, rfl⟩ trivial (.cons hT ⟨by decide, rfl⟩ ?_
    along_nil))))
  · rintro sender bs ⟨⟩
    exact ⟨trivial, by decide⟩
  · rintro sender bs ⟨⟩
    exact ⟨trivial, by decide⟩

/-- The answer to a datagram from `/abc` that follows one from `/a` goes to `/ab`. -/
theorem secondSender_misdirected :
    ∃ os w m_sockaddr, Run (UnixDomainSocketUdpServer.Step false) unixWorker
        (firstSender ++ [.advance, .recvfrom (datagramFrom [47, 97, 98, 99])]) os w ∧
      .replied (some (.path [47, 97, 98, 99])) (.sendto 3 [8] m_sockaddr) ∈ os ∧
      destination .unix m_sockaddr = some (.path [47, 97, 98]) := by
  refine ⟨_, _, [1, 0, 47, 97, 98] ++ List.replicate 105 0, run_guarded_of_exec rfl, ?_, ?_⟩ <;>
    decide

end AnyServer
