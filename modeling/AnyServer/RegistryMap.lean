import AnyServer.Library.Lts
import AnyServer.Library.TwoKeys
import AnyServer.ClientRegistry

/-!
# The Registry as a Map

`BaseServerImpl` searches its list of clients by fd and by id, with a loop for each search and
for each removal. As long as a client is added only with an fd and an id that no client of the
list has, and an id other than `0`, the four loops are one map with two keys.

`ClientMap.Spec` says what the calls of such a map return and leave behind, without a search;
`Registry.Step` are the calls on the list.

## Main results

* `Registry.step_spec`: each call on the list is the call of the map.
* `registry_two_keys`: the same for any sequence of calls, and what the searches and removals do
  after it.
-/

namespace AnyServer

open Lts

/-- A call, by the function called. -/
inductive RegistryCall (C : Type)
  | addClientInfo (client : C)
  | removeClientInfoFd (fd : ℤ)
  | removeClientInfo (client_id : ℕ)
  | findClientInfoFd (fd : ℤ)
  | findClientInfo (client_id : ℕ)
  deriving DecidableEq, Repr

/-- What a call returns: an id, or a client or null. -/
inductive RegistryResult (C : Type)
  | id (client_id : ℕ)
  | client (client : Option C)
  deriving DecidableEq, Repr

section

variable {C : Type} [IsTcpClientInfo C]

/-- The list after a call, and what the call returns. -/
def registryCall (m_client_list : List C) : RegistryCall C → List C × RegistryResult C
  | .addClientInfo client =>
      let r := addClientInfo m_client_list client
      (r.1, .id r.2)
  | .removeClientInfoFd fd =>
      let r := removeClientInfoFd m_client_list fd
      (r.1, .id r.2)
  | .removeClientInfo client_id =>
      let r := removeClientInfo m_client_list client_id
      (r.1, .id r.2)
  | .findClientInfoFd fd => (m_client_list, .client (findClientInfoFd m_client_list fd))
  | .findClientInfo client_id => (m_client_list, .client (findClientInfo m_client_list client_id))

/-- A client is added with an fd and an id that are not in use, and an id other than `0`. -/
def RegistryCall.New (m_client_list : List C) (call : RegistryCall C) : Prop :=
  ∀ client, call = .addClientInfo client →
    (∀ c ∈ m_client_list, getFd c ≠ getFd client) ∧
    (∀ c ∈ m_client_list, getClientId c ≠ getClientId client) ∧ getClientId client ≠ 0

/-- The list, call by call. -/
abbrev Registry.Step : Lts (List C) (RegistryCall C) (RegistryResult C) :=
  Lts.guarded RegistryCall.New fun l call =>
    some ((registryCall l call).1, [(registryCall l call).2])

/-! ### The map -/

/-- Clients by fd and by id. -/
abbrev ClientMap (C : Type) [IsTcpClientInfo C] :=
  TwoKeys (getFd : C → ℤ) (getClientId : C → ℕ)

/-- What a call of the map does. -/
inductive ClientMap.Spec [DecidableEq C] : Lts (ClientMap C) (RegistryCall C) (RegistryResult C)
  | add {m : ClientMap C} (c : C) (hfd : ∀ c' ∈ m.entries, getFd c' ≠ getFd c)
      (hid : ∀ c' ∈ m.entries, getClientId c' ≠ getClientId c) :
      Spec m (.addClientInfo c) (m.insert c hfd hid) [.id (getClientId c)]
  | removeFd {m : ClientMap C} {c : C} (hc : c ∈ m.entries) :
      Spec m (.removeClientInfoFd (getFd c)) (m.erase c) [.id (getClientId c)]
  | removeFdAbsent {m : ClientMap C} (fd : ℤ) (h : ∀ c ∈ m.entries, getFd c ≠ fd) :
      Spec m (.removeClientInfoFd fd) m [.id 0]
  | remove {m : ClientMap C} {c : C} (hc : c ∈ m.entries) :
      Spec m (.removeClientInfo (getClientId c)) (m.erase c) [.id (getClientId c)]
  | removeAbsent {m : ClientMap C} (client_id : ℕ)
      (h : ∀ c ∈ m.entries, getClientId c ≠ client_id) :
      Spec m (.removeClientInfo client_id) m [.id 0]
  | findFd {m : ClientMap C} {c : C} (hc : c ∈ m.entries) :
      Spec m (.findClientInfoFd (getFd c)) m [.client (some c)]
  | findFdAbsent {m : ClientMap C} (fd : ℤ) (h : ∀ c ∈ m.entries, getFd c ≠ fd) :
      Spec m (.findClientInfoFd fd) m [.client none]
  | find {m : ClientMap C} {c : C} (hc : c ∈ m.entries) :
      Spec m (.findClientInfo (getClientId c)) m [.client (some c)]
  | findAbsent {m : ClientMap C} (client_id : ℕ)
      (h : ∀ c ∈ m.entries, getClientId c ≠ client_id) :
      Spec m (.findClientInfo client_id) m [.client none]

/-! ### The calls on a list with two keys -/

variable [DecidableEq C] {m : ClientMap C} {c : C} {l l' : List C}
  {call : RegistryCall C} {o : List (RegistryResult C)} {calls : List (RegistryCall C)}
  {os : List (RegistryResult C)}

/-- Removal by fd. -/
theorem ClientMap.removeClientInfoFd_eq (hc : c ∈ m.entries) :
    removeClientInfoFd m.entries (getFd c) = ((m.erase c).entries, getClientId c) := by
  rw [removeClientInfoFd, TwoKeys.find_fst hc]
  exact congrArg (·, getClientId c) (TwoKeys.remove_snd hc)

/-- Removal by id. -/
theorem ClientMap.removeClientInfo_eq (hc : c ∈ m.entries) :
    removeClientInfo m.entries (getClientId c) = ((m.erase c).entries, getClientId c) := by
  rw [removeClientInfo, TwoKeys.find_snd hc]
  exact congrArg (·, getClientId c) (TwoKeys.remove_snd hc)

/-- **One call** on the list is a call of the map. -/
theorem Registry.step_spec (ht : Registry.Step m.entries call l' o) :
    ∃ m' : ClientMap C, m'.entries = l' ∧ ClientMap.Spec m call m' o := by
  obtain ⟨hnew, ht⟩ := ht
  obtain ⟨rfl, rfl⟩ := Prod.mk.inj (Option.some.inj ht)
  cases call with
  | addClientInfo c =>
      obtain ⟨hfd, hid, -⟩ := hnew c rfl
      exact ⟨m.insert c hfd hid, rfl, .add c hfd hid⟩
  | removeClientInfoFd fd =>
      by_cases hfd : fd ∈ clientFds m.entries
      · obtain ⟨c, hc, rfl⟩ := List.mem_map.mp hfd
        simp only [registryCall, ClientMap.removeClientInfoFd_eq hc]
        exact ⟨m.erase c, rfl, .removeFd hc⟩
      · simp only [registryCall, removeClientInfoFd_absent hfd]
        exact ⟨m, rfl, .removeFdAbsent fd (not_mem_clientFds_iff.mp hfd)⟩
  | removeClientInfo client_id =>
      by_cases hid : client_id ∈ clientIds m.entries
      · obtain ⟨c, hc, rfl⟩ := List.mem_map.mp hid
        simp only [registryCall, ClientMap.removeClientInfo_eq hc]
        exact ⟨m.erase c, rfl, .remove hc⟩
      · simp only [registryCall, removeClientInfo_absent hid]
        exact ⟨m, rfl, .removeAbsent client_id (not_mem_clientIds_iff.mp hid)⟩
  | findClientInfoFd fd =>
      by_cases hfd : fd ∈ clientFds m.entries
      · obtain ⟨c, hc, rfl⟩ := List.mem_map.mp hfd
        have hfind : findClientInfoFd m.entries (getFd c) = some c := TwoKeys.find_fst hc
        simp only [registryCall, hfind]
        exact ⟨m, rfl, .findFd hc⟩
      · simp only [registryCall, findClientInfoFd_absent hfd]
        exact ⟨m, rfl, .findFdAbsent fd (not_mem_clientFds_iff.mp hfd)⟩
  | findClientInfo client_id =>
      by_cases hid : client_id ∈ clientIds m.entries
      · obtain ⟨c, hc, rfl⟩ := List.mem_map.mp hid
        have hfind : findClientInfo m.entries (getClientId c) = some c := TwoKeys.find_snd hc
        simp only [registryCall, hfind]
        exact ⟨m, rfl, .find hc⟩
      · simp only [registryCall, findClientInfo_absent hid]
        exact ⟨m, rfl, .findAbsent client_id (not_mem_clientIds_iff.mp hid)⟩

/-- **A whole run.** -/
theorem Registry.run_spec (h : Run Registry.Step [] calls os l) :
    ∃ m : ClientMap C, m.entries = l ∧ Run ClientMap.Spec .empty calls os m := by
  induction h with
  | start => exact ⟨.empty, rfl, .start⟩
  | step _ ht ih =>
      obtain ⟨m, rfl, hrun⟩ := ih
      obtain ⟨m', rfl, hspec⟩ := Registry.step_spec ht
      exact ⟨m', rfl, hrun.step hspec⟩

/-- **The registry is one map with two keys.** Any sequence of calls on the empty list, with new
clients only, returns what the map returns and leaves its entries; and then a client is found
and removed alike by its fd and by its id, while an absent key finds and removes nothing. -/
theorem registry_two_keys (h : Run Registry.Step [] calls os l) :
    (∃ m : ClientMap C, m.entries = l ∧ Run ClientMap.Spec .empty calls os m) ∧
    (∀ c ∈ l, findClientInfoFd l (getFd c) = some c ∧
      findClientInfo l (getClientId c) = some c ∧
      removeClientInfoFd l (getFd c) = (l.erase c, getClientId c) ∧
      removeClientInfo l (getClientId c) = (l.erase c, getClientId c)) ∧
    (∀ fd, (∀ c ∈ l, getFd c ≠ fd) →
      findClientInfoFd l fd = none ∧ removeClientInfoFd l fd = (l, 0)) ∧
    ∀ client_id, (∀ c ∈ l, getClientId c ≠ client_id) →
      findClientInfo l client_id = none ∧ removeClientInfo l client_id = (l, 0) := by
  obtain ⟨m, rfl, hrun⟩ := Registry.run_spec h
  refine ⟨⟨m, rfl, hrun⟩, fun c hc => ?_, fun fd hfd => ?_, fun client_id hid => ?_⟩
  · exact ⟨TwoKeys.find_fst hc, TwoKeys.find_snd hc, ClientMap.removeClientInfoFd_eq hc,
      ClientMap.removeClientInfo_eq hc⟩
  · have hfd := not_mem_clientFds_iff.mpr hfd
    exact ⟨findClientInfoFd_absent hfd, removeClientInfoFd_absent hfd⟩
  · have hid := not_mem_clientIds_iff.mpr hid
    exact ⟨findClientInfo_absent hid, removeClientInfo_absent hid⟩

end

/-! ### Two clients -/

/-- A client with the id `16` on fd 5. -/
def clientOnFd5 : TcpClientInfo :=
  ⟨⟨true, 16⟩, 5⟩

/-- A client with the id `32` on fd 6. -/
def clientOnFd6 : TcpClientInfo :=
  ⟨⟨true, 32⟩, 6⟩

/-- Both are added, and the first one is removed by its fd. -/
def twoTcpClients : List (RegistryCall TcpClientInfo) :=
  [.addClientInfo clientOnFd5, .addClientInfo clientOnFd6, .removeClientInfoFd 5]

/-- The ids that these calls return, and the client that is left. -/
theorem run_twoTcpClients :
    Run Registry.Step [] twoTcpClients [.id 16, .id 32, .id 16] [clientOnFd6] := by
  have h₁ : Registry.Step [] (.addClientInfo clientOnFd5) [clientOnFd5] [.id 16] := by
    refine ⟨fun c hc => ?_, rfl⟩
    cases hc
    decide
  have h₂ : Registry.Step [clientOnFd5] (.addClientInfo clientOnFd6)
      [clientOnFd5, clientOnFd6] [.id 32] := by
    refine ⟨fun c hc => ?_, rfl⟩
    cases hc
    decide
  have h₃ : Registry.Step [clientOnFd5, clientOnFd6] (.removeClientInfoFd 5) [clientOnFd6]
      [.id 16] :=
    ⟨fun _ hc => (by cases hc), rfl⟩
  exact ((Run.start.step h₁).step h₂).step h₃

/-- The list of these two is the map of the same calls. -/
theorem registry_two_keys_twoTcpClients :
    Run Registry.Step [] twoTcpClients [.id 16, .id 32, .id 16] [clientOnFd6] ∧
    (∃ m : ClientMap TcpClientInfo, m.entries = [clientOnFd6] ∧
      Run ClientMap.Spec .empty twoTcpClients [.id 16, .id 32, .id 16] m) ∧
    (∀ c ∈ [clientOnFd6], findClientInfoFd [clientOnFd6] (getFd c) = some c ∧
      findClientInfo [clientOnFd6] (getClientId c) = some c ∧
      removeClientInfoFd [clientOnFd6] (getFd c) = ([clientOnFd6].erase c, getClientId c) ∧
      removeClientInfo [clientOnFd6] (getClientId c) =
        ([clientOnFd6].erase c, getClientId c)) ∧
    (∀ fd, (∀ c ∈ [clientOnFd6], getFd c ≠ fd) →
      findClientInfoFd [clientOnFd6] fd = none ∧
      removeClientInfoFd [clientOnFd6] fd = ([clientOnFd6], 0)) ∧
    ∀ client_id, (∀ c ∈ [clientOnFd6], getClientId c ≠ client_id) →
      findClientInfo [clientOnFd6] client_id = none ∧
      removeClientInfo [clientOnFd6] client_id = ([clientOnFd6], 0) :=
  ⟨run_twoTcpClients, registry_two_keys run_twoTcpClients⟩

end AnyServer
