import Mathlib.Algebra.Group.Int.Defs
import Mathlib.Algebra.Group.Nat.Defs
import Mathlib.Data.Int.Notation
import AnyServer.Library.Keyed
import AnyServer.Library.Session

/-!
# The Client Registry and the Listener Interface

Every server derives from `BaseServerImpl`, which keeps its clients in the linked list
`m_client_list` and reports what happens to them through `IBaseServerListener`. This
module models that base: the client records, the four search loops over the list, and the
calls a listener receives.

The list holds `ClientInfoPtr`, pointers to objects of some subclass of `ClientInfo`. An
object's id is `hash<size_t*>()(&m_client_id)`, which is the address of its own member, so
two live objects have the same id exactly when they are the same object, and the id is
never `0`. `m_client_list.remove(*it)` drops every pointer equal to `*it`; in the model
that is every record with that id.

The `removeClientInfo` and `findClientInfo` of the source are overloaded on the type of the
key; here the ones that search by file descriptor end in `Fd`.

## Main results

* `removeClientInfoFd_absent`: removal by an fd that is not registered returns the
  not-found value `0` and leaves the list alone.
* `removeClientInfoFd_present`: with distinct ids, removal by a registered fd returns the
  id of an entry with that fd and erases this id only.
* `clientFds_removeClientInfoFd` / `clientIds_removeClientInfoFd`: what removal by fd leaves
  registered.
* `findClientInfoFd_isSome_iff` / `findClientInfo_isSome_iff`: the searches return a client
  exactly for keys that are registered.
-/

namespace AnyServer

/-- The contents of a `char` buffer or of a `std::string`. -/
abbrev Bytes := List UInt8

/-- The bytes of a string of ASCII characters. -/
def ascii (s : String) : Bytes :=
  s.toList.map fun c => c.toNat.toUInt8

/-! ### Client records -/

/-- `BaseServer::ClientInfo`. -/
structure ClientInfo where
  m_tcp : Bool
  m_client_id : ℕ
  deriving DecidableEq, Repr

/-- `BaseServerImpl::TcpClientInfo`. -/
structure TcpClientInfo extends ClientInfo where
  m_fd : ℤ
  deriving DecidableEq, Repr

/-- `BaseServerImpl::UdpClientInfo`; `m_sockaddr` is the `sockaddr_in` or `sockaddr_un` that
the constructor copies. -/
structure UdpClientInfo extends ClientInfo where
  m_sockaddr : Bytes
  deriving DecidableEq, Repr

/-- `HttpTcpServer::HttpTcpClientInfo`. A `wsi` is known by a number. -/
structure HttpTcpClientInfo extends TcpClientInfo where
  m_wsi : ℕ
  deriving DecidableEq, Repr

/-- `WebSocketTcpServer::WebSocketTcpClientInfo`. -/
structure WebSocketTcpClientInfo extends TcpClientInfo where
  m_wsi : ℕ
  m_protocol : Bytes
  deriving DecidableEq, Repr

/-- The subclasses of `ClientInfo`, by what the registry reads through the base class. -/
class IsClientInfo (C : Type) where
  getClientId : C → ℕ

/-- The subclasses of `TcpClientInfo`: the `static_cast` that the searches by fd make. -/
class IsTcpClientInfo (C : Type) extends IsClientInfo C where
  getFd : C → ℤ

export IsClientInfo (getClientId)
export IsTcpClientInfo (getFd)

instance : IsClientInfo ClientInfo where
  getClientId := ClientInfo.m_client_id

instance : IsClientInfo UdpClientInfo where
  getClientId c := c.m_client_id

instance : IsTcpClientInfo TcpClientInfo where
  getClientId c := c.m_client_id
  getFd := TcpClientInfo.m_fd

instance : IsTcpClientInfo HttpTcpClientInfo where
  getClientId c := c.m_client_id
  getFd c := c.m_fd

instance : IsTcpClientInfo WebSocketTcpClientInfo where
  getClientId c := c.m_client_id
  getFd c := c.m_fd

/-! ### The four searches -/

section Registry

variable {C : Type}

/-- `BaseServerImpl::addClientInfo`: the extended list, and the id it returns. -/
def addClientInfo [IsClientInfo C] (m_client_list : List C) (client : C) : List C × ℕ :=
  (m_client_list ++ [client], getClientId client)

/-- `BaseServerImpl::findClientInfo(const int fd)`; `none` is `nullptr`. -/
def findClientInfoFd [IsTcpClientInfo C] (m_client_list : List C) (fd : ℤ) : Option C :=
  Keyed.find getFd m_client_list fd

/-- `BaseServerImpl::findClientInfo(const size_t client_id)`. -/
def findClientInfo [IsClientInfo C] (m_client_list : List C) (client_id : ℕ) : Option C :=
  Keyed.find getClientId m_client_list client_id

/-- `BaseServerImpl::removeClientInfo(const int fd)`: the list left, and the id of the
first client with that fd or `0`. -/
def removeClientInfoFd [IsTcpClientInfo C] (m_client_list : List C) (fd : ℤ) : List C × ℕ :=
  match Keyed.find getFd m_client_list fd with
  | some tcp_client =>
      (Keyed.remove getClientId m_client_list (getClientId tcp_client),
        getClientId tcp_client)
  | none => (m_client_list, 0)

/-- `BaseServerImpl::removeClientInfo(const size_t client_id)`. -/
def removeClientInfo [IsClientInfo C] (m_client_list : List C) (client_id : ℕ) :
    List C × ℕ :=
  match Keyed.find getClientId m_client_list client_id with
  | some client => (Keyed.remove getClientId m_client_list (getClientId client), client_id)
  | none => (m_client_list, 0)

/-- The ids registered, in order. -/
def clientIds [IsClientInfo C] (m_client_list : List C) : List ℕ :=
  m_client_list.map getClientId

/-- The fds registered, in order. -/
def clientFds [IsTcpClientInfo C] (m_client_list : List C) : List ℤ :=
  m_client_list.map getFd

variable {l : List C} {c : C} {fd : ℤ} {client_id : ℕ}

@[simp] theorem clientIds_nil [IsClientInfo C] : clientIds ([] : List C) = [] := rfl

@[simp] theorem clientFds_nil [IsTcpClientInfo C] : clientFds ([] : List C) = [] := rfl

/-- `addClientInfo` appends the id of the new client. -/
@[simp] theorem clientIds_concat [IsClientInfo C] :
    clientIds (l ++ [c]) = clientIds l ++ [getClientId c] := by
  simp [clientIds]

/-- `addClientInfo` appends the descriptor of the new client. -/
@[simp] theorem clientFds_concat [IsTcpClientInfo C] :
    clientFds (l ++ [c]) = clientFds l ++ [getFd c] := by
  simp [clientFds]

/-- An id that is not used is not the id of any client of the list. -/
theorem not_mem_clientIds_iff [IsClientInfo C] :
    client_id ∉ clientIds l ↔ ∀ c ∈ l, getClientId c ≠ client_id := by
  simp [clientIds]

/-- A descriptor that is not used is not that of any client of the list. -/
theorem not_mem_clientFds_iff [IsTcpClientInfo C] :
    fd ∉ clientFds l ↔ ∀ c ∈ l, getFd c ≠ fd := by
  simp [clientFds]

@[simp] theorem addClientInfo_fst [IsClientInfo C] : (addClientInfo l c).1 = l ++ [c] := rfl

@[simp] theorem addClientInfo_snd [IsClientInfo C] :
    (addClientInfo l c).2 = getClientId c := rfl

/-- `findClientInfo` finds exactly the registered ids. -/
theorem findClientInfo_isSome_iff [IsClientInfo C] :
    (findClientInfo l client_id).isSome ↔ client_id ∈ clientIds l :=
  Keyed.find_isSome_iff

/-- `findClientInfo` by descriptor finds exactly the registered descriptors. -/
theorem findClientInfoFd_isSome_iff [IsTcpClientInfo C] :
    (findClientInfoFd l fd).isSome ↔ fd ∈ clientFds l :=
  Keyed.find_isSome_iff

/-- For an id that nobody has there is no client. -/
theorem findClientInfo_absent [IsClientInfo C] (h : client_id ∉ clientIds l) :
    findClientInfo l client_id = none :=
  Keyed.find_eq_none_iff.mpr h

/-- For a descriptor that nobody has there is no client. -/
theorem findClientInfoFd_absent [IsTcpClientInfo C] (h : fd ∉ clientFds l) :
    findClientInfoFd l fd = none :=
  Keyed.find_eq_none_iff.mpr h

/-- Removal by an fd that is not registered returns `0` and leaves the list alone. -/
theorem removeClientInfoFd_absent [IsTcpClientInfo C] (h : fd ∉ clientFds l) :
    removeClientInfoFd l fd = (l, 0) := by
  rw [removeClientInfoFd, Keyed.find_eq_none_iff.mpr h]

/-- Removal by an id that is not registered does the same. -/
theorem removeClientInfo_absent [IsClientInfo C] (h : client_id ∉ clientIds l) :
    removeClientInfo l client_id = (l, 0) := by
  rw [removeClientInfo, Keyed.find_eq_none_iff.mpr h]

/-- Removal by a registered fd returns the id of the first entry with that fd and drops
this id. -/
theorem removeClientInfoFd_present [IsTcpClientInfo C] (h : fd ∈ clientFds l) :
    ∃ c, findClientInfoFd l fd = some c ∧
      removeClientInfoFd l fd = (Keyed.remove getClientId l (getClientId c), getClientId c) := by
  obtain ⟨c, hc⟩ := Option.isSome_iff_exists.mp (findClientInfoFd_isSome_iff.mpr h)
  have hc' : Keyed.find getFd l fd = some c := hc
  exact ⟨c, hc, by rw [removeClientInfoFd, hc']⟩

/-- The client added last is removed by its id, if no other has it. -/
theorem removeClientInfo_concat [IsClientInfo C] (h : getClientId c ∉ clientIds l) :
    removeClientInfo (l ++ [c]) (getClientId c) = (l, getClientId c) := by
  have hsome : (Keyed.find getClientId (l ++ [c]) (getClientId c)).isSome := by
    rw [Keyed.find_isSome_iff]
    simp
  obtain ⟨c', hc'⟩ := Option.isSome_iff_exists.mp hsome
  have hremove : Keyed.remove getClientId (l ++ [c]) (getClientId c) = l := by
    rw [Keyed.remove, List.filter_append, ← Keyed.remove, Keyed.remove_eq_self h]
    simp
  simp only [removeClientInfo, hc', Keyed.key_of_find hc', hremove]

/-- Removal never adds a client and keeps the order of those it leaves. -/
theorem removeClientInfoFd_sublist [IsTcpClientInfo C] :
    ((removeClientInfoFd l fd).1).Sublist l := by
  by_cases h : fd ∈ clientFds l
  · obtain ⟨c, -, hr⟩ := removeClientInfoFd_present h
    rw [hr]
    exact Keyed.remove_sublist
  · rw [removeClientInfoFd_absent h]

/-- A removal takes clients away and leaves the others in their order. -/
theorem removeClientInfo_sublist [IsClientInfo C] {client_id : ℕ} :
    ((removeClientInfo l client_id).1).Sublist l := by
  rw [removeClientInfo]
  split
  · exact Keyed.remove_sublist
  · exact List.Sublist.refl _

/-- Removing by descriptor keeps the ids distinct. -/
theorem nodup_clientIds_removeClientInfoFd [IsTcpClientInfo C] (hnd : (clientIds l).Nodup) :
    (clientIds (removeClientInfoFd l fd).1).Nodup :=
  hnd.sublist (removeClientInfoFd_sublist.map _)

/-- Where ids and fds are distinct, removal by fd drops the client with the fd. -/
theorem removeClientInfoFd_fst [IsTcpClientInfo C] (hids : (clientIds l).Nodup)
    (hfds : (clientFds l).Nodup) : (removeClientInfoFd l fd).1 = Keyed.remove getFd l fd := by
  by_cases h : fd ∈ clientFds l
  · obtain ⟨c, hc, hr⟩ := removeClientInfoFd_present h
    obtain rfl : getFd c = fd := Keyed.key_of_find hc
    rw [hr]
    exact Keyed.remove_eq_remove hids hfds (Keyed.mem_of_find hc)
  · rw [removeClientInfoFd_absent h]
    exact (Keyed.remove_eq_self h).symm

/-- Removal by fd erases one occurrence of the fd, if there is one. -/
theorem clientFds_removeClientInfoFd [IsTcpClientInfo C] (hnd : (clientIds l).Nodup) :
    clientFds (removeClientInfoFd l fd).1 = (clientFds l).erase fd := by
  by_cases h : fd ∈ clientFds l
  · obtain ⟨c, hc, hr⟩ := removeClientInfoFd_present h
    rw [hr]
    exact Keyed.map_remove_find hnd hc
  · rw [removeClientInfoFd_absent h, List.erase_of_not_mem h]

/-- Removal by fd erases the id that it returns, which is `0` for no client. -/
theorem clientIds_removeClientInfoFd [IsTcpClientInfo C] (hnd : (clientIds l).Nodup)
    (h0 : 0 ∉ clientIds l) :
    clientIds (removeClientInfoFd l fd).1 = (clientIds l).erase (removeClientInfoFd l fd).2 := by
  by_cases h : fd ∈ clientFds l
  · obtain ⟨c, -, hr⟩ := removeClientInfoFd_present h
    rw [hr]
    exact Keyed.map_remove hnd
  · rw [removeClientInfoFd_absent h, List.erase_of_not_mem h0]

/-- The id returned by removal is registered exactly when the fd is. -/
theorem removeClientInfoFd_mem_iff [IsTcpClientInfo C] (h0 : 0 ∉ clientIds l) :
    (removeClientInfoFd l fd).2 ∈ clientIds l ↔ fd ∈ clientFds l := by
  by_cases h : fd ∈ clientFds l
  · obtain ⟨c, hc, hr⟩ := removeClientInfoFd_present h
    rw [hr]
    exact iff_of_true (List.mem_map_of_mem (Keyed.mem_of_find hc)) h
  · rw [removeClientInfoFd_absent h]
    exact iff_of_false h0 h

end Registry

/-! ### The listener interface -/

/-- A call on `IBaseServerListener`. The argument `msg` is what the pointer passed on
points at, `msg_len` the length passed with it, an `unsigned int`. -/
inductive Notification
  | onClientConnected (server_id client_id : ℕ)
  | onClientDisconnected (server_id client_id : ℕ)
  | onReceive (server_id client_id : ℕ) (msg : Bytes) (msg_len : ℕ)
  | onReceiveProtocol (server_id client_id : ℕ) (msg : Bytes) (msg_len : ℕ)
      (protocol : Bytes)
  deriving DecidableEq, Repr

/-- A notification as an event of a session log: the client it names, and the bytes a
listener may read. -/
def Notification.event : Notification → Session.Event ℕ Bytes
  | .onClientConnected _ client_id => .opened client_id
  | .onClientDisconnected _ client_id => .closed client_id
  | .onReceive _ client_id msg msg_len => .data client_id (msg.take msg_len)
  | .onReceiveProtocol _ client_id msg msg_len _ => .data client_id (msg.take msg_len)

/-! ### What is written to clients -/

/-- A call that hands something to a client: `write` and `sendto` of the socket servers,
`lws_write` and the other calls of the lws servers. `msg` are the `msg_len` bytes at the
pointer passed on. -/
inductive Write
  | write (fd : ℤ) (msg : Bytes)
  | sendto (fd : ℤ) (msg : Bytes) (m_sockaddr : Bytes)
  | lwsWrite (wsi : ℕ) (msg : Bytes)
  | httpHeaders (wsi : ℕ) (content_length : ℕ)
  | httpBody (wsi : ℕ) (msg : Bytes)
  | httpTransactionCompleted (wsi : ℕ)
  deriving DecidableEq, Repr

end AnyServer
