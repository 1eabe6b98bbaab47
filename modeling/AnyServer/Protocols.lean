import AnyServer.Library.CString
import AnyServer.Library.Handles
import AnyServer.ClientRegistry

/-!
# The Table of Protocols

`WebSocketTcpServer::addProtocols` allocates a table, writes two entries of its own, one for each
name that it is given, and one without a name that ends the table. `init` hands the table to
`lws_create_context` later on.

The names come as a `list<string>` by value. The list and its strings are copies, made for the
call and destroyed when it returns, and the entries point at the characters of the copies. A
string is known here by the handle of its buffer.

## Main results

* `addProtocols_complete`: the table is written whole.
* `protocols_valid_iff`: when the names are still there for `init`.
-/

namespace AnyServer

open Handles

/-- `MAX_ECHO_PAYLOAD`. -/
def MAX_ECHO_PAYLOAD : ℕ := 1024

/-- `WebSocketTcpServer::Protocol`. -/
inductive Protocol
  | HTTP
  | TEST
  | DUMMY
  | BASIC_PROTOCOL
  deriving DecidableEq, Repr

/-- The value of the enumerator. -/
def Protocol.value : Protocol → ℕ
  | .HTTP => 0
  | .TEST => 1
  | .DUMMY => 2
  | .BASIC_PROTOCOL => 3

/-- What a `const char *` of the table points at: a string literal, or the characters of a
`std::string`. -/
inductive CharPtr
  | literal (s : Bytes)
  | data (string : ℕ)
  deriving DecidableEq, Repr

/-- The characters, as long as they are there. -/
def CharPtr.read (heap : Heap Bytes) : CharPtr → Option Bytes
  | .literal s => some s
  | .data string => heap.get string

/-- The functions that a table may name. -/
inductive LwsCallbackFunction
  | callbackWebSocket
  deriving DecidableEq, Repr

/-- `struct lws_protocols`. -/
structure LwsProtocols where
  name : Option CharPtr
  callback : Option LwsCallbackFunction
  user : Option CharPtr
  per_session_data_size : ℕ
  rx_buffer_size : ℕ
  id : ℕ
  deriving DecidableEq, Repr

/-- The table; an entry is `none` until it is written. -/
abbrev ProtocolTable := List (Option LwsProtocols)

/-- A store to `m_lws_protocols[index]`; `none` is a store outside the table, or by an `index`
that has left the range of `int`. -/
def ProtocolTable.store (m_lws_protocols : ProtocolTable) (index : ℕ) (entry : LwsProtocols) :
    Option ProtocolTable :=
  if index < m_lws_protocols.length ∧ index < 2 ^ 31 then
    some (m_lws_protocols.set index (some entry))
  else none

/-- An entry with a name. `strlen` reads the name. -/
def namedEntry (heap : Heap Bytes) (name : CharPtr) (protocol_id : ℕ) : Option LwsProtocols := do
  let characters ← name.read heap
  some
    { name := some name
      callback := some .callbackWebSocket
      user := some name
      per_session_data_size := (CString.read 0 characters).length
      rx_buffer_size := MAX_ECHO_PAYLOAD
      id := protocol_id }

/-- The entry that ends the table. -/
def lastEntry (protocol_id : ℕ) : LwsProtocols :=
  { name := none, callback := none, user := none, per_session_data_size := 0,
    rx_buffer_size := 0, id := protocol_id }

/-- `protocol_id++` of an `unsigned int`. -/
def nextId (protocol_id : ℕ) : ℕ :=
  (protocol_id + 1) % 2 ^ 32

/-- The six assignments that write an entry with a name. -/
def ProtocolTable.storeNamed (heap : Heap Bytes) (m_lws_protocols : ProtocolTable) (index : ℕ)
    (name : CharPtr) (protocol_id : ℕ) : Option ProtocolTable := do
  let entry ← namedEntry heap name protocol_id
  m_lws_protocols.store index entry

/-- The loop of `addProtocols`. -/
def addNames (heap : Heap Bytes) :
    List ℕ → ProtocolTable → ℕ → ℕ → Option (ProtocolTable × ℕ × ℕ)
  | [], m_lws_protocols, index, protocol_id => some (m_lws_protocols, index, protocol_id)
  | it :: rest, m_lws_protocols, index, protocol_id => do
      let m_lws_protocols ← m_lws_protocols.storeNamed heap index (.data it) protocol_id
      addNames heap rest m_lws_protocols (index + 1) (nextId protocol_id)

/-- The body of `WebSocketTcpServer::addProtocols`. The result is `none` where the source goes
outside the table or through a dangling pointer. -/
def addProtocols (heap : Heap Bytes) (protocols : List ℕ) : Option ProtocolTable := do
  let m_lws_protocols : ProtocolTable :=
    List.replicate (Protocol.BASIC_PROTOCOL.value + protocols.length) none
  let protocol_id := 0
  let m_lws_protocols ← m_lws_protocols.storeNamed heap Protocol.HTTP.value
    (.literal (ascii "http-only")) protocol_id
  let protocol_id := nextId protocol_id
  let m_lws_protocols ← m_lws_protocols.storeNamed heap Protocol.TEST.value
    (.literal (ascii "test")) protocol_id
  let protocol_id := nextId protocol_id
  let (m_lws_protocols, index, protocol_id) ←
    addNames heap protocols m_lws_protocols (Protocol.TEST.value + 1) protocol_id
  m_lws_protocols.store index (lastEntry protocol_id)

/-- The call `addProtocols(server_info->protocols)` of `__create_servers__`: the list is copied
for the call, and the copy is destroyed when it returns. -/
def callAddProtocols (heap : Heap Bytes) (protocols : List ℕ) :
    Option (Heap Bytes × ProtocolTable) := do
  let names ← protocols.mapM heap.get
  let copied := heap.allocAll names
  let m_lws_protocols ← addProtocols copied.1 copied.2
  some (copied.1.freeAll copied.2, m_lws_protocols)

/-- What the name of an entry resolves to. -/
def ProtocolTable.nameAt (heap : Heap Bytes) (m_lws_protocols : ProtocolTable) (index : ℕ) :
    Option Bytes := do
  let entry ← m_lws_protocols[index]?
  let entry ← entry
  let name ← entry.name
  name.read heap

/-- All `n + 3` entries are written, each with its index as its id, and the last one ends the
table. -/
structure ProtocolTable.Complete (m_lws_protocols : ProtocolTable) (n : ℕ) : Prop where
  length_eq : m_lws_protocols.length = n + 3
  written : ∀ index < n + 3, ∃ entry, m_lws_protocols[index]? = some (some entry) ∧
    entry.id = index
  terminator : ∃ entry, m_lws_protocols[n + 2]? = some (some entry) ∧ entry.name = none ∧
    entry.callback = none
  named : ∀ index < n + 2, ∃ entry, m_lws_protocols[index]? = some (some entry) ∧
    entry.name.isSome ∧ entry.callback = some .callbackWebSocket ∧
    entry.rx_buffer_size = MAX_ECHO_PAYLOAD

/-- The entries after the two first have the names. -/
def ProtocolTable.NamesValid (heap : Heap Bytes) (m_lws_protocols : ProtocolTable)
    (names : List Bytes) : Prop :=
  ∀ i name, names[i]? = some name → m_lws_protocols.nameAt heap (i + 2) = some name

/-! ### What is written -/

/-- The entries of the names `ptrs`, each with its index as its id. -/
structure Written (entries : List LwsProtocols) (ptrs : List CharPtr) : Prop where
  names : entries.map LwsProtocols.name = ptrs.map some
  ids : entries.map LwsProtocols.id = List.range entries.length
  fixed : ∀ entry ∈ entries, entry.callback = some .callbackWebSocket ∧
    entry.rx_buffer_size = MAX_ECHO_PAYLOAD

section

variable {heap heap' later : Heap Bytes} {protocols : List ℕ} {names : List Bytes}
  {m_lws_protocols m_lws_protocols' : ProtocolTable} {index index' protocol_id protocol_id' : ℕ}
  {entry : LwsProtocols} {entries : List LwsProtocols} {ptrs : List CharPtr} {name : CharPtr}
  {characters : Bytes}

/-- At the start no entry is written and none is asked for. -/
theorem Written.nil : Written [] [] :=
  ⟨rfl, rfl, by simp⟩

/-- There are as many entries as names. -/
theorem Written.length_eq (h : Written entries ptrs) : entries.length = ptrs.length := by
  simpa using congrArg List.length h.names

/-- One more name gives one more entry. -/
theorem Written.concat (h : Written entries ptrs)
    (hentry : namedEntry heap name entries.length = some entry) :
    Written (entries ++ [entry]) (ptrs ++ [name]) := by
  simp only [namedEntry, bind, Option.bind_eq_some_iff, Option.some.injEq] at hentry
  obtain ⟨characters, -, rfl⟩ := hentry
  refine ⟨by simp [h.names], ?_, ?_⟩
  · rw [List.map_append, h.ids, List.length_append, List.length_singleton, List.range_succ]
    rfl
  · exact List.forall_mem_append.mpr ⟨h.fixed, by simp⟩

/-- The table while it is written from the front. -/
def tableOf (entries : List LwsProtocols) (left : ℕ) : ProtocolTable :=
  entries.map some ++ List.replicate left none

/-- A store to the first entry that is not written. -/
theorem store_tableOf {left : ℕ} (hint : entries.length < 2 ^ 31) :
    (tableOf entries (left + 1)).store entries.length entry =
      some (tableOf (entries ++ [entry]) left) := by
  have hlt : entries.length < (tableOf entries (left + 1)).length := by
    rw [tableOf, List.length_append, List.length_map, List.length_replicate]
    omega
  rw [ProtocolTable.store, if_pos ⟨hlt, hint⟩, tableOf, tableOf, List.map_append,
    List.set_append_right _ _ (by rw [List.length_map]), List.length_map, Nat.sub_self,
    List.replicate_succ, List.set_cons_zero, List.append_assoc]
  rfl

/-- One more entry with a name. -/
theorem storeNamed_tableOf {left : ℕ} (hread : name.read heap = some characters)
    (hwritten : Written entries ptrs) (hint : entries.length < 2 ^ 31) :
    ∃ entry, (tableOf entries (left + 1)).storeNamed heap entries.length name entries.length =
        some (tableOf (entries ++ [entry]) left) ∧
      Written (entries ++ [entry]) (ptrs ++ [name]) := by
  obtain ⟨entry, hentry⟩ : ∃ entry, namedEntry heap name entries.length = some entry := by
    rw [namedEntry, hread]
    exact ⟨_, rfl⟩
  refine ⟨entry, ?_, hwritten.concat hentry⟩
  rw [ProtocolTable.storeNamed, hentry]
  exact store_tableOf hint

/-- The index does not overflow while it is below 2^31. -/
theorem nextId_of_lt (h : index < 2 ^ 31) : nextId index = index + 1 := by
  rw [nextId]
  omega

/-- **The loop** writes an entry for each name, as long as `index` is in the range of `int`. The
induction is on the names left; `entries` are those written before. -/
theorem addNames_eq (hnames : List.Forall₂ (fun p name => heap.get p = some name) protocols names)
    (hwritten : Written entries ptrs) (hint : entries.length + protocols.length < 2 ^ 31) :
    ∃ entries', addNames heap protocols (tableOf entries (protocols.length + 1)) entries.length
        entries.length = some (tableOf entries' 1, entries'.length, entries'.length) ∧
      Written entries' (ptrs ++ protocols.map .data) := by
  induction hnames generalizing entries ptrs with
  | nil => exact ⟨entries, rfl, by simpa using hwritten⟩
  | @cons it name rest names hit _ ih =>
      rw [List.length_cons] at hint ⊢
      obtain ⟨entry, hstore, hwritten'⟩ : ∃ entry,
          (tableOf entries (rest.length + 1 + 1)).storeNamed heap entries.length (.data it)
              entries.length = some (tableOf (entries ++ [entry]) (rest.length + 1)) ∧
            Written (entries ++ [entry]) (ptrs ++ [.data it]) :=
        storeNamed_tableOf (show (CharPtr.data it).read heap = some name from hit) hwritten
          (by omega)
      obtain ⟨entries', hrest, hwritten''⟩ := ih hwritten'
        (by rw [List.length_append, List.length_singleton]; omega)
      refine ⟨entries', ?_, by simpa using hwritten''⟩
      simp only [addNames, hstore, bind, Option.bind_some]
      rw [nextId_of_lt (by omega)]
      simpa using hrest

/-- Each name takes one index. -/
theorem addNames_index (h : addNames heap protocols m_lws_protocols index protocol_id =
      some (m_lws_protocols', index', protocol_id')) : index' = index + protocols.length := by
  induction protocols generalizing m_lws_protocols index protocol_id with
  | nil =>
      obtain ⟨-, rfl, -⟩ : _ ∧ index = index' ∧ _ := by simpa [addNames] using h
      rfl
  | cons it rest ih =>
      simp only [addNames, bind, Option.bind_eq_some_iff] at h
      obtain ⟨table, -, h⟩ := h
      rw [ih h, List.length_cons]
      omega

/-- **The whole function.** -/
theorem addProtocols_eq
    (hnames : List.Forall₂ (fun p name => heap.get p = some name) protocols names)
    (hint : protocols.length + 3 ≤ 2 ^ 31) :
    ∃ entries, addProtocols heap protocols =
        some (tableOf (entries ++ [lastEntry entries.length]) 0) ∧
      Written entries ([.literal (ascii "http-only"), .literal (ascii "test")] ++
        protocols.map .data) := by
  obtain ⟨http, hhttp, hwritten⟩ : ∃ entry, (tableOf [] (protocols.length + 3)).storeNamed heap 0
      (.literal (ascii "http-only")) 0 = some (tableOf [entry] (protocols.length + 2)) ∧
        Written [entry] [.literal (ascii "http-only")] :=
    storeNamed_tableOf rfl Written.nil (by decide)
  obtain ⟨test, htest, hwritten⟩ : ∃ entry, (tableOf [http] (protocols.length + 2)).storeNamed heap
      1 (.literal (ascii "test")) 1 = some (tableOf [http, entry] (protocols.length + 1)) ∧
        Written [http, entry] [.literal (ascii "http-only"), .literal (ascii "test")] :=
    storeNamed_tableOf rfl hwritten (by rw [List.length_singleton]; decide)
  obtain ⟨entries, hloop, hwritten⟩ := addNames_eq hnames hwritten
    (by simp only [List.length_cons, List.length_nil]; omega)
  refine ⟨entries, ?_, hwritten⟩
  have hlen := hwritten.length_eq
  simp only [List.length_append, List.length_cons, List.length_nil, List.length_map] at hlen
  have hmalloc : List.replicate (3 + protocols.length) none =
      tableOf [] (protocols.length + 3) := by
    rw [tableOf, Nat.add_comm]
    rfl
  have hlast : (tableOf entries 1).store entries.length (lastEntry entries.length) =
      some (tableOf (entries ++ [lastEntry entries.length]) 0) := store_tableOf (by omega)
  have hloop : addNames heap protocols (tableOf [http, test] (protocols.length + 1)) 2 2 =
      some (tableOf entries 1, entries.length, entries.length) := hloop
  have hfirst : nextId 0 = 1 := rfl
  have hsecond : nextId 1 = 2 := rfl
  simp only [addProtocols, Protocol.value, hmalloc, bind, hhttp, htest, hfirst, hsecond, hloop,
    Nat.reduceAdd, Option.bind_some, hlast]

/-! ### The table written -/

/-- The entry of a name has its position, its name and the callback. -/
theorem Written.getElem? {i : ℕ} (h : Written entries ptrs) (hi : ptrs[i]? = some name) :
    ∃ entry, entries[i]? = some entry ∧ entry.id = i ∧ entry.name = some name ∧
      entry.callback = some .callbackWebSocket ∧ entry.rx_buffer_size = MAX_ECHO_PAYLOAD := by
  have hlt : i < entries.length := h.length_eq ▸ (List.getElem?_eq_some_iff.mp hi).1
  have hname := congrArg (·[i]?) h.names
  have hid := congrArg (·[i]?) h.ids
  simp only [List.getElem?_map, hi, List.getElem?_eq_getElem hlt, List.getElem?_range hlt,
    Option.map_some, Option.some.injEq] at hname hid
  exact ⟨entries[i], List.getElem?_eq_getElem hlt, hid, hname,
    h.fixed _ (List.getElem_mem hlt)⟩

/-- **The table is written whole**, and only there. -/
theorem addProtocols_complete (later : Heap Bytes)
    (hnames : List.Forall₂ (fun p name => heap.get p = some name) protocols names)
    (hint : protocols.length + 3 ≤ 2 ^ 31) :
    ∃ m_lws_protocols, addProtocols heap protocols = some m_lws_protocols ∧
      m_lws_protocols.Complete protocols.length ∧
      ∀ i p, protocols[i]? = some p → m_lws_protocols.nameAt later (i + 2) = later.get p := by
  obtain ⟨entries, hadd, hwritten⟩ := addProtocols_eq hnames hint
  have hlen := hwritten.length_eq
  simp only [List.length_append, List.length_cons, List.length_nil, List.length_map] at hlen
  have htable : ∀ i : ℕ, (tableOf (entries ++ [lastEntry entries.length]) 0)[i]? =
      ((entries ++ [lastEntry entries.length])[i]?).map some := by
    intro i
    rw [tableOf, List.replicate_zero, List.append_nil, List.getElem?_map]
  have hnamed : ∀ (i : ℕ) (name : CharPtr),
      ([.literal (ascii "http-only"), .literal (ascii "test")] ++
        protocols.map CharPtr.data)[i]? = some name →
      ∃ entry, (tableOf (entries ++ [lastEntry entries.length]) 0)[i]? = some (some entry) ∧
        entry.id = i ∧ entry.name = some name ∧ entry.callback = some .callbackWebSocket ∧
        entry.rx_buffer_size = MAX_ECHO_PAYLOAD := by
    intro i name hi
    obtain ⟨entry, hentry, hrest⟩ := hwritten.getElem? hi
    have hlt := (List.getElem?_eq_some_iff.mp hentry).1
    exact ⟨entry, by rw [htable, List.getElem?_append_left hlt, hentry]; rfl, hrest⟩
  have hlast : (tableOf (entries ++ [lastEntry entries.length]) 0)[protocols.length + 2]? =
      some (some (lastEntry entries.length)) := by
    rw [htable, show protocols.length + 2 = entries.length by omega, List.getElem?_concat_length]
    rfl
  have hbefore : ∀ index < protocols.length + 2, ∃ entry,
      (tableOf (entries ++ [lastEntry entries.length]) 0)[index]? = some (some entry) ∧
        entry.id = index ∧ entry.name.isSome ∧ entry.callback = some .callbackWebSocket ∧
        entry.rx_buffer_size = MAX_ECHO_PAYLOAD := by
    intro index hlt
    obtain ⟨name, hname⟩ : ∃ name, ([.literal (ascii "http-only"), .literal (ascii "test")] ++
        protocols.map CharPtr.data)[index]? = some name :=
      ⟨_, List.getElem?_eq_getElem (by simp; omega)⟩
    obtain ⟨entry, hentry, hid, hname, hrest⟩ := hnamed index name hname
    exact ⟨entry, hentry, hid, Option.isSome_of_eq_some hname, hrest⟩
  refine ⟨_, hadd, ⟨?_, ?_, ⟨_, hlast, rfl, rfl⟩, ?_⟩, ?_⟩
  · rw [tableOf, List.length_append, List.length_map, List.length_append, List.length_replicate,
      List.length_singleton]
    omega
  · intro index hlt
    rcases Nat.lt_or_ge index (protocols.length + 2) with hlt' | hge
    · obtain ⟨entry, hentry, hid, -⟩ := hbefore index hlt'
      exact ⟨entry, hentry, hid⟩
    · obtain rfl : index = protocols.length + 2 := by omega
      refine ⟨_, hlast, ?_⟩
      change entries.length = _
      omega
  · intro index hlt
    obtain ⟨entry, hentry, -, hrest⟩ := hbefore index hlt
    exact ⟨entry, hentry, hrest⟩
  · intro i p hp
    obtain ⟨entry, hentry, -, hname, -⟩ := hnamed (i + 2) (.data p) (by simp [hp])
    simp only [ProtocolTable.nameAt, hentry, bind, Option.bind_some, hname, CharPtr.read]

/-- A call that stays inside the table has written its last entry. -/
theorem length_le_of_addProtocols (h : addProtocols heap protocols = some m_lws_protocols) :
    protocols.length + 3 ≤ 2 ^ 31 := by
  simp only [addProtocols, bind, Option.bind_eq_some_iff, Prod.exists] at h
  obtain ⟨_, -, _, -, table, index, protocol_id, hloop, hstore⟩ := h
  rw [ProtocolTable.store, Option.ite_none_right_eq_some] at hstore
  have hindex := addNames_index hloop
  have hint := hstore.1.2
  simp only [Protocol.value] at hindex
  omega

/-! ### The call -/

/-- A call with names that are there, and not too many, returns and leaves a complete table. -/
theorem callAddProtocols_complete (hnames : protocols.mapM heap.get = some names)
    (hint : names.length + 3 ≤ 2 ^ 31) :
    ∃ heap' m_lws_protocols, callAddProtocols heap protocols = some (heap', m_lws_protocols) ∧
      m_lws_protocols.Complete names.length := by
  have hcopies := heap.get_allocAll names
  rw [← hcopies.length_eq] at hint ⊢
  obtain ⟨table, hadd, hcomplete, -⟩ := addProtocols_complete heap hcopies hint
  refine ⟨(heap.allocAll names).1.freeAll (heap.allocAll names).2, table, ?_, hcomplete⟩
  simp only [callAddProtocols, hnames, hadd, bind, Option.bind_some]

/-- **When the table is complete and its names are still there.** After a call, whatever becomes
of the strings that there are, every entry is as it should be and every name resolves to what
was configured exactly if no names are configured. -/
theorem protocols_valid_iff (hnames : protocols.mapM heap.get = some names)
    (h : callAddProtocols heap protocols = some (heap', m_lws_protocols))
    (hlater : Later heap' later) :
    m_lws_protocols.Complete names.length ∧ m_lws_protocols.NamesValid later names ↔
      names = [] := by
  simp only [callAddProtocols, hnames, bind, Option.bind_some, Option.bind_eq_some_iff,
    Option.some.injEq, Prod.mk.injEq] at h
  obtain ⟨table, hadd, rfl, rfl⟩ := h
  have hcopies := heap.get_allocAll names
  obtain ⟨table', hadd', hcomplete, hname⟩ :=
    addProtocols_complete later hcopies (length_le_of_addProtocols hadd)
  obtain rfl := Option.some.inj (hadd.symm.trans hadd')
  rw [hcopies.length_eq] at hcomplete
  rw [and_iff_right hcomplete]
  constructor
  · intro hvalid
    by_contra hne
    obtain ⟨name, rest, rfl⟩ := List.exists_cons_of_ne_nil hne
    have hresolves := hvalid 0 name rfl
    -- the first copy was destroyed when the call returned
    have hfirst : ∃ p, (heap.allocAll (name :: rest)).2[0]? = some p := ⟨_, rfl⟩
    obtain ⟨p, hp⟩ := hfirst
    have hmem := List.mem_of_getElem? hp
    have hgone : later.get p = none := by
      refine hlater.get_eq_none ?_ (Heap.get_freeAll_eq_none (.inr hmem))
      rw [Heap.fresh_freeAll]
      exact Heap.lt_fresh_of_mem_allocAll hmem
    rw [hname 0 p hp, hgone] at hresolves
    cases hresolves
  · rintro rfl i name hi
    cases hi

end

/-! ### One name -/

/-- A configuration with one name, `chat`. -/
def oneName : Heap Bytes :=
  (Heap.empty.alloc (ascii "chat")).1

/-- A table of one name is complete, but its name is dead. -/
theorem protocols_valid_iff_oneName :
    ∃ heap' m_lws_protocols, callAddProtocols oneName [0] = some (heap', m_lws_protocols) ∧
      (m_lws_protocols.Complete 1 ∧ m_lws_protocols.NamesValid heap' [ascii "chat"] ↔
        [ascii "chat"] = []) := by
  have hcall : callAddProtocols oneName [0] = some (_, _) := rfl
  have hnames : [0].mapM oneName.get = some [ascii "chat"] := rfl
  exact ⟨_, _, hcall, protocols_valid_iff hnames hcall .refl⟩

/-- When the call has returned, the name of the third entry is gone. -/
theorem oneName_gone :
    ∃ heap' m_lws_protocols, callAddProtocols oneName [0] = some (heap', m_lws_protocols) ∧
      oneName.get 0 = some (ascii "chat") ∧ m_lws_protocols.nameAt heap' 2 = none ∧
      ¬ m_lws_protocols.NamesValid heap' [ascii "chat"] := by
  have hcall : callAddProtocols oneName [0] = some (_, _) := rfl
  refine ⟨_, _, hcall, rfl, rfl, fun hvalid => ?_⟩
  have hname := hvalid 0 (ascii "chat") rfl
  exact absurd hname (by decide)

end AnyServer
