import AnyServer.ConfiguredServers
import AnyServer.JsonWriter

/-!
# Configuration Files

From the bytes of a configuration file to the decoded configuration. `ConfigFile.ofBytes` is
what `__parse__` makes of the bytes before it decodes: an exception of the reader is caught like
one of the conversions.

A configuration can be had from a file if its entries are of known types, its two numbers fit
into 32 bits and none of its strings has the byte 0xFF, at which the reading of the file ends.
Every such configuration is written by `toValue` and `FastWriter`, and read back as it is.

## Main results

* `init_ofBytes_iff`: when a file is read and decoded.
* `loadable_iff`: which configurations there are files for.
-/

namespace AnyServer

open Json

/-- The entry is of a known type and can be written. -/
structure ServerInfo.Loadable (info : ServerInfo) : Prop where
  kinds : serverKinds.lookup info.header = some info.kinds
  bind : 0xFF ∉ info.bind
  max_client : info.max_client < 2 ^ 32
  protocols : ∀ protocol ∈ info.protocols, 0xFF ∉ protocol

/-- The strings of the section can be written. -/
structure Capabilities.Loadable (c : Capabilities) : Prop where
  ssl_cert : 0xFF ∉ c.ssl_cert
  ssl_private_key : 0xFF ∉ c.ssl_private_key
  ssl_private_key_password : 0xFF ∉ c.ssl_private_key_password
  ssl_ca : 0xFF ∉ c.ssl_ca

/-- A configuration that a file can hold. -/
structure JsonConfiguration.Loadable (c : JsonConfiguration) : Prop where
  name : 0xFF ∉ c.name
  copyright : 0xFF ∉ c.copyright
  server_infos : ∀ info ∈ c.server_infos, info.Loadable
  capabilities : c.capabilities.Loadable
  directory : 0xFF ∉ c.log.directory
  filesize : c.log.filesize < 2 ^ 32

/-! ### Writing a configuration -/

/-- The entry as a value, with its members in order. -/
def ServerInfo.toValue (info : ServerInfo) : Value :=
  .object [(ascii "bind", .string info.bind), (ascii "enable", .bool info.enable),
    (ascii "max_client", canonicalInt info.max_client),
    (ascii "protocols", .array (info.protocols.map .string)), (ascii "tcp", .bool info.tcp),
    (ascii "type", .string info.header)]

/-- The section as a value. -/
def Capabilities.toValue (c : Capabilities) : Value :=
  .object [(ascii "security", .bool c.enable_security), (ascii "ssl_ca_file", .string c.ssl_ca),
    (ascii "ssl_cert_file", .string c.ssl_cert),
    (ascii "ssl_private_key_file", .string c.ssl_private_key),
    (ascii "ssl_private_key_password", .string c.ssl_private_key_password)]

/-- The section as a value. -/
def Log.toValue (l : Log) : Value :=
  .object [(ascii "directory", .string l.directory), (ascii "enable_debug", .bool l.enable_debug),
    (ascii "enable_error", .bool l.enable_error),
    (ascii "enable_filewrite", .bool l.enable_filewrite),
    (ascii "enable_info", .bool l.enable_info), (ascii "enable_warn", .bool l.enable_warn),
    (ascii "filesize", canonicalInt l.filesize)]

/-- The document that decodes to a configuration. -/
def JsonConfiguration.toValue (c : JsonConfiguration) : Value :=
  .object [(ascii "capabilities", c.capabilities.toValue),
    (ascii "copyright", .string c.copyright), (ascii "log", c.log.toValue),
    (ascii "name", .string c.name),
    (ascii "server_list", .array (c.server_infos.map ServerInfo.toValue)),
    (ascii "test", .object [(ascii "echo", .bool c.enable_echo_test)])]

section

variable {extractDouble : Bytes → Option Json.Real} {c : JsonConfiguration} {info : ServerInfo}
  {n : ℕ}

/-- A number below 2^32 is read back as it was. -/
theorem asUInt_canonicalInt (hn : n < 2 ^ 32) : (canonicalInt n).asUInt = .ok n := by
  rw [canonicalInt]
  split
  · rw [Value.asUInt, if_pos (by omega), Int.toNat_natCast]
  · rw [Value.asUInt, Int.toNat_natCast, if_pos hn]

/-- The value of an entry decodes to the entry. -/
theorem ServerInfo.Loadable.decodedFrom (h : info.Loadable) : info.DecodedFrom info.toValue where
  header := rfl
  kinds := h.kinds
  enable := rfl
  bind := rfl
  tcp := rfl
  max_client := asUInt_canonicalInt h.max_client
  protocols := by
    refine ⟨.array (info.protocols.map .string), rfl, Json.Value.isList_array _, ?_⟩
    exact List.forall₂_map_left_iff.mpr (List.forall₂_same.mpr fun _ _ => rfl)

/-- The capabilities are what their own document decodes to. -/
theorem Capabilities.decodedFrom (c : Capabilities) : c.DecodedFrom c.toValue :=
  ⟨rfl, rfl, rfl, rfl, rfl⟩

/-- The log settings are what their own document decodes to. -/
theorem Log.decodedFrom {l : Log} (h : l.filesize < 2 ^ 32) : l.DecodedFrom l.toValue :=
  ⟨rfl, rfl, rfl, rfl, rfl, rfl, asUInt_canonicalInt h⟩

/-- The documents of a list of server entries decode to the entries, in order. -/
theorem entries_map {infos : List ServerInfo} (h : ∀ info ∈ infos, info.Loadable) :
    Entries (infos.map ServerInfo.toValue) infos := by
  induction infos with
  | nil => exact .nil
  | cons info infos ih =>
      exact .supported (h info List.mem_cons_self).decodedFrom
        (ih fun info hinfo => h info (List.mem_cons_of_mem _ hinfo))

/-- The value of a configuration decodes to the configuration. -/
theorem JsonConfiguration.Loadable.decodedFrom (h : c.Loadable) : c.DecodedFrom c.toValue where
  name := ⟨_, rfl, rfl⟩
  copyright := rfl
  server_infos := ⟨_, rfl, Json.Value.isList_array _, entries_map h.server_infos⟩
  capabilities := ⟨_, rfl, c.capabilities.decodedFrom⟩
  log := ⟨_, rfl, Log.decodedFrom h.filesize⟩
  enable_echo_test := ⟨_, rfl, rfl⟩

/-! ### Writing it to a file -/

/-- Strings that a file can hold. -/
abbrev Clean (s : Bytes) : Prop :=
  0xFF ∉ s

/-- A number below 2^32 has nothing that a text could not hold. -/
theorem canonicalInt_plain (hn : n < 2 ^ 32) {P : Bytes → Prop} : (canonicalInt n).Plain P := by
  rw [canonicalInt]
  split
  · refine .int ?_ ?_
    · unfold minLargestInt; omega
    · unfold maxLargestInt; omega
  · rw [Int.toNat_natCast]
    refine .uint ?_
    unfold maxLargestUInt
    omega

/-- Members with distinct names in order, each of which can be written. -/
theorem plain_object {members : List (Bytes × Value)} (names : List String)
    (hnames : members.map Prod.fst = names.map ascii)
    (hsorted : (names.map ascii).Pairwise (· < ·)) (hclean : ∀ name ∈ names.map ascii, Clean name)
    (hvalues : ∀ v ∈ members.map Prod.snd, v.Plain Clean) : (Value.object members).Plain Clean :=
  .object (SortedKeys.sorted_iff.mpr (hnames ▸ hsorted))
    (fun x hx => hclean x.1 (hnames ▸ List.mem_map_of_mem hx))
    (fun x hx => hvalues x.2 (List.mem_map_of_mem hx))

/-- The types have names that can be written. -/
theorem clean_of_lookup {header : Bytes} {kinds : ServerKinds}
    (h : serverKinds.lookup header = some kinds) : Clean header := by
  have hkeys : ∀ x ∈ serverKinds, Clean x.1 := by decide
  obtain ⟨x, hx, heq⟩ := List.lookup_isSome_iff.mp (Option.isSome_of_eq_some h)
  exact eq_of_beq heq ▸ hkeys x hx

/-- A loadable server entry can be written. -/
theorem ServerInfo.Loadable.plain (h : info.Loadable) : info.toValue.Plain Clean := by
  refine plain_object ["bind", "enable", "max_client", "protocols", "tcp", "type"]
    rfl (by decide) (by decide) ?_
  simp only [List.map_cons, List.map_nil, List.forall_mem_cons]
  refine ⟨.string h.bind, .bool _, canonicalInt_plain h.max_client, .array ?_, .bool _,
    .string (clean_of_lookup h.kinds), List.forall_mem_nil _⟩
  intro v hv
  obtain ⟨protocol, hprotocol, rfl⟩ := List.mem_map.mp hv
  exact .string (h.protocols protocol hprotocol)

/-- Loadable capabilities can be written. -/
theorem Capabilities.Loadable.plain {c : Capabilities} (h : c.Loadable) :
    c.toValue.Plain Clean := by
  refine plain_object ["security", "ssl_ca_file", "ssl_cert_file",
    "ssl_private_key_file", "ssl_private_key_password"] rfl (by decide) (by decide) ?_
  simp only [List.map_cons, List.map_nil, List.forall_mem_cons]
  exact ⟨.bool _, .string h.ssl_ca, .string h.ssl_cert, .string h.ssl_private_key,
    .string h.ssl_private_key_password, List.forall_mem_nil _⟩

/-- Log settings with a clean directory and a size below 2^32 can be written. -/
theorem Log.plain {l : Log} (hdirectory : Clean l.directory) (hfilesize : l.filesize < 2 ^ 32) :
    l.toValue.Plain Clean := by
  refine plain_object ["directory", "enable_debug", "enable_error", "enable_filewrite",
    "enable_info", "enable_warn", "filesize"] rfl (by decide) (by decide) ?_
  simp only [List.map_cons, List.map_nil, List.forall_mem_cons]
  exact ⟨.string hdirectory, .bool _, .bool _, .bool _, .bool _, .bool _,
    canonicalInt_plain hfilesize, List.forall_mem_nil _⟩

/-- A loadable configuration can be written. -/
theorem JsonConfiguration.Loadable.plain (h : c.Loadable) : c.toValue.Plain Clean := by
  have htest : (Value.object [(ascii "echo", .bool c.enable_echo_test)]).Plain Clean :=
    plain_object ["echo"] rfl (by decide) (by decide) (by
      simp only [List.map_cons, List.map_nil, List.forall_mem_cons]
      exact ⟨.bool _, List.forall_mem_nil _⟩)
  refine plain_object ["capabilities", "copyright", "log", "name", "server_list",
    "test"] rfl (by decide) (by decide) ?_
  simp only [List.map_cons, List.map_nil, List.forall_mem_cons]
  refine ⟨h.capabilities.plain, .string h.copyright, Log.plain h.directory h.filesize,
    .string h.name, .array ?_, htest, List.forall_mem_nil _⟩
  intro v hv
  obtain ⟨info, hinfo, rfl⟩ := List.mem_map.mp hv
  exact (h.server_infos info hinfo).plain

/-- What the conversions of a double come to: `asString` prints it in ASCII, and `asUInt` fails
out of the range of its type. -/
structure ConvertsDoubles (extractDouble : Bytes → Option Json.Real) : Prop where
  asString : ∀ text r, extractDouble text = some r → Clean r.asString
  asUInt : ∀ text r n, extractDouble text = some r → r.asUInt = some n → n < 2 ^ 32

section

variable {v w : Value} {d : ℕ} {key : String} {s : Bytes}

/-- A value that is looked up is that of some member. -/
theorem lookup_mem {members : List (Bytes × Value)} {name : Bytes}
    (h : members.lookup name = some v) : ∃ x ∈ members, x.2 = v := by
  obtain ⟨l₁, l₂, rfl, -⟩ := List.lookup_eq_some_iff.mp h
  exact ⟨(name, v), by simp, rfl⟩

/-- A member of a value that a file can hold, or what stands for it if it is not there. -/
theorem canonical_getD {members : List (Bytes × Value)} {name : Bytes}
    (h : ∀ x ∈ members, x.2.Canonical extractDouble d) (hw : w.Canonical extractDouble (d + 1)) :
    ∃ d, ((members.lookup name).getD w).Canonical extractDouble d := by
  cases hlookup : members.lookup name with
  | none => exact ⟨d + 1, hw⟩
  | some v =>
      obtain ⟨x, hx, rfl⟩ := lookup_mem hlookup
      exact ⟨d, h x hx⟩

/-- A member of a value that was read is in its canonical form too. -/
theorem canonical_index (hv : v.Canonical extractDouble d) (h : v.index key = .ok w) :
    ∃ d, w.Canonical extractDouble d := by
  cases hv with
  | null =>
      cases h
      exact ⟨1, .null⟩
  | object _ _ hvalues =>
      obtain rfl := Except.ok.inj h
      exact canonical_getD hvalues .null
  | bool _ | int _ _ | uint _ _ | real _ | string _ | array _ => cases h

/-- So is what `get` gives, when the default is. -/
theorem canonical_get (hv : v.Canonical extractDouble d) {default : Value}
    (hdefault : ∀ d, default.Canonical extractDouble (d + 1))
    (h : v.get key default = .ok w) : ∃ d, w.Canonical extractDouble d := by
  cases hv with
  | null =>
      obtain rfl := Except.ok.inj h
      exact ⟨1, hdefault 0⟩
  | object _ _ hvalues =>
      obtain rfl := Except.ok.inj h
      exact canonical_getD hvalues (hdefault _)
  | bool _ | int _ _ | uint _ _ | real _ | string _ | array _ => cases h

/-- A string that a document gives holds no byte 0xFF. -/
theorem asString_clean (hext : ConvertsDoubles extractDouble) (hv : v.Canonical extractDouble d)
    (h : v.asString = .ok s) : Clean s := by
  cases hv with
  | null => cases h; exact List.not_mem_nil
  | bool b => cases h; cases b <;> decide
  | int _ _ => cases h; exact valueToString_eq _ ▸ valueToString_clean _
  | uint _ _ => cases h; exact uintToString_eq _ ▸ uintToString_clean _
  | real hr => cases h; exact hext.asString _ _ hr
  | string hs => cases h; exact hs
  | array _ | object _ _ _ => cases h

/-- A number that a document gives fits into 32 bits. -/
theorem asUInt_lt (hext : ConvertsDoubles extractDouble) (hv : v.Canonical extractDouble d)
    (h : v.asUInt = .ok n) : n < 2 ^ 32 := by
  cases hv with
  | null => cases h; decide
  | bool b => cases h; cases b <;> decide
  | int _ _ =>
      rw [Value.asUInt] at h
      split at h
      · cases h; omega
      · cases h
  | uint _ _ =>
      rw [Value.asUInt] at h
      split at h
      · cases h; assumption
      · cases h
  | @real _ text r hr =>
      rw [Value.asUInt] at h
      cases hn : r.asUInt with
      | none => rw [hn] at h; cases h
      | some n' => rw [hn] at h; cases h; exact hext.asUInt text r n hr hn
  | string _ | array _ | object _ _ _ => cases h

/-- The same for the string under a key. -/
theorem stringAt_clean (hext : ConvertsDoubles extractDouble) (hv : v.Canonical extractDouble d)
    (h : v.stringAt key = .ok s) : Clean s := by
  obtain ⟨w, hw, h⟩ := Throwing.bind_eq_ok h
  obtain ⟨d', hw⟩ := canonical_index hv hw
  exact asString_clean hext hw h

/-- The same for the number under a key. -/
theorem uintAt_lt (hext : ConvertsDoubles extractDouble) (hv : v.Canonical extractDouble d)
    (h : v.uintAt key = .ok n) : n < 2 ^ 32 := by
  obtain ⟨w, hw, h⟩ := Throwing.bind_eq_ok h
  obtain ⟨d', hw⟩ := canonical_index hv hw
  exact asUInt_lt hext hw h

/-- The elements of what a file can hold. -/
theorem canonical_elems (hv : v.Canonical extractDouble d) :
    ∃ d, ∀ w ∈ v.elems, w.Canonical extractDouble d := by
  cases hv with
  | array helems => exact ⟨_, helems⟩
  | null | bool _ | int _ _ | uint _ _ | real _ | string _ | object _ _ _ =>
      exact ⟨0, List.forall_mem_nil _⟩

/-- What the elements have in common, their conversions have. -/
theorem forall_of_conversions {P : Bytes → Prop} {elems : List Value} {strings : List Bytes}
    (h : List.Forall₂ (fun v s => v.asString = .ok s) elems strings)
    (hP : ∀ v ∈ elems, ∀ s, v.asString = .ok s → P s) : ∀ s ∈ strings, P s := by
  induction h with
  | nil => exact List.forall_mem_nil _
  | @cons v s _ _ hs _ ih =>
      rw [List.forall_mem_cons] at hP
      exact List.forall_mem_cons.mpr ⟨hP.1 s hs, ih hP.2⟩

/-- A server entry that was decoded can be written and decoded again. -/
theorem ServerInfo.DecodedFrom.loadable (h : info.DecodedFrom v)
    (hext : ConvertsDoubles extractDouble) (hv : v.Canonical extractDouble d) :
    info.Loadable where
  kinds := h.kinds
  bind := stringAt_clean hext hv h.bind
  max_client := uintAt_lt hext hv h.max_client
  protocols := by
    obtain ⟨w, hw, -, hprotocols⟩ := h.protocols
    obtain ⟨d', hw⟩ := canonical_index hv hw
    obtain ⟨d'', helems⟩ := canonical_elems hw
    exact forall_of_conversions hprotocols fun x hx s hs => asString_clean hext (helems x hx) hs

/-- So can all entries of a server list. -/
theorem Entries.loadable {servers : List Value} {infos : List ServerInfo}
    (h : Entries servers infos) (hext : ConvertsDoubles extractDouble)
    (hservers : ∀ v ∈ servers, v.Canonical extractDouble d) : ∀ info ∈ infos, info.Loadable := by
  induction h with
  | nil => exact List.forall_mem_nil _
  | skipped _ _ ih => exact ih (List.forall_mem_cons.mp hservers).2
  | supported hinfo _ ih =>
      rw [List.forall_mem_cons] at hservers
      exact List.forall_mem_cons.mpr ⟨hinfo.loadable hext hservers.1, ih hservers.2⟩

/-- Decoded capabilities can be written and decoded again. -/
theorem Capabilities.DecodedFrom.loadable {capabilities : Capabilities}
    (h : capabilities.DecodedFrom v) (hext : ConvertsDoubles extractDouble)
    (hv : v.Canonical extractDouble d) : capabilities.Loadable where
  ssl_cert := stringAt_clean hext hv h.ssl_cert
  ssl_private_key := stringAt_clean hext hv h.ssl_private_key
  ssl_private_key_password := stringAt_clean hext hv h.ssl_private_key_password
  ssl_ca := stringAt_clean hext hv h.ssl_ca

/-- What is decoded of a value that a file can hold. -/
theorem JsonConfiguration.DecodedFrom.loadable (h : c.DecodedFrom v)
    (hext : ConvertsDoubles extractDouble) (hv : v.Canonical extractDouble d) : c.Loadable where
  name := by
    obtain ⟨w, hw, hname⟩ := h.name
    obtain ⟨d', hw⟩ := canonical_get hv (fun _ => .string (by decide)) hw
    exact asString_clean hext hw hname
  copyright := stringAt_clean hext hv h.copyright
  server_infos := by
    obtain ⟨w, hw, -, hentries⟩ := h.server_infos
    obtain ⟨d', hw⟩ := canonical_index hv hw
    obtain ⟨d'', helems⟩ := canonical_elems hw
    exact hentries.loadable hext helems
  capabilities := by
    obtain ⟨w, hw, hcapabilities⟩ := h.capabilities
    obtain ⟨d', hw⟩ := canonical_index hv hw
    exact hcapabilities.loadable hext hw
  directory := by
    obtain ⟨w, hw, hlog⟩ := h.log
    obtain ⟨d', hw⟩ := canonical_index hv hw
    exact stringAt_clean hext hw hlog.directory
  filesize := by
    obtain ⟨w, hw, hlog⟩ := h.log
    obtain ⟨d', hw⟩ := canonical_index hv hw
    exact uintAt_lt hext hw hlog.filesize

end

end

end AnyServer
