import AnyServer.Configuration

/-!
# What Decodes

`DecodedFrom` says of a document, of an entry of its server list and of a list of protocols
what a decoded configuration has of it, conversion by conversion, with no order between
them. Decoding a document into a new configuration succeeds exactly if every conversion that
it needs does, and leaves the configuration so described.

The server list and the list of protocols of an entry are read by index. That suits an array,
and anything of size zero; a value with members has a size and no element to index.

## Main results

* `exec_parse_ok_iff`: when a document decodes, and to what.
-/

namespace AnyServer

open Throwing
open Json (LogicError)

/-! ### What is decoded -/

/-- The elements of an array. -/
def Json.Value.elems : Value → List Value
  | .array elems => elems
  | _ => []

/-- Reading by index goes well on an array, and where there is nothing to index. -/
def Json.Value.IsList (v : Value) : Prop :=
  ∀ members, v = .object members → members = []

/-- The entry is of a type that is not supported; nothing else of it is converted. -/
def Skipped (server : Json.Value) : Prop :=
  ∃ type, server.stringAt "type" = .ok type ∧ serverKinds.lookup type = none

/-- What is decoded of an entry of a supported type. -/
structure ServerInfo.DecodedFrom (server : Json.Value) (info : ServerInfo) : Prop where
  header : server.stringAt "type" = .ok info.header
  kinds : serverKinds.lookup info.header = some info.kinds
  enable : server.boolAt "enable" = .ok info.enable
  bind : server.stringAt "bind" = .ok info.bind
  tcp : server.boolAt "tcp" = .ok info.tcp
  max_client : server.uintAt "max_client" = .ok info.max_client
  protocols : ∃ value, server.index "protocols" = .ok value ∧ value.IsList ∧
    List.Forall₂ (fun v protocol => v.asString = .ok protocol) value.elems info.protocols

/-- The entries decoded from the elements of the server list, in their order. -/
inductive Entries : List Json.Value → List ServerInfo → Prop
  | nil : Entries [] []
  | skipped {server : Json.Value} {servers : List Json.Value} {infos : List ServerInfo} :
      Skipped server → Entries servers infos → Entries (server :: servers) infos
  | supported {server : Json.Value} {info : ServerInfo} {servers : List Json.Value}
      {infos : List ServerInfo} :
      info.DecodedFrom server → Entries servers infos →
        Entries (server :: servers) (info :: infos)

/-- The entries decoded from the server list of a document. -/
def EntriesOf (root : Json.Value) (infos : List ServerInfo) : Prop :=
  ∃ server_list, root.index "server_list" = .ok server_list ∧ server_list.IsList ∧
    Entries server_list.elems infos

/-- What is decoded of the section for the capabilities. -/
structure Capabilities.DecodedFrom (capabilities : Json.Value) (c : Capabilities) : Prop where
  enable_security : capabilities.boolAt "security" = .ok c.enable_security
  ssl_cert : capabilities.stringAt "ssl_cert_file" = .ok c.ssl_cert
  ssl_private_key : capabilities.stringAt "ssl_private_key_file" = .ok c.ssl_private_key
  ssl_private_key_password :
    capabilities.stringAt "ssl_private_key_password" = .ok c.ssl_private_key_password
  ssl_ca : capabilities.stringAt "ssl_ca_file" = .ok c.ssl_ca

/-- What is decoded of the section for the log. -/
structure Log.DecodedFrom (log : Json.Value) (l : Log) : Prop where
  enable_debug : log.boolAt "enable_debug" = .ok l.enable_debug
  enable_info : log.boolAt "enable_info" = .ok l.enable_info
  enable_error : log.boolAt "enable_error" = .ok l.enable_error
  enable_warn : log.boolAt "enable_warn" = .ok l.enable_warn
  enable_filewrite : log.boolAt "enable_filewrite" = .ok l.enable_filewrite
  directory : log.stringAt "directory" = .ok l.directory
  filesize : log.uintAt "filesize" = .ok l.filesize

/-- What is decoded of a document. -/
structure JsonConfiguration.DecodedFrom (root : Json.Value) (c : JsonConfiguration) : Prop where
  name : ∃ value, root.get "name" (.string (ascii "anyserver")) = .ok value ∧
    value.asString = .ok c.name
  copyright : root.stringAt "copyright" = .ok c.copyright
  server_infos : EntriesOf root c.server_infos
  capabilities : ∃ value, root.index "capabilities" = .ok value ∧
    c.capabilities.DecodedFrom value
  log : ∃ value, root.index "log" = .ok value ∧ c.log.DecodedFrom value
  enable_echo_test : ∃ value, root.index "test" = .ok value ∧
    value.boolAt "echo" = .ok c.enable_echo_test

section

variable {root server value : Json.Value} {c c' : JsonConfiguration} {α β : Type}
  {info : ServerInfo} {infos : List ServerInfo} {u : Unit}

/-! ### Reading by index -/

/-- Going over an array by index gives its elements. -/
theorem Json.map_getD_range (elems : List Json.Value) :
    (List.range elems.length).map (fun i => elems[i]?.getD .null) = elems := by
  refine List.ext_getElem (by simp) fun i h₁ h₂ => ?_
  simp [h₂]

/-- A value that is not an array has no size, or members and no elements. -/
theorem Json.Value.array_or (v : Json.Value) :
    (∃ elems, v = .array elems) ∨ v.elems = [] ∧
      (v.IsList ∧ v.size = 0 ∨
        ¬ v.IsList ∧ ∃ n, v.size = n + 1 ∧ v.at 0 = .error .requiresArray) := by
  cases v with
  | array elems => exact .inl ⟨elems, rfl⟩
  | object members =>
      cases members with
      | nil => exact .inr ⟨rfl, .inl ⟨by rintro _ ⟨⟩; rfl, rfl⟩⟩
      | cons m members =>
          refine .inr ⟨rfl, .inr ⟨fun h => ?_, members.length, rfl, rfl⟩⟩
          cases h _ rfl
  | null | bool _ | int _ | uint _ | real _ | string _ =>
      exact .inr ⟨rfl, .inl ⟨by rintro _ ⟨⟩, rfl⟩⟩

/-- An array is something that `size()` and the index go over. -/
theorem Json.Value.isList_array (elems : List Json.Value) : (Json.Value.array elems).IsList := by
  rintro _ ⟨⟩

/-- Conversions of what is read by index are conversions of the elements. -/
theorem mapM_at_ok_iff {v : Json.Value} {g : Json.Value → Except LogicError β} {ys : List β} :
    ((List.range v.size).mapM fun i => v.at i >>= g) = .ok ys ↔
      v.IsList ∧ List.Forall₂ (fun x y => g x = .ok y) v.elems ys := by
  rcases v.array_or with ⟨elems, rfl⟩ | ⟨helems, ⟨hlist, hsize⟩ | ⟨hlist, n, hsize, hat⟩⟩
  · have hmap : ((List.range elems.length).mapM fun i => (Json.Value.array elems).at i >>= g) =
        elems.mapM g := by
      conv_rhs => rw [← Json.map_getD_range elems, List.mapM_map]
      rfl
    rw [show (Json.Value.array elems).size = elems.length from rfl, hmap, mapM_ok_iff]
    exact ⟨fun h => ⟨Json.Value.isList_array elems, h⟩, fun h => h.2⟩
  · rw [hsize, helems, List.forall₂_nil_left_iff]
    exact ⟨fun h => ⟨hlist, (Except.ok.inj h).symm⟩, fun h => congrArg Except.ok h.2.symm⟩
  · rw [hsize, List.range_succ_eq_map, List.mapM_cons, hat]
    exact iff_of_false (fun h => by cases h) fun h => hlist h.1

/-- A loop over what is read by index is a loop over the elements. -/
theorem exec_forM_at_ok_iff {v : Json.Value} {g : Json.Value → Parse Unit} :
    exec ((List.range v.size).forM fun i => (liftM (v.at i) : Parse Json.Value) >>= g) c =
        (.ok (), c') ↔
      v.IsList ∧ exec (v.elems.forM g) c = (.ok (), c') := by
  rcases v.array_or with ⟨elems, rfl⟩ | ⟨helems, ⟨hlist, hsize⟩ | ⟨hlist, n, hsize, hat⟩⟩
  · have hmap : ((List.range elems.length).forM fun i =>
        (liftM ((Json.Value.array elems).at i) : Parse Json.Value) >>= g) = elems.forM g := by
      rw [List.forM_eq_forM, List.forM_eq_forM]
      conv_rhs => rw [← Json.map_getD_range elems, List.forM_map]
      rfl
    rw [show (Json.Value.array elems).size = elems.length from rfl, hmap]
    exact ⟨fun h => ⟨Json.Value.isList_array elems, h⟩, fun h => h.2⟩
  · rw [hsize, helems]
    exact ⟨fun h => ⟨hlist, h⟩, fun h => h.2⟩
  · rw [hsize, List.range_succ_eq_map, List.forM_eq_forM, List.forM_cons, hat]
    exact iff_of_false (fun h => by cases h) fun h => hlist h.1

/-! ### Entries -/

/-- The protocols are decoded exactly when the value is a list of strings, and are these strings.
-/
theorem subparseProtocols_ok_iff {protocols : List Bytes} :
    subparseProtocols value = .ok protocols ↔
      value.IsList ∧ List.Forall₂ (fun v p => v.asString = .ok p) value.elems protocols := by
  cases hnull : value.isNull with
  | true =>
      obtain rfl : value = .null := by
        cases value <;> first | rfl | cases hnull
      rw [show Json.Value.elems .null = [] from rfl, List.forall₂_nil_left_iff]
      constructor
      · intro h
        exact ⟨by rintro _ ⟨⟩, (Except.ok.inj h).symm⟩
      · rintro ⟨-, rfl⟩
        rfl
  | false =>
      rw [subparseProtocols, hnull]
      exact mapM_at_ok_iff

/-- Decoding one entry. -/
theorem subparseServer_ok_iff {o : Option ServerInfo} :
    subparseServer server = .ok o ↔
      o = none ∧ Skipped server ∨ ∃ info, o = some info ∧ info.DecodedFrom server := by
  rw [subparseServer, bind_ok_iff]
  constructor
  · rintro ⟨type, htype, h⟩
    cases hkinds : serverKinds.lookup type with
    | none =>
        rw [hkinds] at h
        exact .inl ⟨(Except.ok.inj h).symm, type, htype, hkinds⟩
    | some kinds =>
        rw [hkinds] at h
        obtain ⟨enable, henable, h⟩ := bind_eq_ok h
        obtain ⟨bind, hbind, h⟩ := bind_eq_ok h
        obtain ⟨tcp, htcp, h⟩ := bind_eq_ok h
        obtain ⟨max_client, hmax, h⟩ := bind_eq_ok h
        obtain ⟨value, hvalue, h⟩ := bind_eq_ok h
        obtain ⟨protocols, hprotocols, h⟩ := bind_eq_ok h
        exact .inr ⟨_, (Except.ok.inj h).symm, htype, hkinds, henable, hbind, htcp, hmax, value,
          hvalue, subparseProtocols_ok_iff.mp hprotocols⟩
  · rintro (⟨rfl, type, htype, hkinds⟩ | ⟨info, rfl, hinfo⟩)
    · refine ⟨type, htype, ?_⟩
      rw [hkinds]
      rfl
    · obtain ⟨value, hvalue, hprotocols⟩ := hinfo.protocols
      refine ⟨info.header, hinfo.header, ?_⟩
      rw [hinfo.kinds]
      simp only [hinfo.enable, hinfo.bind, hinfo.tcp, hinfo.max_client, hvalue,
        subparseProtocols_ok_iff.mpr hprotocols, bind, Except.bind]
      rfl

/-- The body of the loop over the server list. -/
theorem exec_subparseServer_ok_iff :
    exec ((liftM (subparseServer server) : Parse (Option ServerInfo)) >>= fun new_server =>
        match new_server with
        | none => pure ()
        | some new_server => modify (·.push_back new_server)) c = (.ok u, c') ↔
      Skipped server ∧ c' = c ∨ ∃ info, info.DecodedFrom server ∧ c' = c.push_back info := by
  rw [exec_lift_bind_ok_iff]
  constructor
  · rintro ⟨o, hserver, h⟩
    rcases subparseServer_ok_iff.mp hserver with ⟨rfl, hskipped⟩ | ⟨info, rfl, hinfo⟩
    · exact .inl ⟨hskipped, (Prod.mk.inj h).2.symm⟩
    · exact .inr ⟨info, hinfo, (Prod.mk.inj h).2.symm⟩
  · rintro (⟨hskipped, rfl⟩ | ⟨info, hinfo, rfl⟩)
    · exact ⟨none, subparseServer_ok_iff.mpr (.inl ⟨rfl, hskipped⟩), rfl⟩
    · exact ⟨some info, subparseServer_ok_iff.mpr (.inr ⟨info, rfl, hinfo⟩), rfl⟩

/-- The loop over the elements of the server list. -/
theorem exec_subparseServers_ok_iff {servers : List Json.Value} :
    exec (servers.forM fun server =>
        (liftM (subparseServer server) : Parse (Option ServerInfo)) >>= fun new_server =>
          match new_server with
          | none => pure ()
          | some new_server => modify (·.push_back new_server)) c = (.ok (), c') ↔
      ∃ infos, Entries servers infos ∧ c' = { c with server_infos := c.server_infos ++ infos } := by
  induction servers generalizing c with
  | nil =>
      constructor
      · intro h
        exact ⟨[], .nil, by rw [List.append_nil]; exact (Prod.mk.inj h).2.symm⟩
      · rintro ⟨infos, ⟨⟩, rfl⟩
        rw [List.append_nil]
        rfl
  | cons server servers ih =>
      rw [List.forM_eq_forM, List.forM_cons, exec_bind_ok_iff, ← List.forM_eq_forM]
      constructor
      · rintro ⟨_, c₁, hserver, hrest⟩
        obtain ⟨infos, hinfos, rfl⟩ := ih.mp hrest
        rcases exec_subparseServer_ok_iff.mp hserver with ⟨hskipped, rfl⟩ | ⟨info, hinfo, rfl⟩
        · exact ⟨infos, .skipped hskipped hinfos, rfl⟩
        · refine ⟨info :: infos, .supported hinfo hinfos, ?_⟩
          rw [JsonConfiguration.push_back, List.append_assoc, List.singleton_append]
      · rintro ⟨infos, hinfos, rfl⟩
        cases hinfos with
        | skipped hskipped hinfos =>
            exact ⟨(), c, exec_subparseServer_ok_iff.mpr (.inl ⟨hskipped, rfl⟩),
              ih.mpr ⟨infos, hinfos, rfl⟩⟩
        | @supported _ info _ infos hinfo hinfos =>
            refine ⟨(), c.push_back info,
              exec_subparseServer_ok_iff.mpr (.inr ⟨info, hinfo, rfl⟩),
              ih.mpr ⟨infos, hinfos, ?_⟩⟩
            rw [JsonConfiguration.push_back, List.append_assoc, List.singleton_append]

/-- The server list is decoded exactly when all its entries are, and they are appended in order. -/
theorem exec_subparseServerList_ok_iff :
    exec (subparseServerList root) c = (.ok u, c') ↔
      ∃ infos, EntriesOf root infos ∧
        c' = { c with server_infos := c.server_infos ++ infos } := by
  rw [subparseServerList, exec_lift_bind_ok_iff]
  constructor
  · rintro ⟨server_list, hlist, h⟩
    obtain ⟨his, hloop⟩ := exec_forM_at_ok_iff.mp h
    obtain ⟨infos, hinfos, rfl⟩ := exec_subparseServers_ok_iff.mp hloop
    exact ⟨infos, ⟨server_list, hlist, his, hinfos⟩, rfl⟩
  · rintro ⟨infos, ⟨server_list, hlist, his, hinfos⟩, rfl⟩
    exact ⟨server_list, hlist,
      exec_forM_at_ok_iff.mpr ⟨his, exec_subparseServers_ok_iff.mpr ⟨infos, hinfos, rfl⟩⟩⟩

/-! ### The whole document -/

/-- An assignment returns exactly when its value is decoded. -/
theorem exec_assign_ok_iff {x : Except LogicError α}
    {f : JsonConfiguration → α → JsonConfiguration} :
    exec (assign x f) c = (.ok u, c') ↔ ∃ a, x = .ok a ∧ c' = f c a := by
  rw [assign, exec_lift_bind_ok_iff]
  simp only [exec_modify, Prod.mk.injEq, true_and, eq_comm]

/-- An assignment and what follows it. -/
theorem exec_assign_bind_ok_iff {x : Except LogicError α}
    {f : JsonConfiguration → α → JsonConfiguration} {g : Unit → Parse Unit} :
    exec (assign x f >>= g) c = (.ok u, c') ↔
      ∃ a, x = .ok a ∧ exec (g ()) (f c a) = (.ok u, c') := by
  rw [exec_bind_ok_iff]
  constructor
  · rintro ⟨_, _, hassign, h⟩
    obtain ⟨a, ha, rfl⟩ := exec_assign_ok_iff.mp hassign
    exact ⟨a, ha, h⟩
  · rintro ⟨a, ha, h⟩
    exact ⟨(), _, exec_assign_ok_iff.mpr ⟨a, ha, rfl⟩, h⟩

/-- The capabilities are decoded exactly when each of them is. -/
theorem exec_subparseCapabilities_ok_iff :
    exec (subparseCapabilities root) c = (.ok u, c') ↔
      ∃ value capabilities, root.index "capabilities" = .ok value ∧
        Capabilities.DecodedFrom value capabilities ∧ c' = { c with capabilities } := by
  simp only [subparseCapabilities, exec_lift_bind_ok_iff, exec_assign_bind_ok_iff,
    exec_assign_ok_iff]
  constructor
  · rintro ⟨value, hvalue, _, hsecurity, _, hcert, _, hkey, _, hpassword, _, hca, rfl⟩
    exact ⟨value, _, hvalue, ⟨hsecurity, hcert, hkey, hpassword, hca⟩, rfl⟩
  · rintro ⟨value, capabilities, hvalue, h, rfl⟩
    exact ⟨value, hvalue, _, h.enable_security, _, h.ssl_cert, _, h.ssl_private_key, _,
      h.ssl_private_key_password, _, h.ssl_ca, rfl⟩

/-- The log settings are decoded exactly when each of them is. -/
theorem exec_subparseLog_ok_iff :
    exec (subparseLog root) c = (.ok u, c') ↔
      ∃ value log, root.index "log" = .ok value ∧ Log.DecodedFrom value log ∧
        c' = { c with log } := by
  simp only [subparseLog, exec_lift_bind_ok_iff, exec_assign_bind_ok_iff, exec_assign_ok_iff]
  constructor
  · rintro ⟨value, hvalue, _, hdebug, _, hinfo, _, herror, _, hwarn, _, hfilewrite, _,
      hdirectory, _, hfilesize, rfl⟩
    exact ⟨value, _, hvalue,
      ⟨hdebug, hinfo, herror, hwarn, hfilewrite, hdirectory, hfilesize⟩, rfl⟩
  · rintro ⟨value, log, hvalue, h, rfl⟩
    exact ⟨value, hvalue, _, h.enable_debug, _, h.enable_info, _, h.enable_error, _,
      h.enable_warn, _, h.enable_filewrite, _, h.directory, _, h.filesize, rfl⟩

/-- The test settings are decoded exactly when the echo switch is. -/
theorem exec_subparseTest_ok_iff :
    exec (subparseTest root) c = (.ok u, c') ↔
      ∃ value enable_echo_test, root.index "test" = .ok value ∧
        value.boolAt "echo" = .ok enable_echo_test ∧ c' = { c with enable_echo_test } := by
  simp only [subparseTest, exec_lift_bind_ok_iff, exec_assign_ok_iff]
  constructor
  · rintro ⟨value, hvalue, _, hecho, rfl⟩
    exact ⟨value, _, hvalue, hecho, rfl⟩
  · rintro ⟨value, _, hvalue, hecho, rfl⟩
    exact ⟨value, hvalue, _, hecho, rfl⟩

/-- **What decodes.** A document decodes into a new configuration without an exception exactly
if every conversion that it needs succeeds, and the configuration then has what they return. -/
theorem exec_parse_ok_iff : exec (parse root) {} = (.ok (), c) ↔ c.DecodedFrom root := by
  simp only [parse, subparseCommon, exec_lift_bind_ok_iff, exec_assign_bind_ok_iff]
  simp only [exec_bind_ok_iff, exec_subparseServerList_ok_iff,
    exec_subparseCapabilities_ok_iff, exec_subparseLog_ok_iff, exec_subparseTest_ok_iff]
  constructor
  · rintro ⟨value, hvalue, _, hname, _, hcopyright, _, _, ⟨_, hinfos, rfl⟩, _, _,
      ⟨_, _, hc, hcapabilities, rfl⟩, _, _, ⟨_, _, hl, hlog, rfl⟩, _, _, htest, hecho, rfl⟩
    exact ⟨⟨value, hvalue, hname⟩, hcopyright, hinfos, ⟨_, hc, hcapabilities⟩, ⟨_, hl, hlog⟩,
      ⟨_, htest, hecho⟩⟩
  · intro h
    obtain ⟨value, hvalue, hname⟩ := h.name
    obtain ⟨_, hc, hcapabilities⟩ := h.capabilities
    obtain ⟨_, hl, hlog⟩ := h.log
    obtain ⟨_, htest, hecho⟩ := h.enable_echo_test
    exact ⟨value, hvalue, _, hname, _, h.copyright, (), _, ⟨_, h.server_infos, rfl⟩, (), _,
      ⟨_, _, hc, hcapabilities, rfl⟩, (), _, ⟨_, _, hl, hlog, rfl⟩, _, _, htest, hecho, rfl⟩

end

end AnyServer
