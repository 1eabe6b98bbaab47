import AnyServer.Library.Throwing
import AnyServer.ClientRegistry

/-!
# The Configuration

`Configuration` reads a JSON document with jsoncpp and decodes it into a
`JsonConfiguration`. Every access and every conversion of a `Json::Value` may throw; the
exception ends `__parse__`, and what has been assigned until then stays.

`Json.Value` is a value as jsoncpp keeps it. A real is given by what its conversions make
of it. The decoder also indexes the document through non-const references, which creates
null members where there are none; a null member reads like a missing one, so the model
leaves the document as it is.

## Main results

* `parse_appends`: decoding does not depend on what was decoded before, and appends to
  `server_infos`.
* `parse_keeps`: every entry that is decoded is of a known type.
-/

namespace AnyServer

/-! ### jsoncpp -/

namespace Json

/-- The results of the conversions of a `realValue`; `asUInt` is `none` out of range. -/
structure Real where
  asString : Bytes
  asBool : Bool
  asUInt : Option ℕ
  deriving DecidableEq, Repr

/-- `Json::Value`. -/
inductive Value
  | null
  | bool (b : Bool)
  | int (n : ℤ)
  | uint (n : ℕ)
  | real (r : Real)
  | string (s : Bytes)
  | array (elems : List Value)
  | object (members : List (Bytes × Value))

/-- `Json::LogicError`, by the assertion that fails. -/
inductive LogicError
  | notConvertibleToString
  | notConvertibleToBool
  | notConvertibleToUInt
  | outOfUIntRange
  | requiresObject
  | requiresArray
  deriving DecidableEq, Repr

/-- `Value::isNull`. -/
def Value.isNull : Value → Bool
  | .null => true
  | _ => false

/-- `Value::size`. -/
def Value.size : Value → ℕ
  | .array elems => elems.length
  | .object members => members.length
  | _ => 0

/-- `operator[]` with a key, and the null singleton for a key that is not there. -/
def Value.index (v : Value) (key : String) : Except LogicError Value :=
  match v with
  | .null => .ok .null
  | .object members => .ok ((members.lookup (ascii key)).getD .null)
  | _ => .error .requiresObject

/-- `operator[]` with an index. -/
def Value.at (v : Value) (index : ℕ) : Except LogicError Value :=
  match v with
  | .null => .ok .null
  | .array elems => .ok (elems[index]?.getD .null)
  | _ => .error .requiresArray

/-- `Value::get`: a member, or the default value if there is none. -/
def Value.get (v : Value) (key : String) (defaultValue : Value) : Except LogicError Value :=
  match v with
  | .null => .ok defaultValue
  | .object members => .ok ((members.lookup (ascii key)).getD defaultValue)
  | _ => .error .requiresObject

/-- `Value::asString`. -/
def Value.asString : Value → Except LogicError Bytes
  | .null => .ok []
  | .string s => .ok s
  | .bool b => .ok (if b then ascii "true" else ascii "false")
  | .int n => .ok (ascii (toString n))
  | .uint n => .ok (ascii (toString n))
  | .real r => .ok r.asString
  | .array _ => .error .notConvertibleToString
  | .object _ => .error .notConvertibleToString

/-- `Value::asBool`. -/
def Value.asBool : Value → Except LogicError Bool
  | .bool b => .ok b
  | .null => .ok false
  | .int n => .ok (n != 0)
  | .uint n => .ok (n != 0)
  | .real r => .ok r.asBool
  | .string _ => .error .notConvertibleToBool
  | .array _ => .error .notConvertibleToBool
  | .object _ => .error .notConvertibleToBool

/-- `Value::asUInt`. -/
def Value.asUInt : Value → Except LogicError ℕ
  | .int n => if 0 ≤ n ∧ n < 2 ^ 32 then .ok n.toNat else .error .outOfUIntRange
  | .uint n => if n < 2 ^ 32 then .ok n else .error .outOfUIntRange
  | .real r => r.asUInt.elim (.error .outOfUIntRange) .ok
  | .null => .ok 0
  | .bool b => .ok b.toNat
  | .string _ => .error .notConvertibleToUInt
  | .array _ => .error .notConvertibleToUInt
  | .object _ => .error .notConvertibleToUInt

/-! A member and its conversion. -/

/-- A member as a string. -/
def Value.stringAt (v : Value) (key : String) : Except LogicError Bytes := do
  (← v.index key).asString

/-- A member as a boolean. -/
def Value.boolAt (v : Value) (key : String) : Except LogicError Bool := do
  (← v.index key).asBool

/-- A member as an unsigned integer. -/
def Value.uintAt (v : Value) (key : String) : Except LogicError ℕ := do
  (← v.index key).asUInt

end Json

open Json (LogicError)

/-! ### The decoded configuration -/

/-- `Configuration::ServerKinds`. -/
inductive ServerKinds
  | WEBSOCKET
  | INETDS
  | UNIXDS
  | HTTP
  deriving DecidableEq, Repr

/-- `Configuration::ServerInfo`, with the defaults of its constructor. -/
structure ServerInfo where
  header : Bytes
  kinds : ServerKinds
  bind : Bytes := []
  enable : Bool := false
  tcp : Bool := true
  max_client : ℕ := 200
  protocols : List Bytes := []
  deriving DecidableEq, Repr

/-- `Configuration::Capabilities`. -/
structure Capabilities where
  enable_security : Bool := false
  ssl_cert : Bytes := []
  ssl_private_key : Bytes := []
  ssl_private_key_password : Bytes := []
  ssl_ca : Bytes := []
  deriving DecidableEq, Repr

/-- `Configuration::Log`. -/
structure Log where
  enable_debug : Bool := false
  enable_info : Bool := false
  enable_error : Bool := false
  enable_warn : Bool := false
  enable_filewrite : Bool := false
  directory : Bytes := []
  filesize : ℕ := 0
  deriving DecidableEq, Repr

/-- `Configuration::JsonConfiguration`. -/
structure JsonConfiguration where
  name : Bytes := []
  server_infos : List ServerInfo := []
  capabilities : Capabilities := {}
  log : Log := {}
  enable_echo_test : Bool := false
  copyright : Bytes := []
  deriving DecidableEq, Repr

/-- `m_server_kinds`, as the constructor fills it. -/
def serverKinds : List (Bytes × ServerKinds) :=
  [(ascii "websocket", .WEBSOCKET), (ascii "http", .HTTP), (ascii "inet_domainsocket", .INETDS),
    (ascii "unix_domainsocket", .UNIXDS)]

/-! ### Decoding -/

/-- The functions that decode into `m_configuration`. -/
abbrev Parse (α : Type) := Throwing JsonConfiguration LogicError α

/-- Convert a value and assign it to a member of `m_configuration`. -/
def assign {α : Type} (x : Except LogicError α) (f : JsonConfiguration → α → JsonConfiguration) :
    Parse Unit := do
  let a ← x
  modify (f · a)

/-- The protocols of an entry. -/
def subparseProtocols (protocols : Json.Value) : Except LogicError (List Bytes) :=
  if protocols.isNull then .ok []
  else (List.range protocols.size).mapM fun i => do
    let protocol ← protocols.at i
    protocol.asString

/-- The body of the loop of `__subparse_server_list__`; `none` is an unsupported type. -/
def subparseServer (server : Json.Value) : Except LogicError (Option ServerInfo) := do
  let type ← server.stringAt "type"
  match serverKinds.lookup type with
  | none => pure none
  | some kinds =>
      let enable ← server.boolAt "enable"
      let bind ← server.stringAt "bind"
      let tcp ← server.boolAt "tcp"
      let max_client ← server.uintAt "max_client"
      let protocols ← subparseProtocols (← server.index "protocols")
      pure (some { header := type, kinds, bind, enable, tcp, max_client, protocols })

/-- `m_configuration.server_infos.push_back`. -/
def JsonConfiguration.push_back (c : JsonConfiguration) (new_server : ServerInfo) :
    JsonConfiguration :=
  { c with server_infos := c.server_infos ++ [new_server] }

/-- `Configuration::__subparse_server_list__`. -/
def subparseServerList (root : Json.Value) : Parse Unit := do
  let server_list ← root.index "server_list"
  (List.range server_list.size).forM fun i => do
    let server ← server_list.at i
    let new_server ← subparseServer server
    match new_server with
    | none => pure ()
    | some new_server => modify (·.push_back new_server)

/-- `Configuration::__subparse_capabilities__`. -/
def subparseCapabilities (root : Json.Value) : Parse Unit := do
  let capabilities ← root.index "capabilities"
  assign (capabilities.boolAt "security") fun c enable_security =>
    { c with capabilities := { c.capabilities with enable_security } }
  assign (capabilities.stringAt "ssl_cert_file") fun c ssl_cert =>
    { c with capabilities := { c.capabilities with ssl_cert } }
  assign (capabilities.stringAt "ssl_private_key_file") fun c ssl_private_key =>
    { c with capabilities := { c.capabilities with ssl_private_key } }
  assign (capabilities.stringAt "ssl_private_key_password") fun c ssl_private_key_password =>
    { c with capabilities := { c.capabilities with ssl_private_key_password } }
  assign (capabilities.stringAt "ssl_ca_file") fun c ssl_ca =>
    { c with capabilities := { c.capabilities with ssl_ca } }

/-- `Configuration::__subparse_log__`. -/
def subparseLog (root : Json.Value) : Parse Unit := do
  let log ← root.index "log"
  assign (log.boolAt "enable_debug") fun c enable_debug =>
    { c with log := { c.log with enable_debug } }
  assign (log.boolAt "enable_info") fun c enable_info =>
    { c with log := { c.log with enable_info } }
  assign (log.boolAt "enable_error") fun c enable_error =>
    { c with log := { c.log with enable_error } }
  assign (log.boolAt "enable_warn") fun c enable_warn =>
    { c with log := { c.log with enable_warn } }
  assign (log.boolAt "enable_filewrite") fun c enable_filewrite =>
    { c with log := { c.log with enable_filewrite } }
  assign (log.stringAt "directory") fun c directory =>
    { c with log := { c.log with directory } }
  assign (log.uintAt "filesize") fun c filesize =>
    { c with log := { c.log with filesize } }

/-- `Configuration::__subparse_test__`. -/
def subparseTest (root : Json.Value) : Parse Unit := do
  let test ← root.index "test"
  assign (test.boolAt "echo") fun c enable_echo_test => { c with enable_echo_test }

/-- `Configuration::__subparse_common__`. -/
def subparseCommon (root : Json.Value) : Parse Unit :=
  assign (root.stringAt "copyright") fun c copyright => { c with copyright }

/-- `Configuration::__parse__`, once the document is read. -/
def parse (root : Json.Value) : Parse Unit := do
  let name ← root.get "name" (.string (ascii "anyserver"))
  assign name.asString fun c name => { c with name }
  subparseCommon root
  subparseServerList root
  subparseCapabilities root
  subparseLog root
  subparseTest root

/-- What the configuration file is when it is read: not there, not JSON, or a document. -/
inductive ConfigFile
  | missing
  | unparsable
  | parsed (root : Json.Value)

/-- `Configuration::init`, on `m_configuration`. The exceptions of `__parse__` are caught. -/
def JsonConfiguration.init (m_configuration : JsonConfiguration) :
    ConfigFile → Bool × JsonConfiguration
  | .missing => (false, m_configuration)
  | .unparsable => (false, m_configuration)
  | .parsed root =>
      match Throwing.exec (parse root) m_configuration with
      | (.ok (), m_configuration) => (true, m_configuration)
      | (.error _, m_configuration) => (false, m_configuration)

/-! ### What decoding does to the entries -/

section

open Throwing

variable {α : Type} {root : Json.Value}

/-- An assignment to another member leaves `server_infos` alone. -/
theorem appends_assign {x : Except LogicError α} {f : JsonConfiguration → α → JsonConfiguration}
    (h : ∀ c a, (f c a).server_infos = c.server_infos) :
    Appends JsonConfiguration.server_infos (assign x f) :=
  (appends_lift x).bind fun a => ⟨.ok (), [], fun c => by simp [h]⟩

/-- `subparseServerList` appends to the entries that are there, also when it throws. -/
theorem subparseServerList_appends :
    Appends JsonConfiguration.server_infos (subparseServerList root) := by
  refine (appends_lift _).bind fun server_list => appends_forM fun i => ?_
  refine (appends_lift _).bind fun server => (appends_lift _).bind fun new_server => ?_
  cases new_server with
  | none => exact appends_pure ()
  | some new_server => exact appends_modify fun c => rfl

/-- The rule of `__parse__`: what is closed under composition, and holds of conversions, of
assignments to members other than `server_infos` and of the decoding of `server_list`, holds
of `__parse__`. -/
theorem parse_rule {R : ∀ {α : Type}, Parse α → Prop}
    (hlift : ∀ {α : Type} (x : Except LogicError α), R (liftM x : Parse α))
    (hbind : ∀ {α β : Type} {p : Parse α} {f : α → Parse β}, R p → (∀ a, R (f a)) →
      R (p >>= f))
    (hassign : ∀ {α : Type} {x : Except LogicError α}
      {f : JsonConfiguration → α → JsonConfiguration},
      (∀ c a, (f c a).server_infos = c.server_infos) → R (assign x f))
    (hlist : R (subparseServerList root)) : R (parse root) := by
  refine hbind (hlift _) fun name => hbind (hassign fun _ _ => rfl) fun _ => ?_
  refine hbind (hassign fun _ _ => rfl) fun _ => hbind hlist fun _ => ?_
  refine hbind ?capabilities fun _ => hbind ?log fun _ => ?test
  case capabilities =>
    refine hbind (hlift _) fun capabilities => ?_
    refine hbind (hassign fun _ _ => rfl) fun _ => ?_
    refine hbind (hassign fun _ _ => rfl) fun _ => ?_
    refine hbind (hassign fun _ _ => rfl) fun _ => ?_
    refine hbind (hassign fun _ _ => rfl) fun _ => ?_
    exact hassign fun _ _ => rfl
  case log =>
    refine hbind (hlift _) fun log => ?_
    refine hbind (hassign fun _ _ => rfl) fun _ => ?_
    refine hbind (hassign fun _ _ => rfl) fun _ => ?_
    refine hbind (hassign fun _ _ => rfl) fun _ => ?_
    refine hbind (hassign fun _ _ => rfl) fun _ => ?_
    refine hbind (hassign fun _ _ => rfl) fun _ => ?_
    refine hbind (hassign fun _ _ => rfl) fun _ => ?_
    exact hassign fun _ _ => rfl
  case test => exact hbind (hlift _) fun test => hassign fun _ _ => rfl

/-- **Decoding only adds.** What it returns does not depend on what was decoded before, nor
do the entries that it appends to `server_infos`, also when it throws. -/
theorem parse_appends : Appends JsonConfiguration.server_infos (parse root) :=
  parse_rule (R := fun p => Appends JsonConfiguration.server_infos p)
    appends_lift .bind appends_assign subparseServerList_appends

/-! ### What is decoded -/

/-- The type of every entry is the one that its kind stands for. -/
def JsonConfiguration.Supported (c : JsonConfiguration) : Prop :=
  ∀ server_info ∈ c.server_infos, serverKinds.lookup server_info.header = some server_info.kinds

/-- An entry is decoded only if its type is known. -/
theorem subparseServer_supported {server : Json.Value} {server_info : ServerInfo}
    (h : subparseServer server = .ok (some server_info)) :
    serverKinds.lookup server_info.header = some server_info.kinds := by
  obtain ⟨type, -, h⟩ := bind_eq_ok h
  split at h
  · cases h
  · next kinds hkinds =>
      obtain ⟨enable, -, h⟩ := bind_eq_ok h
      obtain ⟨bind, -, h⟩ := bind_eq_ok h
      obtain ⟨tcp, -, h⟩ := bind_eq_ok h
      obtain ⟨max_client, -, h⟩ := bind_eq_ok h
      obtain ⟨value, -, h⟩ := bind_eq_ok h
      obtain ⟨protocols, -, h⟩ := bind_eq_ok h
      obtain rfl := Option.some.inj (Except.ok.inj h)
      exact hkinds

/-- An assignment that leaves the entries alone keeps them supported. -/
theorem keeps_assign {x : Except LogicError α} {f : JsonConfiguration → α → JsonConfiguration}
    (h : ∀ c a, (f c a).server_infos = c.server_infos) :
    Keeps JsonConfiguration.Supported (assign x f) := by
  refine (keeps_lift x).bind fun a => keeps_modify fun c hc => ?_
  rw [JsonConfiguration.Supported, h]
  exact hc

/-- Every entry that is appended is of a supported kind. -/
theorem subparseServerList_keeps :
    Keeps JsonConfiguration.Supported (subparseServerList root) := by
  refine (keeps_lift _).bind fun server_list => keeps_forM fun i => ?_
  refine (keeps_lift _).bind fun server => keeps_lift_bind fun new_server hserver => ?_
  cases new_server with
  | none => exact keeps_pure ()
  | some new_server =>
      refine keeps_modify fun c hc server_info hmem => ?_
      rcases List.mem_append.mp hmem with hmem | hmem
      · exact hc server_info hmem
      · obtain rfl := List.mem_singleton.mp hmem
        exact subparseServer_supported hserver

/-- **Every entry is of a known type**, also when decoding throws. -/
theorem parse_keeps : Keeps JsonConfiguration.Supported (parse root) :=
  parse_rule (R := fun p => Keeps JsonConfiguration.Supported p)
    keeps_lift .bind keeps_assign subparseServerList_keeps

end

end AnyServer
