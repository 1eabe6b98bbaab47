import AnyServer.Library.CString
import AnyServer.Library.Throwing
import AnyServer.Threads

/-!
# Initialising a Server

Each of the six classes has an `init` that turns `m_bind` into an address and makes the
system calls, or the calls of libwebsockets, that open the server. `ServerSettings` is what
a server has been constructed with and told before that; `InitResults` are the results of
the calls, and the calls made are the state of the computation, with their arguments.

Four of the six turn `m_bind` into a number with `std::stoi`, which throws when it is not
one; nothing in `init` catches that, so that a call of `init` can end in three ways
(`ServerSettings.initResult`).

The two libwebsockets classes store what `lws_create_context` returns to a static member of
the class, `m_context`.

## Main results

* `storesContext_eq`: what `init` stores to `m_context`.
-/

namespace AnyServer

open Throwing

/-! ### `std::stoi` -/

/-- The exceptions of `std::stoi`. -/
inductive StdException
  | invalid_argument
  | out_of_range
  deriving DecidableEq, Repr

/-- `isspace` in the "C" locale. -/
def isspace (c : UInt8) : Bool :=
  c = 32 ∨ 9 ≤ c ∧ c ≤ 13

/-- `isdigit`. -/
def isdigit (c : UInt8) : Bool :=
  48 ≤ c ∧ c ≤ 57

/-- The value of a string of decimal digits. -/
def decimal (digits : Bytes) : ℤ :=
  digits.foldl (fun n c => 10 * n + (c.toNat - 48)) 0

/-- `std::stoi` in base ten: `strtol` on the C string, with its value checked to be an
`int`. What follows the digits is not looked at. -/
def stoi (str : Bytes) : Except StdException ℤ :=
  let s := (CString.read 0 str).dropWhile isspace
  let negative := s.head? = some 45
  let digits := (if negative ∨ s.head? = some 43 then s.tail else s).takeWhile isdigit
  let value := if negative then - decimal digits else decimal digits
  if digits = [] then .error .invalid_argument
  else if -2 ^ 31 ≤ value ∧ value < 2 ^ 31 then .ok value
  else .error .out_of_range

example : stoi (ascii " +80/tcp") = .ok 80 := by decide

/-! ### Servers before they run -/

/-- What `setCertification` stores. -/
structure Certification where
  m_security : Bool := false
  m_cert_file : Bytes := []
  m_private_key_file : Bytes := []
  m_private_key_password : Bytes := []
  m_ca_file : Bytes := []
  deriving DecidableEq, Repr

/-- What a server of the given class has been constructed with and told. `protocols` is what
`addProtocols` was called with, if it was. -/
structure ServerSettings where
  kind : ServerKind
  m_name : Bytes
  m_bind : Bytes
  m_tcp : Bool
  m_max_client : ℕ
  protocols : Option (List Bytes) := none
  certification : Certification := {}
  deriving DecidableEq, Repr

/-- The address passed to `bind`: a port in host order, or the bytes copied to `sun_path`. -/
inductive BindAddr
  | inet (sin_port : ℕ)
  | unix (sun_path : Bytes)
  deriving DecidableEq, Repr

/-- The calls that `init` makes, with the arguments that come from the settings. -/
inductive InitCall
  | epoll_create (size : ℕ)
  | unlink (path : Bytes)
  | socket (inet stream : Bool)
  | bind (addr : BindAddr)
  | listen (backlog : ℕ)
  | epoll_ctl (fd : ℤ)
  | close (fd : ℤ)
  | lws_create_context (port : ℤ) (certification : Certification)
  | lws_create_vhost
  deriving DecidableEq, Repr

/-- The results of the calls; a pointer is given by whether it is set. -/
structure InitResults where
  epoll_create : ℤ
  access : ℤ
  socket : ℤ
  bind : ℤ
  listen : ℤ
  epoll_ctl : ℤ
  lws_create_context : Bool
  lws_create_vhost : Bool
  deriving DecidableEq, Repr

/-- A computation that makes calls. -/
abbrev Init (α : Type) := Throwing (List InitCall) StdException α

/-- A call that `init` makes. -/
def call (c : InitCall) : Init Unit :=
  modify (· ++ [c])

/-- A call of `init()` is logged. -/
@[simp] theorem exec_call {c : InitCall} {calls : List InitCall} :
    exec (call c) calls = (.ok (), calls ++ [c]) := rfl

/-- `htons` of an `int`, read back in host order. -/
def htons (n : ℤ) : ℕ :=
  (n % 2 ^ 16).toNat

/-- What `strcpy` of `m_bind` to `sun_path` writes. -/
def sunPath (m_bind : Bytes) : Bytes :=
  CString.read 0 m_bind ++ [0]

/-! ### The six `init`s -/

/-- `InetDomainSocketTcpServer::init`. -/
def InetDomainSocketTcpServer.init (server : ServerSettings) (sys : InitResults) : Init Bool := do
  call (.epoll_create server.m_max_client)
  if 0 > sys.epoll_create then return false
  call (.socket true true)
  if 0 > sys.socket then
    call (.close sys.socket)
    return false
  let port ← stoi server.m_bind
  call (.bind (.inet (htons port)))
  if -1 = sys.bind then
    call (.close sys.socket)
    return false
  call (.listen (2 * 1024))
  call (.epoll_ctl sys.socket)
  if 0 > sys.epoll_ctl then return false
  return true

/-- `UnixDomainSocketTcpServer::init`. -/
def UnixDomainSocketTcpServer.init (server : ServerSettings) (sys : InitResults) : Init Bool := do
  call (.epoll_create server.m_max_client)
  if 0 > sys.epoll_create then return false
  if sys.access = 0 then call (.unlink (CString.read 0 server.m_bind))
  call (.socket false true)
  if -1 = sys.socket then
    call (.close sys.socket)
    return false
  call (.bind (.unix (sunPath server.m_bind)))
  if 0 > sys.bind then return false
  call (.listen (2 * 1024))
  if 0 > sys.listen then return false
  call (.epoll_ctl sys.socket)
  if 0 > sys.epoll_ctl then return false
  return true

/-- `InetDomainSocketUdpServer::init`. -/
def InetDomainSocketUdpServer.init (server : ServerSettings) (sys : InitResults) : Init Bool := do
  let port ← stoi server.m_bind
  call (.socket true false)
  if 0 > sys.socket then return false
  call (.bind (.inet (htons port)))
  if 0 > sys.bind then return false
  return true

/-- `UnixDomainSocketUdpServer::init`. -/
def UnixDomainSocketUdpServer.init (server : ServerSettings) (sys : InitResults) : Init Bool := do
  if 0 = sys.access then call (.unlink (CString.read 0 server.m_bind))
  call (.socket false false)
  if 0 > sys.socket then return false
  call (.bind (.unix (sunPath server.m_bind)))
  if 0 > sys.bind then return false
  return true

/-- `HttpTcpServer::init`. -/
def HttpTcpServer.init (server : ServerSettings) (sys : InitResults) : Init Bool := do
  let port ← stoi server.m_bind
  call (.lws_create_context port server.certification)
  if sys.lws_create_context = false then return false
  return true

/-- `WebSocketTcpServer::init`. -/
def WebSocketTcpServer.init (server : ServerSettings) (sys : InitResults) : Init Bool := do
  let port ← stoi server.m_bind
  call (.lws_create_context port server.certification)
  if sys.lws_create_context = false then return false
  call .lws_create_vhost
  if sys.lws_create_vhost = false then return false
  return true

/-- The virtual `init`. -/
def ServerSettings.init (server : ServerSettings) : InitResults → Init Bool :=
  match server.kind with
  | .inetDomainSocketTcpServer => InetDomainSocketTcpServer.init server
  | .unixDomainSocketTcpServer => UnixDomainSocketTcpServer.init server
  | .inetDomainSocketUdpServer => InetDomainSocketUdpServer.init server
  | .unixDomainSocketUdpServer => UnixDomainSocketUdpServer.init server
  | .httpTcpServer => HttpTcpServer.init server
  | .webSocketTcpServer => WebSocketTcpServer.init server

/-- What a call of `init` returns or throws. -/
def ServerSettings.initResult (server : ServerSettings) (sys : InitResults) :
    Except StdException Bool :=
  (exec (server.init sys) []).1

/-! ### Contexts -/

/-- The call creates a context. -/
def InitCall.createsContext : InitCall → Bool
  | .lws_create_context _ _ => true
  | _ => false

/-- What `init` stores to the static `m_context` of its class, if it comes to that: a context,
or a null pointer where `lws_create_context` fails. -/
def ServerSettings.storesContext (server : ServerSettings) (sys : InitResults) : Option Bool :=
  if (exec (server.init sys) []).2.any InitCall.createsContext then some sys.lws_create_context
  else none

section

variable {server : ServerSettings} {sys : InitResults}

/-- A call that creates no context leaves the log without one. -/
theorem keeps_call {c : InitCall} (hc : c.createsContext = false) :
    Keeps (fun calls : List InitCall => calls.any InitCall.createsContext = false) (call c) :=
  keeps_modify fun calls h => by simpa [hc] using h

/-- The socket servers create no context. -/
theorem keeps_init (hk : server.kind.service = false) :
    Keeps (fun calls : List InitCall => calls.any InitCall.createsContext = false)
      (server.init sys) := by
  unfold ServerSettings.init InetDomainSocketTcpServer.init UnixDomainSocketTcpServer.init
    InetDomainSocketUdpServer.init UnixDomainSocketUdpServer.init
  cases hkind : server.kind with
  | httpTcpServer | webSocketTcpServer =>
      rw [hkind] at hk
      cases hk
  | inetDomainSocketTcpServer | unixDomainSocketTcpServer | inetDomainSocketUdpServer |
      unixDomainSocketUdpServer =>
      dsimp only
      repeat' first
        | with_reducible exact keeps_pure _
        | with_reducible refine keeps_call ?_
        | with_reducible exact keeps_lift _
        | with_reducible refine Keeps.bind ?_ fun _ => ?_
        | split
        | rfl

/-- What `init()` of the HTTP server does. -/
theorem HttpTcpServer.exec_init : exec (HttpTcpServer.init server sys) [] =
    match stoi server.m_bind with
    | .error e => (.error e, [])
    | .ok port =>
        (.ok sys.lws_create_context, [.lws_create_context port server.certification]) := by
  simp only [HttpTcpServer.init, call, exec_bind, exec_lift, exec_modify]
  cases stoi server.m_bind with
  | error e => rfl
  | ok port => cases sys.lws_create_context <;> rfl

/-- What `init()` of the WebSocket server does. -/
theorem WebSocketTcpServer.exec_init : exec (WebSocketTcpServer.init server sys) [] =
    match stoi server.m_bind with
    | .error e => (.error e, [])
    | .ok port =>
        (.ok (sys.lws_create_context && sys.lws_create_vhost),
          .lws_create_context port server.certification ::
            if sys.lws_create_context then [.lws_create_vhost] else []) := by
  simp only [WebSocketTcpServer.init, call, exec_bind, exec_lift, exec_modify]
  cases stoi server.m_bind with
  | error e => rfl
  | ok port => cases sys.lws_create_context <;> cases sys.lws_create_vhost <;> rfl

/-- **What an `init` stores to `m_context`**: nothing where the port is not a number. -/
theorem storesContext_eq : server.storesContext sys =
    if server.kind.service ∧ (stoi server.m_bind).isOk then some sys.lws_create_context
    else none := by
  cases hk : server.kind.service with
  | false =>
      rw [ServerSettings.storesContext, keeps_init hk [] rfl]
      rfl
  | true =>
      have hcalls : (exec (server.init sys) []).2.any InitCall.createsContext =
          (stoi server.m_bind).isOk := by
        cases hkind : server.kind with
        | inetDomainSocketTcpServer | unixDomainSocketTcpServer | inetDomainSocketUdpServer |
            unixDomainSocketUdpServer =>
            rw [hkind] at hk
            cases hk
        | httpTcpServer =>
            simp only [ServerSettings.init, hkind, HttpTcpServer.exec_init]
            cases stoi server.m_bind <;> rfl
        | webSocketTcpServer =>
            simp only [ServerSettings.init, hkind, WebSocketTcpServer.exec_init]
            cases stoi server.m_bind <;> rfl
      rw [ServerSettings.storesContext, hcalls]
      simp

/-- An lws server whose `init` returns `true` has a context. -/
theorem storesContext_of_true (hk : server.kind.service = true)
    (h : server.initResult sys = .ok true) : server.storesContext sys = some true := by
  have hok : (stoi server.m_bind).isOk ∧ sys.lws_create_context = true := by
    cases hkind : server.kind with
    | inetDomainSocketTcpServer | unixDomainSocketTcpServer | inetDomainSocketUdpServer |
        unixDomainSocketUdpServer =>
        rw [hkind] at hk
        cases hk
    | httpTcpServer =>
        simp only [ServerSettings.initResult, ServerSettings.init, hkind,
          HttpTcpServer.exec_init] at h
        cases hstoi : stoi server.m_bind <;> simp_all [Except.isOk, Except.toBool]
    | webSocketTcpServer =>
        simp only [ServerSettings.initResult, ServerSettings.init, hkind,
          WebSocketTcpServer.exec_init] at h
        cases hstoi : stoi server.m_bind <;> simp_all [Except.isOk, Except.toBool]
  rw [storesContext_eq, if_pos ⟨hk, hok.1⟩, hok.2]

end

end AnyServer
