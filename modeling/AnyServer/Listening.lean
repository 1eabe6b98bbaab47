import AnyServer.ServerFactory

/-!
# Where Servers Listen

The socket servers turn the text of `m_bind` into the address that they pass to `bind`. For
the inet servers that is `std::stoi`, which passes over blanks in front of the number and over
whatever follows it, and then the low sixteen bits of what it returns. For the unix servers it
is `strcpy` to the 108 bytes of `sun_path`, which stops at a NUL inside the text and does not
stop at the end of the array.

## Main results

* `bindsAsConfigured_iff`: when an `init` that comes to its `bind` passes the address that was
  configured.
-/

namespace AnyServer

open Throwing

/-! ### The address that is configured -/

/-- A decimal numeral, with nothing around it. -/
def IsNumeral (str : Bytes) : Prop :=
  str ≠ [] ∧ ∀ c ∈ str, isdigit c = true

/-- `sizeof(sockaddr_un::sun_path)`. -/
def sunPathSize : ℕ := 108

/-- The address is the one that `m_bind` says: as a whole the numeral of the port, or a path
that fits into `sun_path` together with its NUL, with nothing written past the end. -/
def BindAddr.Denotes (m_bind : Bytes) : BindAddr → Prop
  | .inet sin_port => IsNumeral m_bind ∧ decimal m_bind ≤ 65535 ∧ decimal m_bind = sin_port
  | .unix sun_path =>
      m_bind.length + 1 ≤ sunPathSize ∧ sun_path.length ≤ sunPathSize ∧
        CString.read 0 sun_path = m_bind

/-- If `init` comes to its `bind`, then with the address that is configured. -/
def ServerSettings.BindsAsConfigured (server : ServerSettings) (sys : InitResults) : Prop :=
  ∀ addr, InitCall.bind addr ∈ (exec (server.init sys) []).2 → addr.Denotes server.m_bind

/-- `stoi` throws, or the text is the numeral of a port. -/
def PortUsable (m_bind : Bytes) : Prop :=
  (∀ port, stoi m_bind ≠ .ok port) ∨ IsNumeral m_bind ∧ decimal m_bind ≤ 65535

/-- The text has no NUL in it and leaves room for one. -/
def PathUsable (m_bind : Bytes) : Prop :=
  0 ∉ m_bind ∧ m_bind.length < sunPathSize

/-- The text is one that the class gets right, or a call before `bind` fails. -/
def ServerSettings.BindUsable (server : ServerSettings) (sys : InitResults) : Prop :=
  match server.kind with
  | .inetDomainSocketTcpServer =>
      sys.epoll_create < 0 ∨ sys.socket < 0 ∨ PortUsable server.m_bind
  | .unixDomainSocketTcpServer =>
      sys.epoll_create < 0 ∨ sys.socket = -1 ∨ PathUsable server.m_bind
  | .inetDomainSocketUdpServer => sys.socket < 0 ∨ PortUsable server.m_bind
  | .unixDomainSocketUdpServer => sys.socket < 0 ∨ PathUsable server.m_bind
  | .httpTcpServer | .webSocketTcpServer => True

section

variable {server : ServerSettings} {sys : InitResults} {addr : BindAddr} {str digits : Bytes}

/-! ### Numerals and paths -/

/-- Digits without a sign are not negative. -/
theorem decimal_nonneg (h : ∀ c ∈ digits, isdigit c = true) : 0 ≤ decimal digits := by
  have hfold : ∀ n : ℤ, 0 ≤ n →
      0 ≤ digits.foldl (fun n c => 10 * n + ((c.toNat : ℤ) - 48)) n := by
    induction digits with
    | nil => exact fun n hn => hn
    | cons c digits ih =>
        rw [List.forall_mem_cons] at h
        intro n hn
        have hc : 48 ≤ c ∧ c ≤ 57 := by simpa [isdigit] using h.1
        have hc : 48 ≤ c.toNat := UInt8.le_iff_toNat_le.mp hc.1
        have hn' : 0 ≤ 10 * n + ((c.toNat : ℤ) - 48) := by omega
        exact ih h.2 _ hn'
  exact hfold 0 (Int.le_refl 0)

/-- A digit is neither a terminator nor a blank nor a sign. -/
theorem ne_of_isdigit {c : UInt8} (h : isdigit c = true) :
    c ≠ 0 ∧ isspace c = false ∧ c ≠ 45 ∧ c ≠ 43 := by
  have hc : 48 ≤ c ∧ c ≤ 57 := by simpa [isdigit] using h
  have hlow : 48 ≤ c.toNat := UInt8.le_iff_toNat_le.mp hc.1
  have hne : ∀ d : UInt8, d.toNat < 48 → c ≠ d := by
    rintro d hd rfl
    omega
  refine ⟨hne 0 (by decide), ?_, hne 45 (by decide), hne 43 (by decide)⟩
  have hspace : ¬ (c = 32 ∨ 9 ≤ c ∧ c ≤ 13) := by
    rintro (hc | ⟨-, hc⟩)
    · exact hne 32 (by decide) hc
    · have hc : c.toNat ≤ 13 := UInt8.le_iff_toNat_le.mp hc
      omega
  simpa [isspace] using hspace

/-- `stoi` returns the value of a numeral that is an `int`. -/
theorem stoi_of_isNumeral (h : IsNumeral str) (hlt : decimal str < 2 ^ 31) :
    stoi str = .ok (decimal str) := by
  obtain ⟨hne, hdigits⟩ := h
  obtain ⟨c, rest, rfl⟩ := List.exists_cons_of_ne_nil hne
  obtain ⟨-, hspace, hminus, hplus⟩ := ne_of_isdigit (hdigits c List.mem_cons_self)
  have hread : CString.read 0 (c :: rest) = c :: rest := by
    refine CString.read_eq_self_iff.mpr fun h0 => ?_
    exact (ne_of_isdigit (hdigits 0 h0)).1 rfl
  have hdrop : (c :: rest).dropWhile isspace = c :: rest := by
    rw [List.dropWhile_cons, hspace]
    rfl
  have htake : (c :: rest).takeWhile isdigit = c :: rest :=
    List.takeWhile_eq_self_iff.mpr hdigits
  have hnonneg := decimal_nonneg hdigits
  have hrange : -2147483648 ≤ decimal (c :: rest) ∧ decimal (c :: rest) < 2147483648 := by
    omega
  simp [stoi, hread, hdrop, hminus, hplus, htake, hrange]

/-- The port that an inet server passes on. -/
theorem port_denotes_iff :
    (∀ port, stoi str = .ok port → (BindAddr.inet (htons port)).Denotes str) ↔
      PortUsable str := by
  constructor
  · intro h
    cases hstoi : stoi str with
    | error e => exact .inl (by simp [hstoi])
    | ok port =>
        obtain ⟨hnum, hle, -⟩ := h port hstoi
        exact .inr ⟨hnum, hle⟩
  · rintro (hthrows | ⟨hnum, hle⟩) port hstoi
    · exact absurd hstoi (hthrows port)
    · obtain rfl : decimal str = port := by
        simpa [stoi_of_isNumeral hnum (by omega)] using hstoi
      have hnonneg := decimal_nonneg hnum.2
      refine ⟨hnum, hle, ?_⟩
      rw [htons]
      omega

/-- The path that a unix server passes on. -/
theorem path_denotes_iff : (BindAddr.unix (sunPath str)).Denotes str ↔ PathUsable str := by
  have hread : CString.read 0 (sunPath str) = CString.read 0 str := CString.read_terminated
  simp only [BindAddr.Denotes, PathUsable, hread, CString.read_eq_self_iff]
  constructor
  · rintro ⟨hlen, -, h0⟩
    exact ⟨h0, by omega⟩
  · rintro ⟨h0, hlen⟩
    have hpath : (sunPath str).length = str.length + 1 := by
      rw [sunPath, CString.read_eq_self_iff.mpr h0, List.length_append, List.length_singleton]
    exact ⟨by omega, by omega, h0⟩

/-! ### The `bind` of each class -/

/-- The INET TCP server binds the port that its string says, once it has its descriptors. -/
theorem InetDomainSocketTcpServer.bind_mem_iff :
    InitCall.bind addr ∈ (exec (InetDomainSocketTcpServer.init server sys) []).2 ↔
      ¬ sys.epoll_create < 0 ∧ ¬ sys.socket < 0 ∧
        ∃ port, stoi server.m_bind = .ok port ∧ addr = .inet (htons port) := by
  by_cases hepoll : sys.epoll_create < 0
  · simp [InetDomainSocketTcpServer.init, exec_map, hepoll]
  · by_cases hsocket : sys.socket < 0
    · simp [InetDomainSocketTcpServer.init, exec_bind, exec_map, hepoll, hsocket]
    · cases hport : stoi server.m_bind with
      | error e => simp [InetDomainSocketTcpServer.init, exec_bind, hepoll, hsocket, hport]
      | ok port =>
          by_cases hbind : -1 = sys.bind <;> by_cases hctl : sys.epoll_ctl < 0 <;>
            simp [InetDomainSocketTcpServer.init, exec_bind, exec_map, hepoll, hsocket, hport,
              hbind, hctl]

/-- The UNIX TCP server binds its path, cut to the length of an address. -/
theorem UnixDomainSocketTcpServer.bind_mem_iff :
    InitCall.bind addr ∈ (exec (UnixDomainSocketTcpServer.init server sys) []).2 ↔
      ¬ sys.epoll_create < 0 ∧ sys.socket ≠ -1 ∧ addr = .unix (sunPath server.m_bind) := by
  by_cases hepoll : sys.epoll_create < 0
  · simp [UnixDomainSocketTcpServer.init, exec_map, hepoll]
  · by_cases hsocket : sys.socket = -1
    · by_cases haccess : sys.access = 0 <;>
        simp [UnixDomainSocketTcpServer.init, exec_bind, exec_map, hepoll, haccess, hsocket]
    · have hsocket' : ¬ -1 = sys.socket := fun h => hsocket h.symm
      by_cases haccess : sys.access = 0 <;> by_cases hbind : sys.bind < 0 <;>
        by_cases hlisten : sys.listen < 0 <;> by_cases hctl : sys.epoll_ctl < 0 <;>
          simp [UnixDomainSocketTcpServer.init, exec_bind, exec_map, hepoll, haccess, hsocket,
            hsocket', hbind, hlisten, hctl]

/-- The INET UDP server binds the port that its string says, once it has its socket. -/
theorem InetDomainSocketUdpServer.bind_mem_iff :
    InitCall.bind addr ∈ (exec (InetDomainSocketUdpServer.init server sys) []).2 ↔
      ¬ sys.socket < 0 ∧ ∃ port, stoi server.m_bind = .ok port ∧ addr = .inet (htons port) := by
  cases hport : stoi server.m_bind with
  | error e => simp [InetDomainSocketUdpServer.init, exec_bind, hport]
  | ok port =>
      by_cases hsocket : sys.socket < 0 <;> by_cases hbind : sys.bind < 0 <;>
        simp [InetDomainSocketUdpServer.init, exec_bind, exec_map, hport, hsocket, hbind]

/-- The UNIX UDP server binds its path, cut to the length of an address. -/
theorem UnixDomainSocketUdpServer.bind_mem_iff :
    InitCall.bind addr ∈ (exec (UnixDomainSocketUdpServer.init server sys) []).2 ↔
      ¬ sys.socket < 0 ∧ addr = .unix (sunPath server.m_bind) := by
  by_cases haccess : sys.access = 0 <;> by_cases hsocket : sys.socket < 0 <;>
    by_cases hbind : sys.bind < 0 <;>
      simp [UnixDomainSocketUdpServer.init, exec_bind, exec_map, eq_comm (a := (0 : ℤ)), haccess,
        hsocket, hbind]

/-- The HTTP server leaves binding to libwebsockets. -/
theorem HttpTcpServer.bind_notMem :
    InitCall.bind addr ∉ (exec (HttpTcpServer.init server sys) []).2 := by
  rw [exec_init]
  split <;> simp

/-- So does the WebSocket server. -/
theorem WebSocketTcpServer.bind_notMem :
    InitCall.bind addr ∉ (exec (WebSocketTcpServer.init server sys) []).2 := by
  rw [exec_init]
  split
  · simp
  · cases sys.lws_create_context <;> simp

/-! ### Binding as configured -/

/-- An inet server that comes to its `bind` under the condition `C` on the calls before. -/
theorem inet_iff {C : Prop} :
    (∀ addr : BindAddr, (C ∧ ∃ port, stoi str = .ok port ∧ addr = .inet (htons port)) →
      addr.Denotes str) ↔ (C → PortUsable str) := by
  rw [← port_denotes_iff]
  constructor
  · intro h hC port hport
    exact h _ ⟨hC, port, hport, rfl⟩
  · rintro h _ ⟨hC, port, hport, rfl⟩
    exact h hC port hport

/-- A unix server that comes to its `bind` under the condition `C` on the calls before. -/
theorem unix_iff {C : Prop} :
    (∀ addr : BindAddr, (C ∧ addr = .unix (sunPath str)) → addr.Denotes str) ↔
      (C → PathUsable str) := by
  rw [← path_denotes_iff]
  constructor
  · intro h hC
    exact h _ ⟨hC, rfl⟩
  · rintro h _ ⟨hC, rfl⟩
    exact h hC

/-- **When servers listen where the configuration says.** -/
theorem bindsAsConfigured_iff (server : ServerSettings) (sys : InitResults) :
    server.BindsAsConfigured sys ↔ server.BindUsable sys := by
  unfold ServerSettings.BindsAsConfigured ServerSettings.BindUsable ServerSettings.init
  cases server.kind with
  | inetDomainSocketTcpServer =>
      simp only [InetDomainSocketTcpServer.bind_mem_iff, ← and_assoc, inet_iff]
      tauto
  | unixDomainSocketTcpServer =>
      simp only [UnixDomainSocketTcpServer.bind_mem_iff, ← and_assoc, unix_iff]
      tauto
  | inetDomainSocketUdpServer =>
      simp only [InetDomainSocketUdpServer.bind_mem_iff, inet_iff]
      tauto
  | unixDomainSocketUdpServer =>
      simp only [UnixDomainSocketUdpServer.bind_mem_iff, unix_iff]
      tauto
  | httpTcpServer =>
      exact iff_of_true (fun _ h => absurd h HttpTcpServer.bind_notMem) trivial
  | webSocketTcpServer =>
      exact iff_of_true (fun _ h => absurd h WebSocketTcpServer.bind_notMem) trivial

end

/-! ### Wrong addresses -/

/-- A server of the given class for an address. -/
def boundTo (kind : ServerKind) (m_bind : Bytes) : ServerSettings :=
  { kind, m_name := [], m_bind, m_tcp := true, m_max_client := 10 }

/-- A port past 65535 is cut down to another one, what follows a number is passed over, and a
path of 108 bytes is written past the end of `sun_path`. -/
theorem wrongAddresses_bound :
    ¬ (boundTo .inetDomainSocketTcpServer (ascii "70000")).BindsAsConfigured goodResults ∧
      ¬ (boundTo .inetDomainSocketUdpServer (ascii "80/udp")).BindsAsConfigured goodResults ∧
      ¬ (boundTo .unixDomainSocketUdpServer (List.replicate 108 97)).BindsAsConfigured
        goodResults := by
  refine ⟨fun h => ?_, fun h => ?_, fun h => ?_⟩
  · have hport := h (.inet 4464) (InetDomainSocketTcpServer.bind_mem_iff.mpr
      ⟨by decide, by decide, 70000, by decide, rfl⟩)
    exact absurd hport.2.1 (by decide)
  · have hport := h (.inet 80) (InetDomainSocketUdpServer.bind_mem_iff.mpr
      ⟨by decide, 80, by decide, rfl⟩)
    exact absurd (hport.1.2 47 (by decide)) (by decide)
  · have hpath := h (.unix (sunPath (List.replicate 108 97)))
      (UnixDomainSocketUdpServer.bind_mem_iff.mpr ⟨by decide, rfl⟩)
    exact absurd hpath.1 (by decide)

end AnyServer
