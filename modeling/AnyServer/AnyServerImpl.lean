import AnyServer.Library.Lts
import AnyServer.ServerFactory

/-!
# The Application's Object

`AnyServerImpl::init` works only when `m_server_factory` is null: it fetches the factory and
initialises it. Otherwise it returns `true` at once. The constructor leaves that pointer as
it finds it in the storage, and `init` assigns it before the steps that can fail.

So `init` may return `true` without a server having been initialised: when the storage had
something else than a null pointer, and in every call after one that has failed.

`m_server_factory` is a number here, `0` being null, and `m_instance` the one object that
`ServerFactory::getInstance` makes. The signal handlers that a successful `init` installs
are left out.

## Main results

* `ServerFactory.init_fresh`: when the first `init` of a factory returns `true`.
* `init_truthful_iff`: when every `true` of a sequence of `init` calls is the truth.
-/

namespace AnyServer

open Lts
open Throwing (exec)

/-! ### `init` -/

/-- What `init` of the application's object reads and writes. -/
structure AnyServerImpl where
  m_server_factory : ℕ
  m_instance : Option ServerFactory
  deriving DecidableEq, Repr

/-- The address of the factory, which is not null. -/
def instanceAddress : ℕ := 1

/-- The constructor, in storage that has `m_server_factory` where that member is. -/
def AnyServerImpl.construct (m_server_factory : ℕ) : AnyServerImpl :=
  { m_server_factory, m_instance := none }

/-- `AnyServerImpl::init`. -/
def AnyServerImpl.init (s : AnyServerImpl) (env : InitEnv) :
    Except StdException Bool × AnyServerImpl :=
  if s.m_server_factory = 0 then
    let r := (s.m_instance.getD {}).init env
    (r.1, { m_server_factory := instanceAddress, m_instance := some r.2 })
  else (.ok true, s)

/-- What is observed of a call: its result, and the factory that it leaves. -/
structure InitReturn where
  result : Except StdException Bool
  m_instance : Option ServerFactory

/-- A sequence of `init` calls. -/
abbrev AnyServerImpl.Step : Lts AnyServerImpl InitEnv InitReturn :=
  Lts.ofFn fun s env =>
    some ((s.init env).2,
      [{ result := (s.init env).1, m_instance := (s.init env).2.m_instance }])

/-- The factory has accepted a configuration, and every server that it created has had its
own `init` return `true`. -/
structure ServerFactory.Ready (factory : ServerFactory) : Prop where
  accepted : factory.accepted = true
  initialised : ∀ k < factory.m_servers.length, k ∈ factory.initialised

/-- A call that returns `true` leaves a factory that is ready. -/
def InitReturn.Truthful (x : InitReturn) : Prop :=
  x.result = .ok true → ∃ factory, x.m_instance = some factory ∧ factory.Ready

/-- The `init` of every server returns `true`, the first of them being at position `k`. -/
def AllInit (sys : ℕ → InitResults) (k : ℕ) (servers : List ServerSettings) : Prop :=
  ∀ (j : ℕ) (server : ServerSettings), servers[j]? = some server →
    server.initResult (sys (k + j)) = .ok true

/-- The configuration file decodes, passes the restriction check and has no unsupported entry
enabled, and every server created for it can be initialised. -/
def InitEnv.Usable (env : InitEnv) : Prop :=
  ∃ root c servers, env.file = .parsed root ∧ exec (parse root) {} = (.ok (), c) ∧
    checkRestrictConfiguration c = true ∧ createServers c [] = (true, servers) ∧
    AllInit env.sys 0 servers

/-! ### The first call -/

section

variable {sys : ℕ → InitResults} {k : ℕ} {servers : List ServerSettings}
  {done done' : List ℕ} {r : Except StdException Bool} {env : InitEnv}
  {factory : ServerFactory}

/-- All of the servers come up when the first does and the others do, each with its own call
results. -/
theorem allInit_cons {server : ServerSettings} : AllInit sys k (server :: servers) ↔
    server.initResult (sys k) = .ok true ∧ AllInit sys (k + 1) servers := by
  constructor
  · intro h
    refine ⟨h 0 server rfl, fun j server' hj => ?_⟩
    rw [Nat.add_right_comm]
    exact h (j + 1) server' hj
  · rintro ⟨hfirst, hrest⟩ j server' hj
    cases j with
    | zero =>
        obtain rfl : server = server' := Option.some.inj hj
        exact hfirst
    | succ j =>
        have := hrest j server' hj
        rwa [Nat.add_right_comm] at this

/-- The loop over the servers stops at the first whose `init` does not return `true`. -/
theorem initServers_eq (h : initServers sys k servers done = (r, done')) :
    ∃ n ≤ servers.length, done' = done ++ List.range' k n ∧
      (r = .ok true ↔ n = servers.length) ∧ (n = servers.length ↔ AllInit sys k servers) := by
  induction servers generalizing k done with
  | nil =>
      obtain ⟨rfl, rfl⟩ := Prod.mk.inj h
      exact ⟨0, by simp, by simp, by simp, by simp [AllInit]⟩
  | cons server servers ih =>
      rw [allInit_cons]
      rcases hr : server.initResult (sys k) with e | b
      · simp only [initServers, hr] at h
        obtain ⟨rfl, rfl⟩ := Prod.mk.inj h
        exact ⟨0, by simp, by simp, by simp, by simp⟩
      · cases b with
        | false =>
            simp only [initServers, hr] at h
            obtain ⟨rfl, rfl⟩ := Prod.mk.inj h
            exact ⟨0, by simp, by simp, by simp, by simp⟩
        | true =>
            simp only [initServers, hr] at h
            obtain ⟨n, hle, hdone, hn, hall⟩ := ih h
            refine ⟨n + 1, by simpa using hle, ?_, ?_, ?_⟩
            · rw [hdone, List.range'_succ, List.append_assoc, List.singleton_append]
            · rw [hn, List.length_cons, Nat.add_right_cancel_iff]
            · rw [← hall, List.length_cons, Nat.add_right_cancel_iff]
              simp

/-- **When the first `init` of a factory returns `true`.** It does so exactly if what it
finds is usable, and exactly then it leaves a factory that is ready. -/
theorem ServerFactory.init_fresh (h : ServerFactory.init {} env = (r, factory)) :
    (r = .ok true ↔ env.Usable) ∧ (factory.Ready ↔ env.Usable) := by
  have heffect := ServerFactory.init_effect {} env
  rw [h] at heffect
  -- before the servers are created, nothing is accepted and what is found is not usable
  have hfailed : ¬ env.Usable → factory.accepted = false → r = .ok false →
      (r = .ok true ↔ env.Usable) ∧ (factory.Ready ↔ env.Usable) := by
    rintro hn haccepted rfl
    refine ⟨by simp [hn], iff_of_false (fun hready => ?_) hn⟩
    rw [hready.accepted] at haccepted
    cases haccepted
  cases heffect with
  | notRead hf =>
      refine hfailed ?_ rfl rfl
      rintro ⟨root, c, servers, hroot, -⟩
      rcases hf with hf | hf <;> rw [hf] at hroot <;> cases hroot
  | notDecoded hf hd =>
      refine hfailed ?_ rfl rfl
      rintro ⟨root, c, servers, hroot, hd', -⟩
      obtain rfl := ConfigFile.parsed.inj (hf.symm.trans hroot)
      cases hd.symm.trans hd'
  | restricted hf hd hr =>
      refine hfailed ?_ rfl rfl
      rintro ⟨root, c, servers, hroot, hd', hr', -⟩
      obtain rfl := ConfigFile.parsed.inj (hf.symm.trans hroot)
      obtain rfl := (Prod.mk.inj (hd.symm.trans hd')).2
      cases hr.symm.trans hr'
  | notCreated hf hd hr hc =>
      refine hfailed ?_ rfl rfl
      rintro ⟨root, c, servers, hroot, hd', -, hc', -⟩
      obtain rfl := ConfigFile.parsed.inj (hf.symm.trans hroot)
      obtain rfl := (Prod.mk.inj (hd.symm.trans hd')).2
      cases hc.symm.trans hc'
  | @created root c m_servers r initialised hf hd hr hc hi =>
      obtain ⟨n, hle, hdone, hn, hall⟩ := initServers_eq hi
      have husable : env.Usable ↔ AllInit env.sys 0 m_servers := by
        refine ⟨?_, fun h => ⟨root, c, m_servers, hf, hd, hr, hc, h⟩⟩
        rintro ⟨root, c, servers, hroot, hd', -, hc', h⟩
        obtain rfl := ConfigFile.parsed.inj (hf.symm.trans hroot)
        obtain rfl := (Prod.mk.inj (hd.symm.trans hd')).2
        obtain rfl := (Prod.mk.inj (hc.symm.trans hc')).2
        exact h
      rw [husable, ← hall]
      refine ⟨hn, fun hready => ?_, fun hlen => ⟨rfl, fun k hk => ?_⟩⟩
      · -- the position after the last one initialised would be missing
        by_contra hne
        have hlt : n < m_servers.length := by omega
        have hmem : n ∈ initialised := hready.initialised n hlt
        rw [hdone, List.nil_append, List.mem_range'_1] at hmem
        omega
      · have hk : k < m_servers.length := hk
        rw [hdone, List.nil_append, List.mem_range'_1]
        omega

/-! ### Sequences of calls -/

variable {s s' : AnyServerImpl} {envs : List InitEnv} {os : List InitReturn}

/-- Once the pointer is set, every call returns `true` and does nothing. -/
theorem AnyServerImpl.run_set (hs : s.m_server_factory ≠ 0)
    (h : Run AnyServerImpl.Step s envs os s') :
    s' = s ∧
      os = List.replicate envs.length { result := .ok true, m_instance := s.m_instance } := by
  induction h with
  | start => exact ⟨rfl, rfl⟩
  | @step envs os s₁ env s₂ o _ ht ih =>
      obtain ⟨rfl, rfl⟩ := ih
      have hinit : s₁.init env = (.ok true, s₁) := by rw [AnyServerImpl.init, if_neg hs]
      obtain ⟨rfl, rfl⟩ := Prod.mk.inj (Option.some.inj ht)
      rw [hinit, List.length_append, List.replicate_add]
      exact ⟨rfl, rfl⟩

/-- So all of them tell the truth exactly if the factory is ready, or there is no call. -/
theorem AnyServerImpl.run_set_truthful (hs : s.m_server_factory ≠ 0)
    (h : Run AnyServerImpl.Step s envs os s') :
    (∀ x ∈ os, x.Truthful) ↔
      envs = [] ∨ ∃ factory, s.m_instance = some factory ∧ factory.Ready := by
  obtain ⟨-, rfl⟩ := AnyServerImpl.run_set hs h
  cases envs with
  | nil => simp
  | cons env envs => simp [InitReturn.Truthful]

/-- **When `init` tells the truth.** In a sequence of calls of `init` on a new object, every
call that returns `true` leaves a factory that is ready exactly if there is no call, or the
storage had a null pointer and either there is only one call, or what the first call finds
is usable. -/
theorem init_truthful_iff {m_server_factory : ℕ}
    (h : Run AnyServerImpl.Step (.construct m_server_factory) envs os s) :
    (∀ x ∈ os, x.Truthful) ↔
      envs = [] ∨ m_server_factory = 0 ∧
        ∃ env rest, envs = env :: rest ∧ (rest = [] ∨ env.Usable) := by
  cases envs with
  | nil =>
      obtain ⟨rfl, -⟩ := h.nil_inv
      simp
  | cons env rest =>
      by_cases hp : m_server_factory = 0
      · subst hp
        have h : Run AnyServerImpl.Step (.construct 0) ([env] ++ rest) os s := h
        obtain ⟨s₁, os₁, os₂, hfirst, hrest, rfl⟩ := h.append_inv
        rcases hr : ServerFactory.init {} env with ⟨r, factory⟩
        obtain ⟨hok, hready⟩ := ServerFactory.init_fresh hr
        have ht : AnyServerImpl.Step (.construct 0) env
            { m_server_factory := instanceAddress, m_instance := some factory }
            [{ result := r, m_instance := some factory }] := by
          simp [Lts.ofFn, AnyServerImpl.init, AnyServerImpl.construct, hr]
        obtain ⟨rfl, rfl⟩ := hfirst.unique deterministic_ofFn (Run.single ht)
        have hfirst : ∀ x ∈ [InitReturn.mk r (some factory)], x.Truthful := by
          intro x hx htrue
          obtain rfl := List.mem_singleton.mp hx
          exact ⟨factory, rfl, hready.mpr (hok.mp htrue)⟩
        rw [List.forall_mem_append, AnyServerImpl.run_set_truthful Nat.one_ne_zero hrest]
        simp [hfirst, hready]
      · rw [AnyServerImpl.run_set_truthful hp h]
        simp [AnyServerImpl.construct, hp]

end

/-! ### Two sequences -/

/-- The configuration file is missing. -/
def missingFile : InitEnv :=
  { file := .missing, sys := fun _ => goodResults }

/-- The document of two servers is usable. -/
theorem usable_twoPaths : (initEnvOf (unixUdpServers ["/a", "/b"])).Usable := by
  refine ⟨_, _, _, rfl, rfl, rfl, rfl, ?_⟩
  exact allInit_cons.mpr ⟨rfl, allInit_cons.mpr ⟨rfl, fun j server h => by cases h⟩⟩

/-- The first call initialises two servers, and the later one tells the truth too. -/
theorem init_truthful_iff_twoPaths :
    ∃ os s, Run AnyServerImpl.Step (.construct 0)
        [initEnvOf (unixUdpServers ["/a", "/b"]), missingFile] os s ∧
      s.m_instance.map (·.initialised) = some [0, 1] ∧ ∀ x ∈ os, x.Truthful := by
  have hrun : Run AnyServerImpl.Step (.construct 0)
      [initEnvOf (unixUdpServers ["/a", "/b"]), missingFile] _ _ := run_of_exec rfl
  exact ⟨_, _, hrun, rfl,
    (init_truthful_iff hrun).mpr (.inr ⟨rfl, _, _, rfl, .inr usable_twoPaths⟩)⟩

/-- Without a configuration file the first call returns `false`, and the second `true`. -/
theorem second_init_untruthful :
    ∃ x y s, Run AnyServerImpl.Step (.construct 0) [missingFile, missingFile] [x, y] s ∧
      x.result = .ok false ∧ y.result = .ok true ∧ ¬ y.Truthful := by
  refine ⟨_, _, _, run_of_exec rfl, rfl, rfl, fun h => ?_⟩
  obtain ⟨factory, hf, hready⟩ := h rfl
  obtain rfl := Option.some.inj hf
  cases hready.accepted

end AnyServer
