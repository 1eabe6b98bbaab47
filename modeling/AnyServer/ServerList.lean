import AnyServer.Library.Lts
import AnyServer.Library.SharedPtr

/-!
# Lists of Servers Handed Out

`ServerFactory` keeps its servers by shared pointers. `AnyServerImpl::getServerList` returns
a list of shared pointers to the same servers, but not copies of the factory's: it makes a new
one from the plain pointer of each, so that every call gives each server one more control
block. The first block that runs out of owners destroys the server, whatever the others count.

`Ownership` are the control blocks, the factory's pointers and the lists in the hands of the
application, which may copy and drop them. The server objects are known by their position in
`m_servers`. `getServerList` goes through `m_server_factory`, which is not to be used once the
factory is destroyed.

## Main results

* `Shape.step`: the blocks are those of the factory and one for each server and call.
* `destroyed_once_iff`: when every server is destroyed once and not while it is pointed to.
-/

namespace AnyServer

open Lts SharedPtr

/-! ### Lists and their owners -/

/-- The pointers to the servers: the factory's, until it is destroyed, and those of the lists
that `getServerList` has returned or that were copied from such. -/
structure Ownership where
  heap : Heap ℕ
  m_servers : Option (List ℕ)
  lists : List (List ℕ)

/-- A factory with `n` servers. -/
def Ownership.init (n : ℕ) : Ownership :=
  let r := Heap.adoptAll { objects := [], owners := fun _ => 0, destroyed := [] } (List.range n)
  { heap := r.1, m_servers := some r.2, lists := [] }

/-- All pointers. -/
def Ownership.held (s : Ownership) : List ℕ :=
  s.m_servers.getD [] ++ s.lists.flatten

/-- `AnyServerImpl::getServerList`: it copies the factory's list, makes a pointer from each
`server_ptr.get()`, and drops the copy. -/
def Ownership.getServerList (s : Ownership) (m_servers : List ℕ) : Ownership :=
  let servers := s.heap.copyAll m_servers
  let r := servers.adoptAll (m_servers.filterMap fun p => servers.objects[p]?)
  { s with heap := r.1.dropAll m_servers, lists := s.lists ++ [r.2] }

/-- What the application does. -/
inductive OwnershipInput
  | getServerList
  | copyList (k : ℕ)
  | dropList (k : ℕ)
  | destroyInstance
  deriving DecidableEq, Repr

/-- One operation on lists of servers. -/
def Ownership.next (s : Ownership) : OwnershipInput → Option (Ownership × List Empty)
  | .getServerList => s.m_servers.map fun m_servers => (s.getServerList m_servers, [])
  | .copyList k => s.lists[k]?.map fun l =>
      ({ s with heap := s.heap.copyAll l, lists := s.lists ++ [l] }, [])
  | .dropList k => s.lists[k]?.map fun l =>
      ({ s with heap := s.heap.dropAll l, lists := s.lists.eraseIdx k }, [])
  | .destroyInstance => s.m_servers.map fun m_servers =>
      ({ s with heap := s.heap.dropAll m_servers, m_servers := none }, [])

/-- The factory's list under the application's lists. -/
abbrev Ownership.Step : Lts Ownership OwnershipInput Empty :=
  ofFn Ownership.next

/-- Each of the `n` servers is destroyed once, and not while there is a pointer to it. -/
def Ownership.DestroyedOnce (n : ℕ) (s : Ownership) : Prop :=
  ∀ server < n, s.heap.Exact s.held server

instance {n : ℕ} {s : Ownership} : Decidable (s.DestroyedOnce n) :=
  inferInstanceAs (Decidable (∀ server < n, s.heap.Exact s.held server))

/-- A list is dropped only while another copy of it is left, and the factory is destroyed only
if `getServerList` has made no block besides those of the factory. -/
def KeepsServers (s : Ownership) : OwnershipInput → Prop
  | .dropList k => ∀ l, s.lists[k]? = some l → l ∈ s.lists.eraseIdx k
  | .destroyInstance =>
      ∀ m_servers, s.m_servers = some m_servers → s.heap.objects.length = m_servers.length
  | _ => True

/-! ### The blocks there are -/

/-- The blocks that call number `j` of `getServerList` makes; number `0` are the factory's. -/
def blocksOf (n j : ℕ) : List ℕ :=
  List.range' (n * j) n

/-- The pointers and blocks after `calls` calls of `getServerList`. -/
structure Shape (n calls : ℕ) (s : Ownership) : Prop where
  length : s.heap.objects.length = n * (calls + 1)
  objects : ∀ p < n * (calls + 1), s.heap.objects[p]? = some (p % n)
  m_servers : ∀ m_servers, s.m_servers = some m_servers → m_servers = blocksOf n 0
  lists : ∀ l ∈ s.lists, ∃ j, 1 ≤ j ∧ j ≤ calls ∧ l = blocksOf n j
  owned : Owned s.heap s.held

/-- No block has run out of owners. -/
def Ownership.AllHeld (s : Ownership) : Prop :=
  ∀ p < s.heap.objects.length, p ∈ s.held

section

variable {n calls j k p : ℕ} {s s' : Ownership} {i : OwnershipInput} {o os : List Empty}
  {is : List OwnershipInput} {l : List ℕ}

/-- The blocks of one call are n that follow one another. -/
theorem mem_blocksOf : p ∈ blocksOf n j ↔ n * j ≤ p ∧ p < n * j + n := by
  rw [blocksOf, List.mem_range'_1]

/-- At the start there are the factory's own blocks. -/
theorem shape_init : Shape n 0 (.init n) := by
  have hempty : Owned ({ objects := [], owners := fun _ => 0, destroyed := [] } : Heap ℕ) [] := by
    refine ⟨by simp, by simp, fun a => ?_⟩
    simp [Heap.dead]
  have hps : (Heap.adoptAll { objects := [], owners := fun _ => 0, destroyed := [] }
      (List.range n)).2 = List.range' 0 (List.range n).length := (Heap.adoptAll_eq _).2
  have hobjects : (Ownership.init n).heap.objects = List.range n := (Heap.adoptAll_eq _).1
  refine ⟨?_, fun p hp => ?_, ?_, by simp [Ownership.init], ?_⟩
  · rw [hobjects, List.length_range, Nat.zero_add, Nat.mul_one]
  · rw [Nat.zero_add, Nat.mul_one] at hp
    rw [hobjects, List.getElem?_range hp, Nat.mod_eq_of_lt hp]
  · intro m_servers hm
    obtain rfl : (Heap.adoptAll _ (List.range n)).2 = m_servers := Option.some.inj hm
    rw [hps]
    simp [blocksOf]
  · simpa [Ownership.init, Ownership.held] using hempty.adoptAll (List.range n)

/-- The objects that the factory's pointers point to. -/
theorem Shape.get_servers (h : Shape n calls s) :
    (blocksOf n 0).filterMap (fun p => s.heap.objects[p]?) = List.range n := by
  have hget : ∀ p ∈ blocksOf n 0, s.heap.objects[p]? = some p := by
    intro p hp
    have hlt : p < n := by simpa using (mem_blocksOf.mp hp).2
    have hle : n ≤ n * (calls + 1) := Nat.le_mul_of_pos_right _ (Nat.succ_pos _)
    rw [h.objects p (by omega), Nat.mod_eq_of_lt hlt]
  rw [List.filterMap_congr hget, List.filterMap_some, blocksOf, Nat.mul_zero, List.range_eq_range']

/-- The blocks that a call makes are for the servers in order. -/
theorem Shape.objects_append (h : Shape n calls s) (hp : p < n * (calls + 1 + 1)) :
    (s.heap.objects ++ List.range n)[p]? = some (p % n) := by
  by_cases hold : p < n * (calls + 1)
  · rw [List.getElem?_append_left (by rwa [h.length])]
    exact h.objects p hold
  · obtain ⟨r, rfl⟩ := Nat.exists_eq_add_of_le (Nat.le_of_not_lt hold)
    have hr : r < n := by
      rw [Nat.mul_succ n (calls + 1)] at hp
      omega
    rw [List.getElem?_append_right (by rw [h.length]; omega), h.length, Nat.add_sub_cancel_left,
      List.getElem?_range hr, Nat.mul_add_mod, Nat.mod_eq_of_lt hr]

/-- The blocks that a call makes are the next n. -/
theorem Shape.adoptAll_copyAll (h : Shape n calls s) :
    ((s.heap.copyAll (blocksOf n 0)).adoptAll (List.range n)).2 = blocksOf n (calls + 1) := by
  rw [(Heap.adoptAll_eq _).2, Heap.objects_copyAll, h.length, List.length_range, blocksOf]

/-- A call of `getServerList`; the local copy of the list comes and goes. -/
theorem Shape.getServerList_eq (h : Shape n calls s) : s.getServerList (blocksOf n 0) =
    { s with
      heap := ((s.heap.copyAll (blocksOf n 0)).adoptAll (List.range n)).1.dropAll (blocksOf n 0)
      lists := s.lists ++ [blocksOf n (calls + 1)] } := by
  have hget : (blocksOf n 0).filterMap (fun p => (s.heap.copyAll (blocksOf n 0)).objects[p]?) =
      List.range n := by
    rw [Heap.objects_copyAll]
    exact h.get_servers
  rw [Ownership.getServerList, hget, h.adoptAll_copyAll]

/-- While the factory lives, it holds its own pointers beside the lists. -/
theorem Ownership.held_of_some {m_servers : List ℕ} (hm : s.m_servers = some m_servers) :
    s.held = m_servers ++ s.lists.flatten := by
  rw [Ownership.held, hm, Option.getD_some]

/-- What a call of `getServerList` returns. -/
theorem Shape.getServerList (h : Shape n calls s) {m_servers : List ℕ}
    (hm : s.m_servers = some m_servers) :
    Shape n (calls + 1) (s.getServerList m_servers) ∧
      (s.getServerList m_servers).lists = s.lists ++ [blocksOf n (calls + 1)] := by
  obtain rfl := h.m_servers m_servers hm
  have hheld := Ownership.held_of_some hm
  have hobjects : (((s.heap.copyAll (blocksOf n 0)).adoptAll (List.range n)).1.dropAll
      (blocksOf n 0)).objects = s.heap.objects ++ List.range n := by
    rw [Heap.objects_dropAll, (Heap.adoptAll_eq _).1, Heap.objects_copyAll]
  have howned : Owned (((s.heap.copyAll (blocksOf n 0)).adoptAll (List.range n)).1.dropAll
      (blocksOf n 0)) (blocksOf n (calls + 1) ++ s.held) := by
    have hcopied := h.owned.copyAll fun p hp => hheld ▸ List.mem_append_left _ hp
    have hadopted := hcopied.adoptAll (List.range n)
    rw [h.adoptAll_copyAll] at hadopted
    exact (hadopted.perm (List.perm_append_comm_assoc _ _ _)).dropAll
  rw [h.getServerList_eq]
  refine ⟨⟨?_, fun p hp => ?_, h.m_servers, fun l hl => ?_, howned.perm ?_⟩, rfl⟩
  · rw [hobjects, List.length_append, h.length, List.length_range, Nat.mul_succ n (calls + 1)]
  · rw [hobjects]
    exact h.objects_append hp
  · rcases List.mem_append.mp hl with hl | hl
    · obtain ⟨j, hj, hle, rfl⟩ := h.lists l hl
      exact ⟨j, hj, by omega, rfl⟩
    · exact ⟨calls + 1, by omega, Nat.le_refl _, List.mem_singleton.mp hl⟩
  · show List.Perm _ (s.m_servers.getD [] ++ (s.lists ++ [blocksOf n (calls + 1)]).flatten)
    rw [hheld, hm, Option.getD_some, List.flatten_append, List.flatten_singleton,
      ← List.append_assoc (blocksOf n 0)]
    exact List.perm_append_comm

/-- **The shape of the blocks is kept.** -/
theorem Shape.step (h : Shape n calls s) (ht : Ownership.Step s i s' o) :
    Shape n (calls + if i = .getServerList then 1 else 0) s' := by
  cases i with
  | getServerList =>
      obtain ⟨m_servers, hm, heq⟩ := Option.map_eq_some_iff.mp ht
      obtain ⟨rfl, -⟩ := Prod.mk.inj heq
      exact (h.getServerList hm).1
  | copyList k =>
      obtain ⟨l, hl, heq⟩ := Option.map_eq_some_iff.mp ht
      obtain ⟨rfl, -⟩ := Prod.mk.inj heq
      have hmem := List.mem_of_getElem? hl
      have hcopied : Owned (s.heap.copyAll l) (l ++ s.held) := h.owned.copyAll fun p hp =>
        List.mem_append_right _ (List.mem_flatten.mpr ⟨l, hmem, hp⟩)
      refine ⟨?_, ?_, h.m_servers, ?_, hcopied.perm ?_⟩
      · rw [Heap.objects_copyAll]
        exact h.length
      · rw [Heap.objects_copyAll]
        exact h.objects
      · intro l' hl'
        rcases List.mem_append.mp hl' with hl' | hl'
        · exact h.lists l' hl'
        · exact List.mem_singleton.mp hl' ▸ h.lists l hmem
      · rw [Ownership.held, Ownership.held, List.flatten_append, List.flatten_singleton,
          ← List.append_assoc (s.m_servers.getD [])]
        exact List.perm_append_comm
  | dropList k =>
      obtain ⟨l, hl, heq⟩ := Option.map_eq_some_iff.mp ht
      obtain ⟨rfl, -⟩ := Prod.mk.inj heq
      obtain ⟨hk, rfl⟩ := List.getElem?_eq_some_iff.mp hl
      have hperm : (s.lists[k] :: s.lists.eraseIdx k).Perm s.lists :=
        List.getElem_cons_eraseIdx_perm hk
      have hheld : s.held.Perm
          (s.lists[k] ++ (s.m_servers.getD [] ++ (s.lists.eraseIdx k).flatten)) := by
        refine (List.Perm.append_left _ hperm.flatten.symm).trans ?_
        rw [List.flatten_cons]
        exact List.perm_append_comm_assoc _ _ _
      refine ⟨?_, ?_, h.m_servers, ?_, (h.owned.perm hheld).dropAll⟩
      · rw [Heap.objects_dropAll]
        exact h.length
      · rw [Heap.objects_dropAll]
        exact h.objects
      · exact fun l' hl' => h.lists l' (List.mem_of_mem_eraseIdx hl')
  | destroyInstance =>
      obtain ⟨m_servers, hm, heq⟩ := Option.map_eq_some_iff.mp ht
      obtain ⟨rfl, -⟩ := Prod.mk.inj heq
      have hheld := Ownership.held_of_some hm
      refine ⟨?_, ?_, by simp, h.lists, (hheld ▸ h.owned).dropAll⟩
      · rw [Heap.objects_dropAll]
        exact h.length
      · rw [Heap.objects_dropAll]
        exact h.objects

/-! ### Servers destroyed once -/

/-- A block belongs to one call. -/
theorem blocksOf_unique (hj : p ∈ blocksOf n j) (hk : p ∈ blocksOf n k) : j = k := by
  rw [mem_blocksOf, ← Nat.mul_succ] at hj hk
  have hjk : j < k + 1 := Nat.lt_of_mul_lt_mul_left (Nat.lt_of_le_of_lt hj.1 hk.2)
  have hkj : k < j + 1 := Nat.lt_of_mul_lt_mul_left (Nat.lt_of_le_of_lt hk.1 hj.2)
  omega

/-- All blocks have owners: the factory is left, and a list of each call. -/
theorem Shape.allHeld_iff (h : Shape n calls s) (hn : 0 < n) :
    s.AllHeld ↔ s.m_servers.isSome ∧ ∀ j, 1 ≤ j → j ≤ calls → blocksOf n j ∈ s.lists := by
  have hfirst : ∀ j, n * j ∈ blocksOf n j := fun j => mem_blocksOf.mpr ⟨Nat.le_refl _, by omega⟩
  have hlists : ∀ l ∈ s.lists, ∀ j, n * j ∈ l → 1 ≤ j ∧ blocksOf n j = l := by
    intro l hl j hj
    obtain ⟨j', hpos, -, rfl⟩ := h.lists l hl
    obtain rfl := blocksOf_unique hj (hfirst j)
    exact ⟨hpos, rfl⟩
  constructor
  · intro hall
    have hlt : ∀ j ≤ calls, n * j < s.heap.objects.length := fun j hj => by
      rw [h.length]
      exact Nat.mul_lt_mul_of_pos_left (by omega) hn
    refine ⟨?_, fun j hpos hj => ?_⟩
    · rcases List.mem_append.mp (hall _ (hlt 0 (Nat.zero_le _))) with hmem | hmem
      · cases hm : s.m_servers with
        | none => simp [hm] at hmem
        | some m_servers => rfl
      · obtain ⟨l, hl, hmem⟩ := List.mem_flatten.mp hmem
        exact absurd (hlists l hl 0 hmem).1 (by omega)
    · rcases List.mem_append.mp (hall _ (hlt j hj)) with hmem | hmem
      · cases hm : s.m_servers with
        | none => simp [hm] at hmem
        | some m_servers =>
            rw [hm, Option.getD_some, h.m_servers m_servers hm] at hmem
            exact absurd (blocksOf_unique hmem (hfirst j)) (by omega)
      · obtain ⟨l, hl, hmem⟩ := List.mem_flatten.mp hmem
        exact (hlists l hl j hmem).2 ▸ hl
  · rintro ⟨hsome, hall⟩ p hp
    have hmem : p ∈ blocksOf n (p / n) :=
      mem_blocksOf.mpr ⟨Nat.mul_div_le p n, Nat.mul_succ n _ ▸ Nat.lt_mul_div_succ p hn⟩
    rw [h.length] at hp
    have hle : p / n ≤ calls := Nat.le_of_lt_succ (Nat.div_lt_of_lt_mul hp)
    obtain ⟨m_servers, hm⟩ := Option.isSome_iff_exists.mp hsome
    rcases Nat.eq_zero_or_pos (p / n) with hzero | hpos
    · refine List.mem_append_left _ ?_
      rwa [hm, Option.getD_some, h.m_servers m_servers hm, ← hzero]
    · exact List.mem_append_right _ (List.mem_flatten.mpr ⟨_, hall _ hpos hle, hmem⟩)

/-- The servers are destroyed once if each has one block, the factory's, or none of the blocks
has run out of owners. -/
theorem Shape.destroyedOnce_iff (h : Shape n calls s) (hn : 0 < n) :
    s.DestroyedOnce n ↔ calls = 0 ∨ s.AllHeld := by
  have hobjects : ∀ p server : ℕ,
      s.heap.objects[p]? = some server ↔ p < n * (calls + 1) ∧ p % n = server := by
    intro p server
    by_cases hp : p < n * (calls + 1)
    · simp [h.objects p hp, hp]
    · rw [List.getElem?_eq_none (by rw [h.length]; omega)]
      simp [hp]
  have hle : n ≤ n * (calls + 1) := Nat.le_mul_of_pos_right _ (Nat.succ_pos _)
  have hfirst : ∀ server < n, s.heap.objects[server]? = some server := fun server hlt =>
    (hobjects server server).mpr ⟨by omega, Nat.mod_eq_of_lt hlt⟩
  rcases Nat.eq_zero_or_pos calls with rfl | hpos
  · refine iff_of_true (fun server hlt => ?_) (.inl rfl)
    refine (exact_iff h.owned ⟨server, hfirst server hlt⟩).mpr (.inr ⟨server, fun q => ?_⟩)
    rw [hobjects, Nat.zero_add, Nat.mul_one]
    constructor
    · rintro ⟨hq, rfl⟩
      exact (Nat.mod_eq_of_lt hq).symm
    · rintro rfl
      exact ⟨hlt, Nat.mod_eq_of_lt hlt⟩
  · -- two blocks of one server: the factory's and that of the first call
    have htwo : ∀ server < n, ¬ ∃ p, ∀ q : ℕ, s.heap.objects[q]? = some server ↔ q = p := by
      rintro server hlt ⟨p, hone⟩
      have hle : n * 2 ≤ n * (calls + 1) := Nat.mul_le_mul_left n (by omega)
      have hp := (hone server).mp (hfirst server hlt)
      have hq := (hone (server + n)).mp ((hobjects _ _).mpr
        ⟨by omega, by rw [Nat.add_mod_right, Nat.mod_eq_of_lt hlt]⟩)
      omega
    rw [or_iff_right (by omega)]
    constructor
    · intro honce p hp
      have hlt := Nat.mod_lt p hn
      have hexact := (exact_iff h.owned ⟨_, hfirst _ hlt⟩).mp (honce _ hlt)
      exact (hexact.resolve_right (htwo _ hlt)) p ((hobjects _ _).mpr ⟨h.length ▸ hp, rfl⟩)
    · intro hall server hlt
      refine (exact_iff h.owned ⟨server, hfirst server hlt⟩).mpr (.inl fun p hp => ?_)
      exact hall p (h.length ▸ ((hobjects p server).mp hp).1)

/-- **A step from a state in which the servers are destroyed once.** -/
theorem Shape.destroyedOnce_step (h : Shape n calls s) (hn : 0 < n) (honce : s.DestroyedOnce n)
    (ht : Ownership.Step s i s' o) : s'.DestroyedOnce n ↔ KeepsServers s i := by
  have hs' := h.step ht
  rw [hs'.destroyedOnce_iff hn]
  rw [h.destroyedOnce_iff hn, h.allHeld_iff hn] at honce
  rw [hs'.allHeld_iff hn]
  cases i with
  | getServerList =>
      obtain ⟨m_servers, hm, heq⟩ := Option.map_eq_some_iff.mp ht
      obtain ⟨rfl, -⟩ := Prod.mk.inj heq
      refine iff_of_true (.inr ⟨?_, fun j hpos hj => ?_⟩) trivial
      · exact Option.isSome_iff_exists.mpr ⟨m_servers, hm⟩
      · rw [if_pos rfl] at hj
        rw [(h.getServerList hm).2, List.mem_append, List.mem_singleton]
        rcases Nat.lt_or_eq_of_le hj with hold | rfl
        · rcases honce with rfl | ⟨-, hall⟩
          · omega
          · exact .inl (hall j hpos (by omega))
        · exact .inr rfl
  | copyList k =>
      obtain ⟨l, hl, heq⟩ := Option.map_eq_some_iff.mp ht
      obtain ⟨rfl, -⟩ := Prod.mk.inj heq
      refine iff_of_true (honce.imp id fun ⟨hsome, hall⟩ => ⟨hsome, fun j hpos hj => ?_⟩) trivial
      exact List.mem_append_left _ (hall j hpos hj)
  | dropList k =>
      obtain ⟨l, hl, heq⟩ := Option.map_eq_some_iff.mp ht
      obtain ⟨rfl, -⟩ := Prod.mk.inj heq
      obtain ⟨j₀, hpos₀, hj₀, rfl⟩ := h.lists l (List.mem_of_getElem? hl)
      obtain ⟨hk, hget⟩ := List.getElem?_eq_some_iff.mp hl
      have hperm : (s.lists[k] :: s.lists.eraseIdx k).Perm s.lists :=
        List.getElem_cons_eraseIdx_perm hk
      obtain ⟨hsome, hall⟩ := honce.resolve_left (by omega)
      rw [or_iff_right (by simp; omega)]
      constructor
      · rintro ⟨-, hall'⟩ l hl'
        obtain rfl := Option.some.inj (hl.symm.trans hl')
        exact hall' j₀ hpos₀ hj₀
      · intro hkeeps
        refine ⟨hsome, fun j hpos hj => ?_⟩
        rcases List.mem_cons.mp (hperm.mem_iff.mpr (hall j hpos hj)) with heq | hmem
        · rw [heq, hget]
          exact hkeeps _ hl
        · exact hmem
  | destroyInstance =>
      obtain ⟨m_servers, hm, heq⟩ := Option.map_eq_some_iff.mp ht
      obtain ⟨rfl, -⟩ := Prod.mk.inj heq
      have hlen : m_servers.length = n := by
        rw [h.m_servers m_servers hm, blocksOf, List.length_range']
      have hkeeps : KeepsServers s .destroyInstance ↔ n * (calls + 1) = n * 1 := by
        rw [← h.length, Nat.mul_one, ← hlen]
        exact ⟨fun hall => hall m_servers hm, fun heq m hm' =>
          Option.some.inj (hm.symm.trans hm') ▸ heq⟩
      rw [hkeeps, Nat.mul_right_inj (by omega), or_iff_left (by simp)]
      simp

end

/-! ### The servers over a run -/

/-- Every run has made the blocks of its calls and no others. -/
theorem shape_of_run {n : ℕ} {is : List OwnershipInput} {os : List Empty} {s : Ownership}
    (h : Run Ownership.Step (.init n) is os s) : ∃ calls, Shape n calls s := by
  induction h with
  | start => exact ⟨0, shape_init⟩
  | step _ ht ih =>
      obtain ⟨calls, hs⟩ := ih
      exact ⟨_, hs.step ht⟩

/-- **The servers are destroyed once, and not while they are pointed to, in every state of a
run**, exactly if there are none or each input keeps them: no list of a call of
`getServerList` is dropped without another copy of it being left, and the factory is not
destroyed after such a call. -/
theorem destroyed_once_iff {n : ℕ} {is : List OwnershipInput} {os : List Empty} {s : Ownership}
    (h : Run Ownership.Step (.init n) is os s) :
    ((Ownership.init n).DestroyedOnce n ∧
        EachStep Ownership.Step (fun _ _ s' _ => s'.DestroyedOnce n) (.init n) is) ↔
      n = 0 ∨ Along Ownership.Step KeepsServers (.init n) is := by
  rcases Nat.eq_zero_or_pos n with rfl | hn
  · have hnone : ∀ s : Ownership, s.DestroyedOnce 0 := fun s server hlt => absurd hlt (by omega)
    exact iff_of_true ⟨hnone _, fun _ _ _ _ _ _ _ _ _ _ => hnone _⟩ (.inl rfl)
  · have hstart : (Ownership.init n).DestroyedOnce n :=
      (shape_init.destroyedOnce_iff hn).mpr (.inl rfl)
    rw [or_iff_right (by omega), and_iff_right hstart]
    refine h.eachStep_iff_along deterministic_ofFn fun hrun hkeeps ht => ?_
    obtain ⟨calls, hs⟩ := shape_of_run hrun
    refine hs.destroyedOnce_step hn ?_ ht
    -- no server was destroyed too early or twice before
    refine hrun.invariant_along deterministic_ofFn hstart (fun hrun honce hi ht => ?_) hkeeps
    obtain ⟨calls, hs⟩ := shape_of_run hrun
    exact (hs.destroyedOnce_step hn honce ht).mpr hi

/-- A list that is handed out, copied, and dropped once. -/
def listKept : List OwnershipInput :=
  [.getServerList, .copyList 0, .dropList 0]

/-- With a copy of the list kept, each server is still destroyed once. -/
theorem destroyed_once_iff_listKept :
    (Ownership.init 2).DestroyedOnce 2 ∧
      EachStep Ownership.Step (fun _ _ s' _ => s'.DestroyedOnce 2) (.init 2) listKept := by
  have hrun : ∃ s, Run Ownership.Step (.init 2) listKept [] s := ⟨_, run_of_exec rfl⟩
  obtain ⟨s, hrun⟩ := hrun
  refine (destroyed_once_iff hrun).mpr (.inr ?_)
  refine along_cons rfl trivial (along_cons rfl trivial (along_cons rfl ?_ along_nil))
  -- the copy of the list is left
  intro l hl
  obtain rfl : [2, 3] = l := Option.some.inj hl
  decide

/-- The only list of a call is dropped: the server is destroyed, though the factory points to
it. With the factory it is destroyed again. -/
theorem listDropped_destroyedTwice :
    ∃ s s', Run Ownership.Step (.init 1) [.getServerList, .dropList 0] [] s ∧
      s.heap.destroyed = [0] ∧ s.m_servers = some [0] ∧ s.heap.objects[0]? = some 0 ∧
      Run Ownership.Step (.init 1) [.getServerList, .dropList 0, .destroyInstance] [] s' ∧
      s'.heap.destroyed = [0, 0] ∧ ¬ s.DestroyedOnce 1 ∧ ¬ s'.DestroyedOnce 1 := by
  exact ⟨_, _, run_of_exec rfl, rfl, rfl, rfl, run_of_exec rfl, rfl, by decide, by decide⟩

end AnyServer
