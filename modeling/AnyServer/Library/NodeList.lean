import Mathlib.Data.List.Basic
import Mathlib.Data.List.Nodup
import Mathlib.Data.List.Sort

/-!
# Linked Lists and Iterators

A doubly linked list keeps its nodes when others come and go, so that an iterator, which
is a node, stays good until its own node is erased. `NodeList` is such a list that is only
appended to at its end: the nodes are numbered as they were made, and these numbers increase
along the list. An erased node does not come back.

An `Iterator` is at a node, at the end, or `dangling`: that is what `++it` gives when the node
has been erased.

## Main results

* `Later.filter_eq`: what is left of the nodes of an earlier list.
* `mem_ids_applyAll_iff`: which node survives a sequence of changes.
* `advance_visited`: `++it` visits the nodes one by one, in order.
-/

/-- A linked list: its nodes in order, and the number of the next one. -/
structure NodeList (α : Type*) where
  nodes : List (ℕ × α)
  fresh : ℕ
  increasing : (nodes.map Prod.fst).Pairwise (· < ·)
  lt_fresh : ∀ n ∈ nodes, n.1 < fresh

namespace NodeList

variable {α : Type*}

/-- A list without nodes. -/
def empty : NodeList α :=
  { nodes := [], fresh := 0, increasing := .nil, lt_fresh := by simp }

/-- The numbers of the nodes. -/
def ids (l : NodeList α) : List ℕ :=
  l.nodes.map Prod.fst

/-- `push_back`. -/
def pushBack (l : NodeList α) (a : α) : NodeList α where
  nodes := l.nodes ++ [(l.fresh, a)]
  fresh := l.fresh + 1
  increasing := by
    rw [List.map_append, List.pairwise_append]
    refine ⟨l.increasing, List.pairwise_singleton _ _, ?_⟩
    simp only [List.map_cons, List.map_nil, List.mem_singleton, forall_eq]
    intro k hk
    obtain ⟨n, hn, rfl⟩ := List.mem_map.mp hk
    exact l.lt_fresh n hn
  lt_fresh := by
    intro n hn
    rcases List.mem_append.mp hn with hn | hn
    · exact Nat.lt_succ_of_lt (l.lt_fresh n hn)
    · obtain rfl := List.mem_singleton.mp hn
      exact Nat.lt_succ_self _

/-- `erase` of the first node with the given value, if there is one. -/
def eraseFirst [DecidableEq α] (l : NodeList α) (a : α) : NodeList α where
  nodes := l.nodes.eraseP fun n => n.2 = a
  fresh := l.fresh
  increasing := l.increasing.sublist (List.eraseP_sublist.map _)
  lt_fresh := fun n hn => l.lt_fresh n (List.mem_of_mem_eraseP hn)

@[simp] theorem nodes_pushBack (l : NodeList α) (a : α) :
    (l.pushBack a).nodes = l.nodes ++ [(l.fresh, a)] := rfl

@[simp] theorem nodes_eraseFirst [DecidableEq α] (l : NodeList α) (a : α) :
    (l.eraseFirst a).nodes = l.nodes.eraseP fun n => n.2 = a := rfl

/-- A list of the given values. -/
def ofList (as : List α) : NodeList α :=
  as.foldl pushBack empty

/-- The changes to a list. -/
inductive Change (α : Type*)
  | pushBack (a : α)
  | eraseFirst (a : α)
  deriving DecidableEq, Repr

/-- One change to a list. -/
def apply [DecidableEq α] (l : NodeList α) : Change α → NodeList α
  | .pushBack a => l.pushBack a
  | .eraseFirst a => l.eraseFirst a

/-- Several changes, one after the other. -/
def applyAll [DecidableEq α] (l : NodeList α) (changes : List (Change α)) : NodeList α :=
  changes.foldl apply l

/-! ### Iterators -/

/-- A place in a list. -/
inductive Iterator
  | atNode (k : ℕ)
  | atEnd
  | dangling
  deriving DecidableEq, Repr

/-- The node, or the end where there is none. -/
def Iterator.ofNode : Option (ℕ × α) → Iterator
  | some n => .atNode n.1
  | none => .atEnd

/-- `begin()`. -/
def begin (l : NodeList α) : Iterator :=
  .ofNode l.nodes.head?

/-- `*it`. -/
def deref (l : NodeList α) (k : ℕ) : Option α :=
  (l.nodes.find? fun n => n.1 = k).map Prod.snd

/-- `++it`. -/
def advance (l : NodeList α) (k : ℕ) : Iterator :=
  if k ∈ l.ids then .ofNode (l.nodes.dropWhile fun n => n.1 ≠ k).tail.head? else .dangling

/-- The nodes before a place. -/
def visited (l : NodeList α) : Iterator → List (ℕ × α)
  | .atNode k => l.nodes.filter fun n => n.1 < k
  | .atEnd => l.nodes
  | .dangling => []

/-! ### Splitting at a node -/

section

variable {l l' l'' : NodeList α} {k : ℕ} {a : α} {n : ℕ × α}

/-- Each node has an address of its own. -/
theorem nodup_ids (l : NodeList α) : l.ids.Nodup :=
  l.increasing.imp fun h => Nat.ne_of_lt h

/-- Addresses that are in use are never fresh. -/
theorem lt_of_mem_ids (h : k ∈ l.ids) : k < l.fresh := by
  obtain ⟨n, hn, rfl⟩ := List.mem_map.mp h
  exact l.lt_fresh n hn

/-- The address of a node is in use. -/
theorem mem_ids_of_mem (h : n ∈ l.nodes) : n.1 ∈ l.ids :=
  List.mem_map_of_mem h

/-- The list up to a node and after it. -/
theorem exists_split (h : (k, a) ∈ l.nodes) : ∃ pre post, l.nodes = pre ++ (k, a) :: post ∧
    (∀ n ∈ pre, n.1 < k) ∧ ∀ n ∈ post, k < n.1 := by
  obtain ⟨pre, post, hsplit⟩ := List.append_of_mem h
  have hinc := l.increasing
  rw [hsplit, List.map_append, List.map_cons, List.pairwise_append, List.pairwise_cons] at hinc
  obtain ⟨-, ⟨hpost, -⟩, hpre⟩ := hinc
  exact ⟨pre, post, hsplit, fun n hn => hpre n.1 (List.mem_map_of_mem hn) k List.mem_cons_self,
    fun n hn => hpost n.1 (List.mem_map_of_mem hn)⟩

/-- The nodes before the iterator are those it has passed. -/
theorem visited_at_eq {pre post : List (ℕ × α)} (hsplit : l.nodes = pre ++ n :: post)
    (hpre : ∀ m ∈ pre, m.1 < n.1) (hpost : ∀ m ∈ post, n.1 < m.1) :
    l.visited (.atNode n.1) = pre := by
  rw [visited, hsplit, List.filter_append, List.filter_eq_self.mpr (by simpa using hpre),
    List.filter_cons_of_neg (by simp), List.filter_eq_nil_iff.mpr, List.append_nil]
  intro m hm
  simpa using Nat.le_of_lt (hpost m hm)

/-- An iterator is dereferenced to the value of its node. -/
theorem deref_eq_some_iff : l.deref k = some a ↔ (k, a) ∈ l.nodes := by
  rw [deref, Option.map_eq_some_iff]
  constructor
  · rintro ⟨n, hfind, rfl⟩
    obtain rfl : n.1 = k := by simpa using List.find?_some hfind
    exact List.mem_of_find?_eq_some hfind
  · intro h
    obtain ⟨pre, post, hsplit, hpre, -⟩ := exists_split h
    refine ⟨(k, a), ?_, rfl⟩
    rw [hsplit, List.find?_append, List.find?_eq_none.mpr, Option.none_or]
    · simp
    · intro n hn
      simpa using Nat.ne_of_lt (hpre n hn)

/-- `begin()` is valid. -/
theorem begin_ne_dangling : l.begin ≠ .dangling := by
  rw [begin]
  cases l.nodes.head? <;> exact Iterator.noConfusion

/-- Nothing is before `begin()`. -/
theorem visited_begin : l.visited l.begin = [] := by
  rw [begin]
  cases hnodes : l.nodes with
  | nil => exact hnodes
  | cons n nodes =>
      have hinc := l.increasing
      rw [hnodes, List.map_cons, List.pairwise_cons] at hinc
      have hsplit : l.nodes = [] ++ n :: nodes := hnodes
      refine visited_at_eq hsplit (by simp) fun m hm => ?_
      exact hinc.1 m.1 (List.mem_map_of_mem hm)

/-- **`++it` visits one node**, and stays in the list. -/
theorem advance_visited (h : (k, a) ∈ l.nodes) :
    l.visited (l.advance k) = l.visited (.atNode k) ++ [(k, a)] ∧
      l.advance k ≠ .dangling ∧ ∀ k', l.advance k = .atNode k' → k' ∈ l.ids := by
  obtain ⟨pre, post, hsplit, hpre, hpost⟩ := exists_split h
  have hvisited : l.visited (.atNode k) = pre := visited_at_eq hsplit hpre hpost
  have hdrop : (l.nodes.dropWhile fun n => n.1 ≠ k) = (k, a) :: post := by
    rw [hsplit, List.dropWhile_append_of_pos, List.dropWhile_cons_of_neg (by simp)]
    intro n hn
    simpa using Nat.ne_of_lt (hpre n hn)
  have hadvance : l.advance k = .ofNode post.head? := by
    rw [advance, if_pos (mem_ids_of_mem h), hdrop, List.tail_cons]
  rw [hadvance, hvisited]
  cases post with
  | nil => exact ⟨hsplit, Iterator.noConfusion, fun _ => Iterator.noConfusion⟩
  | cons n post =>
      have hsplit' : l.nodes = (pre ++ [(k, a)]) ++ n :: post := by simp [hsplit]
      have hn : k < n.1 := hpost n List.mem_cons_self
      refine ⟨visited_at_eq hsplit' (fun m hm => ?_) (fun m hm => ?_), Iterator.noConfusion, ?_⟩
      · rcases List.mem_append.mp hm with hm | hm
        · exact Nat.lt_trans (hpre m hm) hn
        · rwa [List.mem_singleton.mp hm]
      · have hinc := l.increasing
        rw [hsplit', List.map_append, List.pairwise_append, List.map_cons,
          List.pairwise_cons] at hinc
        exact hinc.2.1.1 m.1 (List.mem_map_of_mem hm)
      · intro k' hk'
        obtain rfl := Iterator.atNode.inj hk'
        exact mem_ids_of_mem (by simp [hsplit])

/-- Going on from a node is valid exactly when the node is still there. -/
theorem advance_dangling_iff : l.advance k = .dangling ↔ k ∉ l.ids := by
  constructor
  · intro h hk
    obtain ⟨⟨_, a⟩, hn, rfl⟩ := List.mem_map.mp hk
    exact (advance_visited hn).2.1 h
  · intro hk
    rw [advance, if_neg hk]

/-! ### Changes -/

/-- `l'` has come out of `l`: of the nodes it had, only some may be gone. -/
structure Later (l l' : NodeList α) : Prop where
  fresh_le : l.fresh ≤ l'.fresh
  sublist : (l'.nodes.filter fun n => n.1 < l.fresh).Sublist l.nodes

/-- All nodes are older than the next one. -/
theorem filter_fresh (l : NodeList α) : (l.nodes.filter fun n => n.1 < l.fresh) = l.nodes :=
  List.filter_eq_self.mpr fun n hn => by simpa using l.lt_fresh n hn

/-- A list is as late as itself. -/
theorem Later.refl (l : NodeList α) : Later l l :=
  ⟨Nat.le_refl _, by rw [filter_fresh]⟩

/-- What is later than a later list is later. -/
theorem Later.trans (h : Later l l') (h' : Later l' l'') : Later l l'' := by
  refine ⟨Nat.le_trans h.fresh_le h'.fresh_le, ?_⟩
  have hfilter : (l''.nodes.filter fun n => n.1 < l.fresh) =
      (l''.nodes.filter fun n => n.1 < l'.fresh).filter fun n => n.1 < l.fresh := by
    rw [List.filter_filter]
    refine List.filter_congr fun n _ => ?_
    have := h.fresh_le
    rw [← Bool.decide_and, decide_eq_decide]
    omega
  rw [hfilter]
  exact (h'.sublist.filter _).trans h.sublist

/-- Appending leads to a later list. -/
theorem later_pushBack : Later l (l.pushBack a) := by
  refine ⟨Nat.le_succ _, ?_⟩
  rw [pushBack, List.filter_append, filter_fresh, List.filter_cons_of_neg (by simp),
    List.filter_nil, List.append_nil]

/-- A node that is gone does not come back. -/
theorem Later.mem_ids (h : Later l l') (hk : k < l.fresh) (hmem : k ∈ l'.ids) : k ∈ l.ids := by
  obtain ⟨n, hn, rfl⟩ := List.mem_map.mp hmem
  exact mem_ids_of_mem (h.sublist.subset (List.mem_filter.mpr ⟨hn, by simpa using hk⟩))

/-- A node that is left has kept its value. -/
theorem Later.mem_nodes (h : Later l l') (hn : (k, a) ∈ l.nodes) (hmem : k ∈ l'.ids) :
    (k, a) ∈ l'.nodes := by
  obtain ⟨⟨_, b⟩, hn', rfl⟩ := List.mem_map.mp hmem
  have hb := h.sublist.subset (List.mem_filter.mpr ⟨hn', by simpa using l.lt_fresh _ hn⟩)
  have heq := List.inj_on_of_nodup_map l.nodup_ids hn hb rfl
  exact heq ▸ hn'

/-- **What is left of an earlier list**, in its order. -/
theorem Later.filter_eq (h : Later l l') :
    (l'.nodes.filter fun n => n.1 < l.fresh) = l.nodes.filter fun n => n.1 ∈ l'.ids := by
  have hirrefl : Std.Irrefl fun n m : ℕ × α => n.1 < m.1 := ⟨fun _ => Nat.lt_irrefl _⟩
  have hasymm : Std.Asymm fun n m : ℕ × α => n.1 < m.1 := ⟨fun _ _ => Nat.lt_asymm⟩
  have hinc : ∀ l : NodeList α, l.nodes.Pairwise fun n m => n.1 < m.1 := fun l =>
    List.pairwise_map.mp l.increasing
  refine ((hinc l').filter _).eq_of_mem_iff ((hinc l).filter _) fun n => ?_
  rw [List.mem_filter, List.mem_filter, decide_eq_true_eq, decide_eq_true_eq]
  constructor
  · rintro ⟨hn, hlt⟩
    exact ⟨h.sublist.subset (List.mem_filter.mpr ⟨hn, by simpa using hlt⟩), mem_ids_of_mem hn⟩
  · rintro ⟨hn, hmem⟩
    exact ⟨h.mem_nodes hn hmem, l.lt_fresh n hn⟩

/-- Of the nodes before a node, what is left. -/
theorem Later.visited_eq (h : Later l l') (hk : k < l.fresh) :
    l'.visited (.atNode k) = (l.visited (.atNode k)).filter fun n => n.1 ∈ l'.ids := by
  have hfilter : l'.visited (.atNode k) =
      (l'.nodes.filter fun n => n.1 < l.fresh).filter fun n => n.1 < k := by
    rw [visited, List.filter_filter]
    refine List.filter_congr fun n _ => ?_
    rw [← Bool.decide_and, decide_eq_decide]
    omega
  rw [hfilter, h.filter_eq, visited, List.filter_comm]

variable [DecidableEq α] {c : Change α} {changes : List (Change α)}

/-- So does erasing. -/
theorem later_eraseFirst : Later l (l.eraseFirst a) := by
  refine ⟨Nat.le_refl _, ?_⟩
  exact (List.eraseP_sublist.filter _).trans (by rw [filter_fresh])

/-- So does either change. -/
theorem later_apply : Later l (l.apply c) := by
  cases c with
  | pushBack a => exact later_pushBack
  | eraseFirst a => exact later_eraseFirst

/-- So do any changes. -/
theorem later_applyAll : Later l (l.applyAll changes) := by
  induction changes generalizing l with
  | nil => exact .refl l
  | cons c changes ih => exact later_apply.trans ih

/-! ### Surviving -/

/-- The values before a node. -/
def ahead (l : NodeList α) (k : ℕ) : List α :=
  (l.visited (.atNode k)).map Prod.snd

omit [DecidableEq α] in
/-- A new node comes after all others. -/
theorem ahead_pushBack (h : (k, a) ∈ l.nodes) (b : α) :
    (k, a) ∈ (l.pushBack b).nodes ∧ (l.pushBack b).ahead k = l.ahead k := by
  refine ⟨List.mem_append_left _ h, ?_⟩
  obtain ⟨pre, post, hsplit, hpre, hpost⟩ := exists_split h
  have hsplit' : (l.pushBack b).nodes = pre ++ (k, a) :: (post ++ [(l.fresh, b)]) := by
    simp [hsplit]
  rw [ahead, ahead, visited_at_eq hsplit hpre hpost, visited_at_eq hsplit' hpre]
  intro m hm
  rcases List.mem_append.mp hm with hm | hm
  · exact hpost m hm
  · rw [List.mem_singleton.mp hm]
    exact l.lt_fresh _ h

/-- An erasure that does not meet the node. -/
theorem ahead_eraseFirst {b : α} (h : (k, a) ∈ l.nodes) (hb : b ∈ l.ahead k ∨ b ≠ a) :
    (k, a) ∈ (l.eraseFirst b).nodes ∧ (l.eraseFirst b).ahead k = (l.ahead k).erase b := by
  obtain ⟨pre, post, hsplit, hpre, hpost⟩ := exists_split h
  have hahead : l.ahead k = pre.map Prod.snd := by
    rw [ahead, visited_at_eq hsplit hpre hpost]
  have herase : (pre.map Prod.snd).erase b = (pre.eraseP fun n => n.2 = b).map Prod.snd := by
    rw [List.erase_eq_eraseP', List.eraseP_map]
    congr
  rw [hahead] at hb ⊢
  by_cases hfirst : b ∈ pre.map Prod.snd
  · obtain ⟨n, hn, hnb⟩ := List.mem_map.mp hfirst
    have hsplit' : (l.eraseFirst b).nodes =
        (pre.eraseP fun n => n.2 = b) ++ (k, a) :: post := by
      rw [nodes_eraseFirst, hsplit, List.eraseP_append_left (by simpa using hnb) _ hn]
    refine ⟨hsplit' ▸ List.mem_append_cons_self, ?_⟩
    rw [ahead, visited_at_eq hsplit' (fun m hm => hpre m (List.mem_of_mem_eraseP hm)) hpost,
      herase]
  · have hne : b ≠ a := hb.resolve_left hfirst
    have hpass : ∀ n ∈ pre, ¬ decide (n.2 = b) = true := fun n hn hnb =>
      hfirst (List.mem_map.mpr ⟨n, hn, by simpa using hnb⟩)
    have hsplit' : (l.eraseFirst b).nodes =
        pre ++ (k, a) :: (post.eraseP fun n => n.2 = b) := by
      rw [nodes_eraseFirst, hsplit, List.eraseP_append_right _ hpass,
        List.eraseP_cons_of_neg (by simpa using Ne.symm hne)]
    refine ⟨hsplit' ▸ List.mem_append_cons_self, ?_⟩
    rw [ahead, visited_at_eq hsplit' hpre fun m hm => hpost m (List.mem_of_mem_eraseP hm),
      List.erase_of_not_mem hfirst]

/-- The erasure of the first node with the value is that of the node. -/
theorem not_mem_ids_eraseFirst (h : (k, a) ∈ l.nodes) (ha : a ∉ l.ahead k) :
    k ∉ (l.eraseFirst a).ids := by
  obtain ⟨pre, post, hsplit, hpre, hpost⟩ := exists_split h
  rw [ahead, visited_at_eq hsplit hpre hpost] at ha
  have hpass : ∀ n ∈ pre, ¬ decide (n.2 = a) = true := fun n hn hna =>
    ha (List.mem_map.mpr ⟨n, hn, by simpa using hna⟩)
  rw [ids, nodes_eraseFirst, hsplit, List.eraseP_append_right _ hpass,
    List.eraseP_cons_of_pos (by simp), List.map_append, List.mem_append]
  rintro (hmem | hmem)
  · obtain ⟨n, hn, rfl⟩ := List.mem_map.mp hmem
    exact Nat.lt_irrefl _ (hpre n hn)
  · obtain ⟨n, hn, rfl⟩ := List.mem_map.mp hmem
    exact Nat.lt_irrefl _ (hpost n hn)

/-- **When a node survives**: its value is not erased more often than it occurs before the
node. -/
theorem mem_ids_applyAll_iff (h : (k, a) ∈ l.nodes) :
    k ∈ (l.applyAll changes).ids ↔
      changes.count (.eraseFirst a) ≤ (l.ahead k).count a := by
  induction changes generalizing l with
  | nil => exact iff_of_true (mem_ids_of_mem h) (Nat.zero_le _)
  | cons c changes ih =>
      cases c with
      | pushBack b =>
          obtain ⟨hmem, hahead⟩ := ahead_pushBack h b
          rw [List.count_cons_of_ne (by simp), ← hahead]
          exact ih hmem
      | eraseFirst b =>
          by_cases hab : b = a
          · subst hab
            rw [List.count_cons_self]
            by_cases hb : b ∈ l.ahead k
            · obtain ⟨hmem, hahead⟩ := ahead_eraseFirst h (.inl hb)
              have hpos := List.count_pos_iff.mpr hb
              refine (ih hmem).trans ?_
              rw [hahead, List.count_erase_self]
              omega
            · refine iff_of_false (fun hmem => not_mem_ids_eraseFirst h hb ?_) ?_
              · exact later_applyAll.mem_ids (l.lt_fresh _ h) hmem
              · rw [List.count_eq_zero.mpr hb]
                omega
          · obtain ⟨hmem, hahead⟩ := ahead_eraseFirst h (.inr hab)
            refine (ih hmem).trans ?_
            rw [hahead, List.count_erase_of_ne (Ne.symm hab),
              List.count_cons_of_ne (by simpa using hab)]

end

end NodeList
