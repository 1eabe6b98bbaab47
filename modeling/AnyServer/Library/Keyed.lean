import Mathlib.Data.List.Nodup
import Mathlib.Data.List.NodupEquivFin
import Mathlib.Data.List.Perm.Basic

/-!
# Lists Searched by a Key

A list whose elements carry a key, searched from the front and pruned by key: the shape of
every registry kept as a plain linked list. `find f l k` is the first element of `l` whose
key `f a` is `k`, and `remove f l k` drops every element with that key.

The operations themselves need no uniqueness; the lemmas that make them behave like a map
do, and take it as `(l.map f).Nodup`.

## Main results

* `find_eq_some_of_mem`: with distinct keys the search finds the element it is given the
  key of.
* `findIdx?_eq_some`: the same for a search by position.
* `find_eq_none_iff`: the search fails exactly on keys that do not occur.
* `map_remove`: with distinct keys, removal erases one key and keeps the rest in order.
* `map_remove_find`: the same for a second key that the element was found by.
* `map_set`: an element replaced by one with the same key leaves all keys in place.
-/

namespace Keyed

variable {α κ : Type*} [DecidableEq κ] {f : α → κ} {l : List α} {a : α} {k : κ}

/-- The first element with key `k`. -/
def find (f : α → κ) (l : List α) (k : κ) : Option α :=
  l.find? fun a => k == f a

/-- The list without the elements whose key is `k`. -/
def remove (f : α → κ) (l : List α) (k : κ) : List α :=
  l.filter fun a => f a != k

/-- What is found has the key. -/
theorem key_of_find (h : find f l k = some a) : f a = k := by
  have := List.find?_some h
  simp only [beq_iff_eq] at this
  exact this.symm

/-- What is found is in the list. -/
theorem mem_of_find (h : find f l k = some a) : a ∈ l :=
  List.mem_of_find?_eq_some h

/-- Nothing is found exactly when the key is not used. -/
theorem find_eq_none_iff : find f l k = none ↔ k ∉ l.map f := by
  simp only [find, List.find?_eq_none, beq_iff_eq, List.mem_map, not_exists, not_and]
  exact ⟨fun h x hx hk => h x hx hk.symm, fun h x hx hk => h x hx hk.symm⟩

/-- Something is found exactly when it is. -/
theorem find_isSome_iff : (find f l k).isSome ↔ k ∈ l.map f := by
  rw [← not_iff_not, Bool.not_eq_true, Option.isSome_eq_false_iff, Option.isNone_iff_eq_none,
    find_eq_none_iff]

/-- An element whose key no earlier element has is the one the search finds. -/
theorem find_eq_some_of_mem (hnd : (l.map f).Nodup) (ha : a ∈ l) :
    find f l (f a) = some a := by
  obtain ⟨b, hb⟩ := Option.isSome_iff_exists.mp
    (find_isSome_iff.mpr (List.mem_map_of_mem (f := f) ha))
  have hba : b = a := List.inj_on_of_nodup_map hnd (mem_of_find hb) ha (key_of_find hb)
  rw [hb, hba]

omit [DecidableEq κ] in
/-- Of two keys that tell the same elements apart, one is distinct if the other is. -/
theorem nodup_map_congr {γ : Type*} {g : α → γ}
    (h : ∀ a ∈ l, ∀ b ∈ l, f a = f b ↔ g a = g b) : (l.map f).Nodup ↔ (l.map g).Nodup := by
  rw [List.Nodup, List.Nodup, List.pairwise_map, List.pairwise_map]
  exact List.Pairwise.iff_of_mem fun ha hb => not_congr (h _ ha _ hb)

/-- With distinct keys, a search by position finds every element where it is. -/
theorem findIdx?_eq_some (hnd : (l.map f).Nodup) {j : ℕ} (h : l[j]? = some a) :
    l.findIdx? (fun b => f a == f b) = some j := by
  obtain ⟨hj, rfl⟩ := List.getElem?_eq_some_iff.mp h
  refine List.findIdx?_eq_some_iff_getElem.mpr ⟨hj, by simp, fun i hij => ?_⟩
  have hi : i < l.length := Nat.lt_trans hij hj
  have hne := List.pairwise_iff_getElem.mp hnd i j (by simpa) (by simpa) hij
  simpa using Ne.symm hne

omit [DecidableEq κ] in
/-- An element replaced by one with the same key. -/
theorem map_set {a' : α} {j : ℕ} (h : l[j]? = some a) (hkey : f a' = f a) :
    (l.set j a').map f = l.map f := by
  obtain ⟨hlt, rfl⟩ := List.getElem?_eq_some_iff.mp h
  have hset : ∀ (ks : List κ) (hj : j < ks.length), ks.set j ks[j] = ks :=
    fun _ hj => List.set_getElem_self hj
  have hmap := hset (l.map f) (by simpa using hlt)
  rw [List.getElem_map] at hmap
  rw [List.map_set, hkey]
  exact hmap

/-- What a list holds after an element has been replaced. -/
theorem getElem?_set_cases {a' b : α} {i j : ℕ} (h : l[j]? = some a)
    (hi : (l.set j a')[i]? = some b) : i = j ∧ b = a' ∨ i ≠ j ∧ l[i]? = some b := by
  by_cases hij : i = j
  · subst hij
    obtain ⟨hlt, -⟩ := List.getElem?_eq_some_iff.mp h
    rw [List.getElem?_set_self hlt] at hi
    exact .inl ⟨rfl, (Option.some.inj hi).symm⟩
  · rw [List.getElem?_set_ne (Ne.symm hij)] at hi
    exact .inr ⟨hij, hi⟩

@[simp] theorem find_nil : find f ([] : List α) k = none := rfl

@[simp] theorem remove_nil : remove f ([] : List α) k = [] := rfl

/-- What is left is what has another key. -/
@[simp] theorem mem_remove : a ∈ remove f l k ↔ a ∈ l ∧ f a ≠ k := by
  simp [remove]

/-- Removing keeps the order of what is left. -/
theorem remove_sublist : (remove f l k).Sublist l :=
  List.filter_sublist

/-- Removing an absent key changes nothing. -/
theorem remove_eq_self (h : k ∉ l.map f) : remove f l k = l := by
  refine List.filter_eq_self.mpr fun a ha => ?_
  simp only [bne_iff_ne, ne_eq]
  rintro rfl
  exact h (List.mem_map_of_mem ha)

/-- With distinct keys, removal erases exactly one occurrence of the key. -/
theorem map_remove (hnd : (l.map f).Nodup) :
    (remove f l k).map f = (l.map f).erase k := by
  rw [hnd.erase_eq_filter, remove, List.filter_map]
  rfl

/-- Removing keeps the keys distinct. -/
theorem nodup_map_remove (hnd : (l.map f).Nodup) : ((remove f l k).map f).Nodup :=
  hnd.sublist (remove_sublist.map f)

omit [DecidableEq κ] in
/-- With distinct keys an element is told apart from the others by its key. -/
theorem key_eq_iff (hnd : (l.map f).Nodup) {b : α} (hb : b ∈ l) (ha : a ∈ l) :
    f b = f a ↔ b = a :=
  ⟨List.inj_on_of_nodup_map hnd hb ha, congrArg f⟩

/-- Two keys that are both distinct: it is the same to remove an element by the one or by the
other. -/
theorem remove_eq_remove {γ : Type*} [DecidableEq γ] {g : α → γ} (hf : (l.map f).Nodup)
    (hg : (l.map g).Nodup) (ha : a ∈ l) : remove f l (f a) = remove g l (g a) := by
  refine List.filter_congr fun b hb => ?_
  rw [Bool.eq_iff_iff, bne_iff_ne, bne_iff_ne]
  exact not_congr ((key_eq_iff hf hb ha).trans (key_eq_iff hg hb ha).symm)

/-- With distinct keys, what is removed is the one element with the key. -/
theorem remove_eq_erase [DecidableEq α] (hnd : (l.map f).Nodup) (ha : a ∈ l) :
    remove f l (f a) = l.erase a := by
  rw [hnd.of_map.erase_eq_filter]
  refine List.filter_congr fun b hb => ?_
  rw [Bool.eq_iff_iff, bne_iff_ne, bne_iff_ne]
  exact not_congr (key_eq_iff hnd hb ha)

/-- The keys of mapped elements. -/
theorem remove_map {β : Type*} {g : β → α} {l : List β} :
    remove f (l.map g) k = (remove (fun b => f (g b)) l k).map g :=
  List.filter_map

/-- Two keys, of which `f` is distinct: removing by `f` the first element whose `g`-key is
`k` erases the first occurrence of `k` among the `g`-keys. -/
theorem map_remove_find {γ : Type*} [DecidableEq γ] {g : α → γ} {j : γ}
    (hnd : (l.map f).Nodup) (h : find g l j = some a) :
    (remove f l (f a)).map g = (l.map g).erase j := by
  induction l with
  | nil => simp at h
  | cons b l ih =>
      obtain ⟨hb, hnd⟩ := List.nodup_cons.mp (by simpa only [List.map_cons] using hnd)
      by_cases hj : j = g b
      · obtain rfl : b = a := by simpa [find, hj] using h
        have hl : remove f (b :: l) (f b) = remove f l (f b) := by simp [remove]
        rw [hl, remove_eq_self hb, hj, List.map_cons, List.erase_cons_head]
      · have h : find g l j = some a := by simpa [find, List.find?_cons, hj] using h
        have hba : f b ≠ f a := fun he => hb (he ▸ List.mem_map_of_mem (mem_of_find h))
        have hl : remove f (b :: l) (f a) = b :: remove f l (f a) := by simp [remove, hba]
        rw [hl, List.map_cons, List.map_cons, ih hnd h,
          List.erase_cons_tail (by simpa using Ne.symm hj)]

omit [DecidableEq κ] in
/-- Appending an element with a new key keeps the keys distinct. -/
theorem nodup_map_concat (hnd : (l.map f).Nodup) (ha : f a ∉ l.map f) :
    ((l ++ [a]).map f).Nodup := by
  rw [List.map_append, List.map_singleton]
  exact List.Nodup.append hnd (List.nodup_singleton _)
    (List.disjoint_singleton.mpr ha)

omit [DecidableEq κ] in
/-- What occurs at most once has at most one position. -/
theorem count_le_one_iff [DecidableEq α] :
    l.count a ≤ 1 ↔ ∀ i j : ℕ, l[i]? = some a → l[j]? = some a → i = j := by
  rw [← not_iff_not, Nat.not_le, Nat.lt_iff_add_one_le, ← List.duplicate_iff_two_le_count,
    List.duplicate_iff_exists_distinct_get]
  constructor
  · rintro ⟨n, m, hlt, hn, hm⟩ hall
    have heq := hall n m (by simp [hn]) (by simp [hm])
    have hlt : n.1 < m.1 := hlt
    omega
  · intro hall
    simp only [not_forall] at hall
    obtain ⟨i, j, hi, hj, hne⟩ := hall
    obtain ⟨hilt, hi⟩ := List.getElem?_eq_some_iff.mp hi
    obtain ⟨hjlt, hj⟩ := List.getElem?_eq_some_iff.mp hj
    rcases Nat.lt_or_gt_of_ne hne with hlt | hlt
    · exact ⟨⟨i, hilt⟩, ⟨j, hjlt⟩, hlt, hi.symm, hj.symm⟩
    · exact ⟨⟨j, hjlt⟩, ⟨i, hilt⟩, hlt, hj.symm, hi.symm⟩

end Keyed
