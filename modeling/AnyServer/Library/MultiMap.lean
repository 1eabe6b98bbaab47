import Mathlib.Data.List.Sort

/-!
# Maps with Repeated Keys

A map from keys to values, kept as a list in order of the keys, in which a key may have several
values. A new value goes behind those that its key has. `equalRange m k` are the entries of one
key: what there is from the first entry that is not below `k` to the last that is not above it.

## Main results

* `equalRange_insert`: the values of a key are in the order in which they were inserted.
* `perm_insert`: an insertion adds one entry.
-/

/-- A map with any number of entries for a key: a list in order of the keys. -/
structure MultiMap (κ α : Type*) [LinearOrder κ] where
  entries : List (κ × α)
  sorted : entries.Pairwise fun x y => x.1 ≤ y.1

namespace MultiMap

variable {κ α : Type*} [LinearOrder κ] {m : MultiMap κ α} {k k' : κ} {a : α}
  {l : List (κ × α)} {x : κ × α}

/-- A map without entries. -/
def empty : MultiMap κ α :=
  ⟨[], .nil⟩

/-- Whether the first entry belongs before the second, behind all entries of its own key. -/
abbrev Above (x y : κ × α) : Prop :=
  x.1 < y.1

/-- Inserting keeps the order of the keys. -/
theorem pairwise_orderedInsert (hl : l.Pairwise fun x y => x.1 ≤ y.1) :
    (l.orderedInsert Above x).Pairwise fun x y => x.1 ≤ y.1 := by
  induction l with
  | nil => simp
  | cons y l ih =>
      obtain ⟨hy, hl⟩ := List.pairwise_cons.mp hl
      rw [List.orderedInsert_cons]
      split
      · next hlt =>
        refine .cons (fun z hz => ?_) (.cons hy hl)
        rcases List.mem_cons.mp hz with rfl | hz
        · exact hlt.le
        · exact hlt.le.trans (hy z hz)
      · next hle =>
        refine .cons (fun z hz => ?_) (ih hl)
        rcases List.mem_orderedInsert Above |>.mp hz with rfl | hz
        · exact not_lt.mp hle
        · exact hy z hz

/-- `insert` of a `std::multimap`. -/
def insert (m : MultiMap κ α) (k : κ) (a : α) : MultiMap κ α :=
  ⟨m.entries.orderedInsert Above (k, a), pairwise_orderedInsert m.sorted⟩

/-- `equal_range`. -/
def equalRange (m : MultiMap κ α) (k : κ) : List (κ × α) :=
  (m.entries.dropWhile fun x => x.1 < k).takeWhile fun x => x.1 ≤ k

/-- The keys, in order. -/
def keys (m : MultiMap κ α) : List κ :=
  m.entries.map Prod.fst

/-- Inserting adds one entry. -/
theorem perm_insert : (m.insert k a).entries.Perm ((k, a) :: m.entries) :=
  List.perm_orderedInsert Above (k, a) m.entries

/-- It adds one key. -/
theorem perm_keys_insert : (m.insert k a).keys.Perm (k :: m.keys) :=
  perm_insert.map Prod.fst

/-- The entries are the old ones and the new one. -/
theorem mem_insert : x ∈ (m.insert k a).entries ↔ x = (k, a) ∨ x ∈ m.entries :=
  List.mem_orderedInsert Above

/-! ### The entries of one key -/

/-- Of entries whose keys are all at least `k` those of `k` come first. -/
theorem takeWhile_eq_filter (hl : l.Pairwise fun x y => x.1 ≤ y.1) (hk : ∀ x ∈ l, k ≤ x.1) :
    l.takeWhile (fun x => x.1 ≤ k) = l.filter fun x => x.1 = k := by
  induction l with
  | nil => rfl
  | cons x l ih =>
      obtain ⟨hx, hl⟩ := List.pairwise_cons.mp hl
      obtain ⟨hkx, hk⟩ := List.forall_mem_cons.mp hk
      by_cases hle : x.1 ≤ k
      · have heq : x.1 = k := le_antisymm hle hkx
        simp [heq, ih hl hk]
      · have hnone : l.filter (fun y => y.1 = k) = [] := by
          refine List.filter_eq_nil_iff.mpr fun y hy => ?_
          have hlt : k < y.1 := (not_le.mp hle).trans_le (hx y hy)
          simpa using hlt.ne'
        have hne : x.1 ≠ k := fun heq => hle heq.le
        simp [hle, hne, hnone]

/-- In an ordered list the elements with a key stand together. -/
theorem takeWhile_dropWhile_eq_filter (hl : l.Pairwise fun x y => x.1 ≤ y.1) :
    (l.dropWhile fun x => x.1 < k).takeWhile (fun x => x.1 ≤ k) = l.filter fun x => x.1 = k := by
  induction l with
  | nil => rfl
  | cons x l ih =>
      have hcons := hl
      obtain ⟨hx, hl⟩ := List.pairwise_cons.mp hl
      by_cases hlt : x.1 < k
      · rw [List.dropWhile_cons_of_pos (by simpa using hlt), ih hl,
          List.filter_cons_of_neg (by simpa using hlt.ne)]
      · rw [List.dropWhile_cons_of_neg (by simpa using hlt)]
        refine takeWhile_eq_filter hcons (List.forall_mem_cons.mpr ⟨not_lt.mp hlt, ?_⟩)
        exact fun y hy => (not_lt.mp hlt).trans (hx y hy)

/-- **The range of a key** is all its entries. -/
theorem equalRange_eq_filter (m : MultiMap κ α) (k : κ) :
    m.equalRange k = m.entries.filter fun x => x.1 = k :=
  takeWhile_dropWhile_eq_filter m.sorted

/-- A new entry comes behind those with the same key. -/
theorem filter_orderedInsert (hl : l.Pairwise fun x y => x.1 ≤ y.1) :
    (l.orderedInsert Above (k, a)).filter (fun x => x.1 = k') =
      (l.filter fun x => x.1 = k') ++ if k = k' then [(k, a)] else [] := by
  induction l with
  | nil => by_cases hk : k = k' <;> simp [hk]
  | cons x l ih =>
      obtain ⟨hx, hl⟩ := List.pairwise_cons.mp hl
      rw [List.orderedInsert_cons]
      split
      · next hlt =>
        -- behind the new entry all keys are above its own
        by_cases hk : k = k'
        · subst hk
          have hnone : (x :: l).filter (fun y => y.1 = k) = [] := by
            refine List.filter_eq_nil_iff.mpr fun y hy => ?_
            have hlt' : k < y.1 := by
              rcases List.mem_cons.mp hy with rfl | hy
              · exact hlt
              · exact hlt.trans_le (hx y hy)
            simpa using hlt'.ne'
          rw [List.filter_cons_of_pos (by simp), hnone, if_pos rfl, List.nil_append]
        · rw [List.filter_cons_of_neg (by simpa using hk), if_neg hk, List.append_nil]
      · rw [List.filter_cons, List.filter_cons, ih hl]
        split <;> simp

/-- **A new entry comes last among those of its key**, and changes nothing for other keys. -/
theorem equalRange_insert :
    (m.insert k a).equalRange k' = m.equalRange k' ++ if k = k' then [(k, a)] else [] := by
  rw [equalRange_eq_filter, equalRange_eq_filter]
  exact filter_orderedInsert m.sorted

end MultiMap
