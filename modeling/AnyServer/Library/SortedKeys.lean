import Mathlib.Data.List.Sort

/-!
# Maps as Lists in Order of their Keys

A map from keys to values, kept as a list in increasing order of the keys, each of which it has
once. `assign m k a` gives the key `k` the value `a`, whether `m` has the key or not, and keeps
the order. A map that is filled from a list of entries has, for each key, the last of its values.

## Main results

* `sorted_assign` / `sorted_ofList`: an assignment keeps the order, so that every map that is
  filled by assignments is in order.
* `lookup_assign`: an assignment changes the value of its key only.
* `lookup_ofList`: of several values of a key the last one stays.
* `ofList_of_sorted`: a list in order is what it is filled with.
-/

namespace SortedKeys

variable {κ α : Type*} [LinearOrder κ] {m l : List (κ × α)} {k k' : κ} {a : α} {x : κ × α}

/-- The keys of a list of entries increase. -/
def Sorted (m : List (κ × α)) : Prop :=
  m.Pairwise fun x y => x.1 < y.1

/-- Give a key a value. -/
def assign : List (κ × α) → κ → α → List (κ × α)
  | [], k, a => [(k, a)]
  | x :: m, k, a =>
      if k < x.1 then (k, a) :: x :: m
      else if k = x.1 then (k, a) :: m
      else x :: assign m k a

/-- Assign the entries of a list, one after the other. -/
def assignAll (m l : List (κ × α)) : List (κ × α) :=
  l.foldl (fun m x => assign m x.1 x.2) m

/-- The map that is filled with the entries of a list. -/
def ofList (l : List (κ × α)) : List (κ × α) :=
  assignAll [] l

@[simp] theorem assignAll_nil : assignAll m [] = m := rfl

@[simp] theorem assignAll_cons : assignAll m (x :: l) = assignAll (assign m x.1 x.2) l := rfl

/-- An empty list is sorted. -/
theorem sorted_nil : Sorted ([] : List (κ × α)) :=
  .nil

/-- The order is one of the keys. -/
theorem sorted_iff : Sorted m ↔ (m.map Prod.fst).Pairwise (· < ·) :=
  List.pairwise_map.symm

/-- Other values leave the order of the keys. -/
theorem sorted_map {β : Type*} {f : κ × α → κ × β} (hf : ∀ x, (f x).1 = x.1) (hm : Sorted m) :
    Sorted (m.map f) := by
  refine List.pairwise_map.mpr (List.Pairwise.imp (fun {x y} h => ?_) hm)
  rwa [hf, hf]

/-- The entries after an assignment are the new one and some of those before. -/
theorem mem_assign (h : x ∈ assign m k a) : x = (k, a) ∨ x ∈ m := by
  induction m with
  | nil => exact .inl (List.mem_singleton.mp h)
  | cons y m ih =>
      simp only [assign] at h
      split at h
      · exact List.mem_cons.mp h
      · split at h
        · exact (List.mem_cons.mp h).imp_right (List.mem_cons_of_mem y)
        · rcases List.mem_cons.mp h with rfl | h
          · exact .inr List.mem_cons_self
          · exact (ih h).imp_right (List.mem_cons_of_mem y)

/-- **An assignment keeps the order.** -/
theorem sorted_assign (hm : Sorted m) : Sorted (assign m k a) := by
  induction m with
  | nil => exact List.pairwise_singleton _ _
  | cons x m ih =>
      obtain ⟨hx, hm⟩ := List.pairwise_cons.mp hm
      simp only [assign]
      split
      · next hlt =>
        refine .cons (fun y hy => ?_) (.cons hx hm)
        rcases List.mem_cons.mp hy with rfl | hy
        · exact hlt
        · exact hlt.trans (hx y hy)
      · split
        · next heq => exact .cons (fun y hy => heq ▸ hx y hy) hm
        · next hlt hne =>
          refine .cons (fun y hy => ?_) (ih hm)
          rcases mem_assign hy with rfl | hy
          · exact lt_of_le_of_ne (not_lt.mp hlt) (Ne.symm hne)
          · exact hx y hy

/-- **An assignment changes the value of its key only.** -/
theorem lookup_assign [BEq κ] [LawfulBEq κ] :
    (assign m k a).lookup k' = if k' = k then some a else m.lookup k' := by
  induction m with
  | nil =>
      simp only [assign, List.lookup_cons, List.lookup_nil, beq_eq_decide]
      by_cases h : k' = k <;> simp [h]
  | cons x m ih =>
      obtain ⟨k₀, a₀⟩ := x
      simp only [assign]
      split
      · simp only [List.lookup_cons, beq_eq_decide]
        by_cases h : k' = k <;> simp [h]
      · split
        · next heq =>
          subst heq
          simp only [List.lookup_cons, beq_eq_decide]
          by_cases h : k' = k <;> simp [h]
        · next hne =>
          simp only [List.lookup_cons, beq_eq_decide, ih]
          by_cases h : k' = k₀
          · simp [h, Ne.symm hne]
          · simp [h]

/-- A key above all others goes to the end. -/
theorem assign_of_forall_lt (h : ∀ x ∈ m, x.1 < k) : assign m k a = m ++ [(k, a)] := by
  induction m with
  | nil => rfl
  | cons x m ih =>
      have hx : x.1 < k := h x List.mem_cons_self
      rw [assign, if_neg hx.not_gt, if_neg hx.ne',
        ih fun y hy => h y (List.mem_cons_of_mem x hy), List.cons_append]

/-- Assigning keeps the keys sorted. -/
theorem sorted_assignAll (hm : Sorted m) : Sorted (assignAll m l) := by
  induction l generalizing m with
  | nil => exact hm
  | cons x l ih => exact ih (sorted_assign hm)

/-- So a list made by assigning is sorted. -/
theorem sorted_ofList : Sorted (ofList l) :=
  sorted_assignAll sorted_nil

/-- The last value assigned to a key is the one that is found. -/
theorem lookup_assignAll [BEq κ] [LawfulBEq κ] :
    (assignAll m l).lookup k = (l.reverse.lookup k).or (m.lookup k) := by
  induction l generalizing m with
  | nil => rfl
  | cons x l ih =>
      obtain ⟨k₀, a₀⟩ := x
      rw [assignAll_cons, ih, lookup_assign, List.reverse_cons, List.lookup_append]
      simp only [List.lookup_cons, List.lookup_nil, beq_eq_decide]
      by_cases h : k = k₀ <;> cases l.reverse.lookup k <;> simp [h]

/-- **The last value of a key stays.** -/
theorem lookup_ofList [BEq κ] [LawfulBEq κ] : (ofList l).lookup k = l.reverse.lookup k := by
  rw [ofList, lookup_assignAll, List.lookup_nil, Option.or_none]

/-- Assigning what is sorted behind the list appends it. -/
theorem assignAll_of_sorted (h : Sorted (m ++ l)) : assignAll m l = m ++ l := by
  induction l generalizing m with
  | nil => exact (List.append_nil m).symm
  | cons x l ih =>
      have hlt : ∀ y ∈ m, y.1 < x.1 := fun y hy =>
        (List.pairwise_append.mp h).2.2 y hy x List.mem_cons_self
      rw [assignAll_cons, assign_of_forall_lt hlt, ih (by simpa using h), List.append_assoc,
        List.singleton_append]

/-- **A list in order is what it is filled with.** -/
theorem ofList_of_sorted (h : Sorted l) : ofList l = l :=
  assignAll_of_sorted (m := []) h

end SortedKeys
