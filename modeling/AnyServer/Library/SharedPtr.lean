import Mathlib.Data.Finset.Card
import Mathlib.Data.List.Range

/-!
# Shared Pointers

A shared pointer points to a control block, which counts its owners and knows one object. The
last owner to go destroys the object. `adopt` makes a new block for a plain pointer, whether
or not the object has a block already: then two blocks count owners of one object, and each
destroys it.

`Owned heap held` says that the pointers in existence are `held`, each as often as it occurs
there. It is kept by the operations when the list is changed with them, and it decides the
counts, and how often each object has been destroyed: once for each of its blocks that is
without owners.

## Main results

* `Owned.copy`, `Owned.drop`, `Owned.adopt`: the operations keep `Owned`.
* `exact_iff`: an object is destroyed once, and not while it is pointed to, exactly if all its
  blocks have owners or it has only one.
-/

namespace SharedPtr

/-- Control blocks, numbered as they were made: the object of each, its number of owners, and
the objects destroyed. -/
structure Heap (α : Type*) where
  objects : List α
  owners : ℕ → ℕ
  destroyed : List α

variable {α : Type*}

/-- `shared_ptr(T *)`: a new block for the object, with one owner. -/
def Heap.adopt (heap : Heap α) (a : α) : Heap α × ℕ :=
  ({ heap with
      objects := heap.objects ++ [a]
      owners := Function.update heap.owners heap.objects.length 1 },
    heap.objects.length)

/-- A copy of a pointer. -/
def Heap.copy (heap : Heap α) (p : ℕ) : Heap α :=
  { heap with owners := Function.update heap.owners p (heap.owners p + 1) }

/-- The end of a pointer. -/
def Heap.drop (heap : Heap α) (p : ℕ) : Heap α :=
  { heap with
    owners := Function.update heap.owners p (heap.owners p - 1)
    destroyed :=
      if heap.owners p = 1 then heap.destroyed ++ heap.objects[p]?.toList else heap.destroyed }

/-- Copies of a list of pointers. -/
def Heap.copyAll (heap : Heap α) (ps : List ℕ) : Heap α :=
  ps.foldl Heap.copy heap

/-- The end of a list of pointers. -/
def Heap.dropAll (heap : Heap α) (ps : List ℕ) : Heap α :=
  ps.foldl Heap.drop heap

/-- New blocks for a list of objects. -/
def Heap.adoptAll (heap : Heap α) : List α → Heap α × List ℕ
  | [] => (heap, [])
  | a :: as =>
      let r := (heap.adopt a).1.adoptAll as
      (r.1, (heap.adopt a).2 :: r.2)

/-- The blocks of an object that no pointer is left of. -/
def Heap.dead [DecidableEq α] (heap : Heap α) (held : List ℕ) (a : α) : Finset ℕ :=
  (Finset.range heap.objects.length).filter fun p => heap.objects[p]? = some a ∧ p ∉ held

/-- The pointers in existence are `held`. -/
structure Owned [DecidableEq α] (heap : Heap α) (held : List ℕ) : Prop where
  owners : ∀ p, heap.owners p = held.count p
  lt_length : ∀ p ∈ held, p < heap.objects.length
  destroyed : ∀ a, heap.destroyed.count a = (heap.dead held a).card

/-- The object is destroyed once, and not while there is a pointer to it. -/
def Heap.Exact [DecidableEq α] (heap : Heap α) (held : List ℕ) (a : α) : Prop :=
  heap.destroyed.count a = if ∃ p ∈ held, heap.objects[p]? = some a then 0 else 1

instance [DecidableEq α] {heap : Heap α} {held : List ℕ} {a : α} :
    Decidable (heap.Exact held a) :=
  inferInstanceAs (Decidable (_ = _))

section

variable [DecidableEq α] {heap : Heap α} {held held' ps : List ℕ} {p : ℕ} {a : α}

/-- A block is dead when it holds the object and nobody holds it. -/
theorem Heap.mem_dead : p ∈ heap.dead held a ↔ heap.objects[p]? = some a ∧ p ∉ held := by
  rw [Heap.dead, Finset.mem_filter, Finset.mem_range]
  refine ⟨And.right, fun h => ⟨?_, h⟩⟩
  exact (List.getElem?_eq_some_iff.mp h.1).1

/-- The order of the pointers does not matter. -/
theorem Owned.perm (h : Owned heap held) (hp : held.Perm held') : Owned heap held' := by
  have hdead : ∀ a, heap.dead held' a = heap.dead held a := fun a => by
    ext p
    rw [Heap.mem_dead, Heap.mem_dead, hp.mem_iff]
  refine ⟨fun p => ?_, fun p hmem => h.lt_length p (hp.mem_iff.mpr hmem), fun a => ?_⟩
  · rw [h.owners, hp.count_eq]
  · rw [hdead, h.destroyed]

/-- A copy of a pointer in existence. -/
theorem Owned.copy (h : Owned heap held) (hp : p ∈ held) : Owned (heap.copy p) (p :: held) := by
  have hdead : ∀ a, (heap.copy p).dead (p :: held) a = heap.dead held a := fun a => by
    ext q
    rw [Heap.mem_dead, Heap.mem_dead, List.mem_cons]
    refine and_congr_right fun _ => not_congr ⟨?_, .inr⟩
    rintro (rfl | hq)
    · exact hp
    · exact hq
  refine ⟨fun q => ?_, ?_, fun a => ?_⟩
  · rw [Heap.copy, List.count_cons]
    by_cases hq : q = p
    · simp [hq, h.owners]
    · simp [hq, Ne.symm hq, h.owners]
  · rintro q (_ | ⟨_, hq⟩)
    · exact h.lt_length _ hp
    · exact h.lt_length q hq
  · rw [hdead]
    exact h.destroyed a

/-- The end of a pointer: where it was the last of its block, the object is destroyed. -/
theorem Owned.drop (h : Owned heap (p :: held)) : Owned (heap.drop p) held := by
  have howners := h.owners p
  rw [List.count_cons_self] at howners
  refine ⟨fun q => ?_, fun q hq => h.lt_length q (List.mem_cons_of_mem _ hq), fun a => ?_⟩
  · rw [Heap.drop]
    by_cases hq : q = p
    · subst hq
      simp [howners]
    · simpa [hq, Ne.symm hq] using h.owners q
  · by_cases hlast : p ∈ held
    · -- the block has another owner
      have hpos := List.count_pos_iff.mpr hlast
      have hdead : (heap.drop p).dead held a = heap.dead (p :: held) a := by
        ext q
        rw [Heap.mem_dead, Heap.mem_dead, List.mem_cons]
        refine and_congr_right fun _ => not_congr ⟨.inr, ?_⟩
        rintro (rfl | hq)
        · exact hlast
        · exact hq
      rw [hdead, ← h.destroyed, Heap.drop, if_neg (by omega)]
    · have hzero : held.count p = 0 := List.count_eq_zero.mpr hlast
      have hdestroyed : (heap.drop p).destroyed = heap.destroyed ++ heap.objects[p]?.toList := by
        rw [Heap.drop, if_pos (by omega)]
      obtain ⟨b, hb⟩ : ∃ b, heap.objects[p]? = some b :=
        ⟨_, List.getElem?_eq_getElem (h.lt_length p List.mem_cons_self)⟩
      rw [hdestroyed, hb, List.count_append, h.destroyed]
      by_cases hab : b = a
      · subst hab
        have hdead : (heap.drop p).dead held b = insert p (heap.dead (p :: held) b) := by
          ext q
          rw [Finset.mem_insert, Heap.mem_dead, Heap.mem_dead, List.mem_cons]
          by_cases hq : q = p
          · subst hq
            exact iff_of_true ⟨hb, hlast⟩ (.inl rfl)
          · simp [hq, Heap.drop]
        have hnew : p ∉ heap.dead (p :: held) b := by
          simp [Heap.mem_dead]
        rw [hdead, Finset.card_insert_of_notMem hnew]
        simp
      · have hdead : (heap.drop p).dead held a = heap.dead (p :: held) a := by
          ext q
          rw [Heap.mem_dead, Heap.mem_dead, List.mem_cons]
          refine and_congr_right fun hq => not_congr ⟨.inr, ?_⟩
          rintro (rfl | hq')
          · exact absurd (Option.some.inj (hb.symm.trans hq)) hab
          · exact hq'
        rw [hdead]
        simp [hab]

/-- A new block. -/
theorem Owned.adopt (h : Owned heap held) (a : α) :
    Owned (heap.adopt a).1 (heap.objects.length :: held) := by
  have hnew : heap.objects.length ∉ held := fun hmem => Nat.lt_irrefl _ (h.lt_length _ hmem)
  refine ⟨fun q => ?_, ?_, fun b => ?_⟩
  · rw [Heap.adopt, List.count_cons]
    by_cases hq : q = heap.objects.length
    · simp [hq, List.count_eq_zero.mpr hnew]
    · simp [hq, Ne.symm hq, h.owners]
  · intro q hq
    rw [Heap.adopt, List.length_append, List.length_singleton]
    rcases List.mem_cons.mp hq with rfl | hq
    · omega
    · have := h.lt_length q hq
      omega
  · have hdead : (heap.adopt a).1.dead (heap.objects.length :: held) b = heap.dead held b := by
      ext q
      rw [Heap.mem_dead, Heap.mem_dead, Heap.adopt]
      rcases Nat.lt_trichotomy q heap.objects.length with hlt | rfl | hgt
      · rw [List.getElem?_append_left hlt, List.mem_cons, or_iff_right (by omega)]
      · simp
      · have hnone : (heap.objects ++ [a])[q]? = none := by
          rw [List.getElem?_eq_none_iff, List.length_append, List.length_singleton]
          omega
        have hnone' : heap.objects[q]? = none := List.getElem?_eq_none_iff.mpr (by omega)
        simp [hnone, hnone']
    rw [hdead]
    exact h.destroyed b

/-- Copying pointers that are held keeps the counts right. -/
theorem Owned.copyAll (h : Owned heap held) (hps : ∀ p ∈ ps, p ∈ held) :
    Owned (heap.copyAll ps) (ps ++ held) := by
  induction ps generalizing heap held with
  | nil => exact h
  | cons p ps ih =>
      have hp := h.copy (hps p List.mem_cons_self)
      have := ih hp fun q hq => List.mem_cons_of_mem _ (hps q (List.mem_cons_of_mem _ hq))
      exact this.perm List.perm_middle

/-- So does dropping them. -/
theorem Owned.dropAll (h : Owned heap (ps ++ held)) : Owned (heap.dropAll ps) held := by
  induction ps generalizing heap with
  | nil => exact h
  | cons p ps ih => exact ih h.drop

/-- So does making new pointers to objects. -/
theorem Owned.adoptAll (h : Owned heap held) (as : List α) :
    Owned (heap.adoptAll as).1 ((heap.adoptAll as).2 ++ held) := by
  induction as generalizing heap held with
  | nil => exact h
  | cons a as ih => exact (ih (h.adopt a)).perm List.perm_middle

/-! ### The blocks -/

omit [DecidableEq α] in
/-- Copying pointers touches no object. -/
@[simp] theorem Heap.objects_copyAll : (heap.copyAll ps).objects = heap.objects := by
  induction ps generalizing heap with
  | nil => rfl
  | cons p ps ih => exact ih

omit [DecidableEq α] in
/-- Nor does dropping them. -/
@[simp] theorem Heap.objects_dropAll : (heap.dropAll ps).objects = heap.objects := by
  induction ps generalizing heap with
  | nil => rfl
  | cons p ps ih => exact ih

omit [DecidableEq α] in
/-- New blocks come after the old ones, in order. -/
theorem Heap.adoptAll_eq (as : List α) :
    (heap.adoptAll as).1.objects = heap.objects ++ as ∧
      (heap.adoptAll as).2 = List.range' heap.objects.length as.length := by
  induction as generalizing heap with
  | nil => simp [Heap.adoptAll]
  | cons a as ih =>
      obtain ⟨hobjects, hps⟩ := @ih (heap.adopt a).1
      refine ⟨?_, ?_⟩
      · rw [Heap.adoptAll, hobjects]
        simp [Heap.adopt]
      · rw [Heap.adoptAll, hps]
        simp [Heap.adopt, List.range'_succ]

/-! ### Destroyed once -/

/-- **When an object is destroyed once**, and not while there is a pointer to it: all its
blocks have owners, or it has one block only. -/
theorem exact_iff (h : Owned heap held) (ha : ∃ p : ℕ, heap.objects[p]? = some a) :
    heap.Exact held a ↔ (∀ p : ℕ, heap.objects[p]? = some a → p ∈ held) ∨
      ∃ p, ∀ q : ℕ, heap.objects[q]? = some a ↔ q = p := by
  rw [Heap.Exact, h.destroyed]
  by_cases hheld : ∃ p ∈ held, heap.objects[p]? = some a
  · rw [if_pos hheld, Finset.card_eq_zero, Finset.eq_empty_iff_forall_notMem]
    constructor
    · refine fun hdead => .inl fun p hp => ?_
      by_contra hmem
      exact hdead p (Heap.mem_dead.mpr ⟨hp, hmem⟩)
    · intro hall p hp
      obtain ⟨hobj, hmem⟩ := Heap.mem_dead.mp hp
      rcases hall with hall | ⟨p₀, hone⟩
      · exact hmem (hall p hobj)
      · obtain ⟨q, hq, hqa⟩ := hheld
        rw [(hone p).mp hobj, ← (hone q).mp hqa] at hmem
        exact hmem hq
  · rw [if_neg hheld, Finset.card_eq_one]
    have hmem : ∀ q, q ∈ heap.dead held a ↔ heap.objects[q]? = some a := fun q =>
      Heap.mem_dead.trans (and_iff_left_of_imp fun hq hin => hheld ⟨q, hin, hq⟩)
    constructor
    · rintro ⟨p, hp⟩
      refine .inr ⟨p, fun q => ?_⟩
      rw [← hmem, hp, Finset.mem_singleton]
    · rintro (hall | ⟨p, hp⟩)
      · obtain ⟨p, hp⟩ := ha
        exact absurd ⟨p, hall p hp, hp⟩ hheld
      · refine ⟨p, Finset.ext fun q => ?_⟩
        rw [hmem, hp, Finset.mem_singleton]

end

end SharedPtr
