import Mathlib.Data.List.Forall2
import Mathlib.Logic.Function.Basic

/-!
# Objects under Handles

Objects are made and destroyed one at a time. Each has a handle, which is not given to another
object later on: a handle resolves from when its object is made until it is destroyed, and never
again.

## Main results

* `Heap.get_allocAll`: what the handles of new objects resolve to.
* `Later.get_eq_none`: a handle that has stopped to resolve does not resolve later.
-/

namespace Handles

/-- What the handles resolve to; no handle from `fresh` on has been given out. -/
structure Heap (α : Type*) where
  get : ℕ → Option α
  fresh : ℕ
  get_fresh : ∀ h, fresh ≤ h → get h = none

variable {α : Type*} {heap heap' heap'' : Heap α} {a : α} {as : List α} {h : ℕ} {hs : List ℕ}

/-- A heap without objects. -/
def Heap.empty : Heap α where
  get _ := none
  fresh := 0
  get_fresh _ _ := rfl

/-- A new object, under a new handle. -/
def Heap.alloc (heap : Heap α) (a : α) : Heap α × ℕ :=
  ({ get := Function.update heap.get heap.fresh (some a)
     fresh := heap.fresh + 1
     get_fresh := fun h hle => by
       rw [Function.update_of_ne (by omega)]
       exact heap.get_fresh h (by omega) },
    heap.fresh)

/-- The object under `h` is destroyed. -/
def Heap.free (heap : Heap α) (h : ℕ) : Heap α where
  get := Function.update heap.get h none
  fresh := heap.fresh
  get_fresh := fun h' hle => by
    rw [Function.update_apply]
    split
    · rfl
    · exact heap.get_fresh h' hle

/-- Objects are given other values. -/
def Heap.change (heap : Heap α) (f : ℕ → α → α) : Heap α where
  get h := (heap.get h).map (f h)
  fresh := heap.fresh
  get_fresh h hle := by rw [heap.get_fresh h hle, Option.map_none]

/-- New objects, in order. -/
def Heap.allocAll (heap : Heap α) : List α → Heap α × List ℕ
  | [] => (heap, [])
  | a :: as =>
      let made := heap.alloc a
      let rest := made.1.allocAll as
      (rest.1, made.2 :: rest.2)

/-- Free several handles, one after the other. -/
def Heap.freeAll (heap : Heap α) (hs : List ℕ) : Heap α :=
  hs.foldl Heap.free heap

/-- What may become of the objects: they are changed and destroyed, and others made. -/
inductive Later (heap : Heap α) : Heap α → Prop
  | refl : Later heap heap
  | alloc {heap' : Heap α} (a : α) : Later heap heap' → Later heap (heap'.alloc a).1
  | free {heap' : Heap α} (h : ℕ) : Later heap heap' → Later heap (heap'.free h)
  | change {heap' : Heap α} (f : ℕ → α → α) : Later heap heap' → Later heap (heap'.change f)

@[simp] theorem Heap.fresh_alloc : (heap.alloc a).1.fresh = heap.fresh + 1 := rfl

@[simp] theorem Heap.snd_alloc : (heap.alloc a).2 = heap.fresh := rfl

@[simp] theorem Heap.fresh_free : (heap.free h).fresh = heap.fresh := rfl

/-- A new handle holds what was put there. -/
theorem Heap.get_alloc : (heap.alloc a).1.get heap.fresh = some a :=
  Function.update_self _ _ _

/-- The other handles hold what they held. -/
theorem Heap.get_alloc_of_ne (hne : h ≠ heap.fresh) : (heap.alloc a).1.get h = heap.get h :=
  Function.update_of_ne hne _ _

/-- A freed handle holds nothing. -/
theorem Heap.get_free : (heap.free h).get h = none :=
  Function.update_self _ _ _

/-- Freeing gives no handle anything to hold. -/
theorem Heap.get_free_eq_none {h' : ℕ} (hnone : heap.get h' = none) :
    (heap.free h).get h' = none := by
  change Function.update heap.get h none h' = none
  rw [Function.update_apply]
  split
  · rfl
  · exact hnone

/-! ### Several objects -/

/-- What there was before is not touched by new objects. -/
theorem Heap.get_allocAll_of_lt (hlt : h < heap.fresh) :
    (heap.allocAll as).1.get h = heap.get h := by
  induction as generalizing heap with
  | nil => rfl
  | cons a as ih =>
      rw [allocAll, ih (by rw [fresh_alloc]; omega), get_alloc_of_ne (by omega)]

/-- **The handles of new objects resolve to them.** -/
theorem Heap.get_allocAll (heap : Heap α) (as : List α) :
    List.Forall₂ (fun h a => (heap.allocAll as).1.get h = some a) (heap.allocAll as).2 as := by
  induction as generalizing heap with
  | nil => exact .nil
  | cons a as ih =>
      refine .cons ?_ (ih _)
      rw [allocAll, snd_alloc, get_allocAll_of_lt (by rw [fresh_alloc]; omega), get_alloc]

/-- As many handles are new as there are values. -/
@[simp] theorem Heap.fresh_allocAll : (heap.allocAll as).1.fresh = heap.fresh + as.length := by
  induction as generalizing heap with
  | nil => rfl
  | cons a as ih =>
      rw [allocAll, ih, fresh_alloc, List.length_cons]
      omega

/-- They follow one another. -/
theorem Heap.snd_allocAll : (heap.allocAll as).2 = List.range' heap.fresh as.length := by
  induction as generalizing heap with
  | nil => rfl
  | cons a as ih =>
      rw [allocAll, ih, fresh_alloc, snd_alloc, List.length_cons, List.range'_succ]

/-- None of them is handed out again. -/
theorem Heap.lt_fresh_of_mem_allocAll (hmem : h ∈ (heap.allocAll as).2) :
    h < (heap.allocAll as).1.fresh := by
  rw [snd_allocAll, List.mem_range'_1] at hmem
  rw [fresh_allocAll]
  exact hmem.2

@[simp] theorem Heap.fresh_freeAll : (heap.freeAll hs).fresh = heap.fresh := by
  induction hs generalizing heap with
  | nil => rfl
  | cons h hs ih => rw [freeAll, List.foldl_cons, ← freeAll, ih, fresh_free]

/-- After freeing them all, each of them holds nothing. -/
theorem Heap.get_freeAll_eq_none (hnone : heap.get h = none ∨ h ∈ hs) :
    (heap.freeAll hs).get h = none := by
  induction hs generalizing heap with
  | nil => exact hnone.resolve_right List.not_mem_nil
  | cons h' hs ih =>
      refine ih ?_
      rcases hnone with hnone | hmem
      · exact .inl (get_free_eq_none hnone)
      · rcases List.mem_cons.mp hmem with rfl | hmem
        · exact .inl get_free
        · exact .inr hmem

/-! ### Later on -/

/-- Handles are only ever used up. -/
theorem Later.fresh_le (hl : Later heap heap') : heap.fresh ≤ heap'.fresh := by
  induction hl with
  | refl => exact Nat.le_refl _
  | alloc a _ ih => exact Nat.le_succ_of_le ih
  | free h _ ih => exact ih
  | change f _ ih => exact ih

/-- **A handle given out that does not resolve will not resolve later.** -/
theorem Later.get_eq_none (hl : Later heap heap') (hlt : h < heap.fresh)
    (hnone : heap.get h = none) : heap'.get h = none := by
  induction hl with
  | refl => exact hnone
  | alloc a hl ih =>
      have hle := hl.fresh_le
      rw [Heap.get_alloc_of_ne (by omega), ih]
  | free h' _ ih => exact Heap.get_free_eq_none ih
  | change f _ ih => exact Option.map_eq_none_iff.mpr ih

end Handles
