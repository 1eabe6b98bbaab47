import Mathlib.Data.Nat.Notation
import Mathlib.Tactic.Common

/-!
# Loops that End

A loop is a step that either goes on from a new state or ends with a result, together with a
measure that every step that goes on makes smaller. The measure bounds the number of steps, so
that a loop can be executed, and by `exec_eq` it is unrolled like the source's.

## Main results

* `Loop.exec_eq`: a loop executes its step, and goes on as the step says.
* `Loop.rule`: what the step keeps while it goes on holds when the loop ends.
-/

/-- A loop on states `σ` that ends with an `α`. -/
structure Loop (σ α : Type*) where
  step : σ → σ ⊕ α
  measure : σ → ℕ
  decreases : ∀ {s s'}, step s = .inl s' → measure s' < measure s

namespace Loop

variable {σ α : Type*} {L : Loop σ α} {s s' : σ} {a : α} {m n : ℕ}

/-- The loop in fewer than `n` steps. -/
def run (L : Loop σ α) : (n : ℕ) → (s : σ) → L.measure s < n → α
  | n + 1, s, h =>
      match hs : L.step s with
      | .inl s' => L.run n s' (by have := L.decreases hs; omega)
      | .inr a => a

/-- The result of a loop. -/
def exec (L : Loop σ α) (s : σ) : α :=
  L.run (L.measure s + 1) s (Nat.lt_succ_self _)

/-- A round that goes on uses one unit of fuel. -/
theorem run_of_inl (hs : L.step s = .inl s') (h : L.measure s < n + 1) :
    L.run (n + 1) s h = L.run n s' (by have := L.decreases hs; omega) := by
  rw [run]
  split
  · next s'' hs'' =>
    obtain rfl := Sum.inl.inj (hs.symm.trans hs'')
    rfl
  · next a hs'' => cases hs.symm.trans hs''

/-- A round that ends gives its result. -/
theorem run_of_inr (hs : L.step s = .inr a) (h : L.measure s < n + 1) :
    L.run (n + 1) s h = a := by
  rw [run]
  split
  · next s' hs' => cases hs.symm.trans hs'
  · next a' hs' => exact Sum.inr.inj (hs'.symm.trans hs)

/-- The result does not depend on the bound. -/
theorem run_eq_run (hm : L.measure s < m) (hn : L.measure s < n) :
    L.run m s hm = L.run n s hn := by
  induction m generalizing s n with
  | zero => omega
  | succ m ih =>
      obtain ⟨n, rfl⟩ : ∃ k, n = k + 1 := ⟨n - 1, by omega⟩
      cases hs : L.step s with
      | inl s' => rw [run_of_inl hs, run_of_inl hs, ih]
      | inr a => rw [run_of_inr hs, run_of_inr hs]

/-- The loop after a round that goes on is the loop from there. -/
theorem exec_of_inl (hs : L.step s = .inl s') : L.exec s = L.exec s' := by
  rw [exec, run_of_inl hs, exec]
  exact run_eq_run _ _

/-- The loop after a round that ends is done. -/
theorem exec_of_inr (hs : L.step s = .inr a) : L.exec s = a :=
  run_of_inr hs _

/-- **A loop unrolled.** -/
theorem exec_eq (L : Loop σ α) (s : σ) :
    L.exec s = match L.step s with
      | .inl s' => L.exec s'
      | .inr a => a := by
  split
  · next s' hs => exact exec_of_inl hs
  · next a hs => exact exec_of_inr hs

/-- **The rule of loops.** An invariant that every step keeps while the loop goes on, and
that gives the postcondition where it ends. -/
theorem rule (I : σ → Prop) {Q : α → Prop} (hkeep : ∀ s s', I s → L.step s = .inl s' → I s')
    (hend : ∀ s a, I s → L.step s = .inr a → Q a) (hs : I s) : Q (L.exec s) := by
  induction hn : L.measure s using Nat.strongRecOn generalizing s with
  | ind n ih =>
      cases hstep : L.step s with
      | inl s' =>
          rw [exec_of_inl hstep]
          exact ih _ (hn ▸ L.decreases hstep) (hkeep s s' hs hstep) rfl
      | inr a =>
          rw [exec_of_inr hstep]
          exact hend s a hs hstep

end Loop
