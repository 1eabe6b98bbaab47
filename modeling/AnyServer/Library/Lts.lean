import Mathlib.Data.List.Induction
import Mathlib.Data.Option.Basic

/-!
# Labelled Transition Systems with Observations

A system is a relation `T s i s' o`: in state `s` the input `i` leads to `s'` and the
observations `o` are emitted. Inputs are whatever the environment chooses (a message, a
scheduling decision, the results of system calls), so a theorem about every run is a
theorem about every behaviour of the environment.

`Run T s₀ is os s` is the run predicate, grown at its end: after the inputs `is`, with the
observations `os` emitted on the way, the system is in state `s`.

A system given by a partial step function is `ofFn step`, and `exec step` evaluates it on a
concrete list of inputs; `guarded G step` takes only the inputs that meet `G`.

## Main results

* `Run.invariant`: a property of inputs, observations and state that holds at the start
  and is kept by every step holds of every run.
* `Run.append` / `Run.split_at`: runs compose and decompose. `Passes` is what a run comes through.
* `Run.simulate` / `Run.refine`: runs of a system are runs of whatever simulates it, step for
  step or with several steps for one.
* `run_of_exec`: what `exec` evaluates is a run.
* `Run.forall_iff_along`: in a deterministic system, a run observes only what it should
  exactly if each input is taken in a state where it should be.
* `Run.eachStep_iff_along`: the same for what is asked of the steps of a run, with
  `Run.invariant_along` for what holds as long as the inputs are as they should be.
-/

/-- A labelled transition system: `T s i s' o` reads "in state `s` the input `i` leads to
`s'` and emits `o`". -/
abbrev Lts (σ ι ο : Type*) := σ → ι → σ → List ο → Prop

namespace Lts

variable {σ ι ο : Type*} {T : Lts σ ι ο} {s₀ s s' : σ} {is is' : List ι} {os os' : List ο}

/-- The finite runs of a system from `s₀`, with the inputs taken and the observations
emitted so far. -/
inductive Run (T : Lts σ ι ο) (s₀ : σ) : List ι → List ο → σ → Prop
  | start : Run T s₀ [] [] s₀
  | step {is : List ι} {os : List ο} {s : σ} {i : ι} {s' : σ} {o : List ο} :
      Run T s₀ is os s → T s i s' o → Run T s₀ (is ++ [i]) (os ++ o) s'

/-- **The run rule.** What holds at the start and is kept by every step holds of every
run; the step may use that its source state is reached. -/
theorem Run.invariant {P : List ι → List ο → σ → Prop} (hstart : P [] [] s₀)
    (hstep : ∀ {is os s i s' o}, Run T s₀ is os s → P is os s → T s i s' o →
      P (is ++ [i]) (os ++ o) s')
    (h : Run T s₀ is os s) : P is os s := by
  induction h with
  | start => exact hstart
  | step hrun ht ih => exact hstep hrun ih ht

/-- A single step is a run. -/
theorem Run.single {i : ι} {o : List ο} (h : T s i s' o) : Run T s [i] o s' := by
  have hrun : Run T s [] [] s := .start
  simpa using hrun.step h

/-- Runs compose. -/
theorem Run.append (h : Run T s₀ is os s) (h' : Run T s is' os' s') :
    Run T s₀ (is ++ is') (os ++ os') s' := by
  induction h' with
  | start => simpa using h
  | step _ ht ih =>
      rw [← List.append_assoc, ← List.append_assoc]
      exact ih.step ht

/-- A step followed by a run is a run. -/
theorem Run.cons {i : ι} {o : List ο} {s₁ : σ} (ht : T s i s₁ o)
    (h : Run T s₁ is os s') : Run T s (i :: is) (o ++ os) s' :=
  (Run.single ht).append h

/-- A run on no inputs stays where it is and emits nothing. -/
theorem Run.nil_inv (h : Run T s₀ [] os s) : os = [] ∧ s = s₀ := by
  generalize hl : ([] : List ι) = l at h
  cases h with
  | start => exact ⟨rfl, rfl⟩
  | step _ _ => simp at hl

/-- The last step of a nonempty run. -/
theorem Run.concat_inv {i : ι} (h : Run T s₀ (is ++ [i]) os s') :
    ∃ s os₁ o, Run T s₀ is os₁ s ∧ T s i s' o ∧ os = os₁ ++ o := by
  generalize hl : is ++ [i] = l at h
  cases h with
  | start => simp at hl
  | step hrun ht =>
      obtain ⟨rfl, hi⟩ := List.append_inj' hl rfl
      obtain rfl : i = _ := by simpa using hi
      exact ⟨_, _, _, hrun, ht, rfl⟩

/-- A run on `is ++ is'` is a run on `is` followed by a run on `is'`. -/
theorem Run.append_inv (h : Run T s₀ (is ++ is') os s') :
    ∃ s os₁ os₂, Run T s₀ is os₁ s ∧ Run T s is' os₂ s' ∧ os = os₁ ++ os₂ := by
  induction is' using List.reverseRecOn generalizing os s' with
  | nil => exact ⟨s', os, [], by simpa using h, .start, by simp⟩
  | append_singleton is' i ih =>
      rw [← List.append_assoc] at h
      obtain ⟨s₁, os₁, o, hrun, ht, rfl⟩ := h.concat_inv
      obtain ⟨s, osA, osB, hA, hB, rfl⟩ := ih hrun
      exact ⟨s, osA, osB ++ o, hA, hB.step ht, by simp⟩

/-- A run can be cut at any of its inputs: the run before it, its step, and the run
after it. -/
theorem Run.split_at {pre post : List ι} {i : ι} (h : Run T s₀ (pre ++ i :: post) os s') :
    ∃ s₁ s₂ os₁ o os₂, Run T s₀ pre os₁ s₁ ∧ T s₁ i s₂ o ∧ Run T s₂ post os₂ s' ∧
      os = os₁ ++ o ++ os₂ := by
  have h' : Run T s₀ (pre ++ [i] ++ post) os s' := by simpa using h
  obtain ⟨s₂, osA, os₂, hA, hpost, rfl⟩ := h'.append_inv
  obtain ⟨s₁, os₁, o, hpre, ht, rfl⟩ := hA.concat_inv
  exact ⟨s₁, s₂, os₁, o, os₂, hpre, ht, hpost, rfl⟩

/-- A larger relation has more runs. -/
theorem Run.mono {T' : Lts σ ι ο} (hT : ∀ {s i s' o}, T s i s' o → T' s i s' o)
    (h : Run T s₀ is os s) : Run T' s₀ is os s := by
  induction h with
  | start => exact .start
  | step _ ht ih => exact ih.step (hT ht)

/-- What no step changes stays as it was at the start, and what each step observes of it holds
of the whole run. -/
theorem Run.const {κ : Type*} {f : σ → κ} {Q : κ → ο → Prop}
    (hstep : ∀ {s i s' o}, T s i s' o → f s' = f s ∧ ∀ x ∈ o, Q (f s) x)
    (h : Run T s₀ is os s) : f s = f s₀ ∧ ∀ x ∈ os, Q (f s₀) x := by
  induction h with
  | start => exact ⟨rfl, by simp⟩
  | step _ ht ih =>
      obtain ⟨hf, hos⟩ := ih
      obtain ⟨hf', ho⟩ := hstep ht
      rw [hf] at hf' ho
      exact ⟨hf', List.forall_mem_append.mpr ⟨hos, ho⟩⟩

/-- **The simulation rule.** Where every step of `T` is, seen through `v`, `f` and `g`, a
step of `A`, every run of `T` is a run of `A`. -/
theorem Run.simulate {τ κ π : Type*} {A : Lts τ κ π} (v : σ → τ) (f : ι → κ) (g : ο → π)
    (hT : ∀ {s i s' o}, T s i s' o → A (v s) (f i) (v s') (o.map g)) (h : Run T s₀ is os s) :
    Run A (v s₀) (is.map f) (os.map g) (v s) := by
  induction h with
  | start => exact .start
  | step _ ht ih =>
      rw [List.map_append, List.map_append]
      exact ih.step (hT ht)

/-- **The refinement rule.** Where every step of `T` is, seen through `v` and `g`, some steps
of `A`, every run of `T` is a run of `A`. -/
theorem Run.refine {τ κ π : Type*} {A : Lts τ κ π} (v : σ → τ) (g : ο → List π)
    (hT : ∀ {s i s' o}, T s i s' o → ∃ js, Run A (v s) js (o.flatMap g) (v s'))
    (h : Run T s₀ is os s) : ∃ js, Run A (v s₀) js (os.flatMap g) (v s) := by
  induction h with
  | start => exact ⟨[], .start⟩
  | step _ ht ih =>
      obtain ⟨js, hrun⟩ := ih
      obtain ⟨js', hrun'⟩ := hT ht
      rw [List.flatMap_append]
      exact ⟨js ++ js', hrun.append hrun'⟩

/-- A run on the inputs `is` passes through `s`, at its start, in between or at its end. -/
def Passes (T : Lts σ ι ο) (s₀ : σ) (is : List ι) (s : σ) : Prop :=
  ∃ pre post os, is = pre ++ post ∧ Run T s₀ pre os s

/-- A run passes through the state it starts in. -/
theorem passes_start : Passes T s₀ is s₀ :=
  ⟨[], is, [], rfl, .start⟩

/-- A run passes through its last state. -/
theorem Run.passes (h : Run T s₀ is os s) : Passes T s₀ is s :=
  ⟨is, [], os, (List.append_nil is).symm, h⟩

/-- What a run passes through, a longer one does too. -/
theorem Passes.append (h : Passes T s₀ is s) : Passes T s₀ (is ++ is') s := by
  obtain ⟨pre, post, os, rfl, hrun⟩ := h
  exact ⟨pre, post ++ is', os, List.append_assoc pre post is', hrun⟩

/-- What the rest of a run passes through, the run does too. -/
theorem Passes.cons {i : ι} {o : List ο} {s₁ : σ} (ht : T s₀ i s₁ o) (h : Passes T s₁ is s) :
    Passes T s₀ (i :: is) s := by
  obtain ⟨pre, post, os, rfl, hrun⟩ := h
  exact ⟨i :: pre, post, o ++ os, rfl, hrun.cons ht⟩

/-- What a continuation passes through, the whole run does too. -/
theorem Passes.after (hrun : Run T s₀ is os s') (h : Passes T s' is' s) :
    Passes T s₀ (is ++ is') s := by
  obtain ⟨pre, post, os', rfl, hrun'⟩ := h
  exact ⟨is ++ pre, post, os ++ os', (List.append_assoc is pre post).symm, hrun.append hrun'⟩

/-! ### Systems given by a partial step function -/

/-- The system of a partial step function: where the function returns `none` there is no
step. -/
def ofFn (step : σ → ι → Option (σ × List ο)) : Lts σ ι ο :=
  fun s i s' o => step s i = some (s', o)

/-- Evaluation of a partial step function on a list of inputs. -/
def exec (step : σ → ι → Option (σ × List ο)) : σ → List ι → Option (σ × List ο)
  | s, [] => some (s, [])
  | s, i :: is => do
      let r ← step s i
      let rest ← exec step r.1 is
      pure (rest.1, r.2 ++ rest.2)

/-- Evaluation gives a run. -/
theorem run_of_exec {step : σ → ι → Option (σ × List ο)}
    (h : exec step s₀ is = some (s, os)) : Run (ofFn step) s₀ is os s := by
  induction is generalizing s₀ os with
  | nil =>
      simp only [exec, Option.some.injEq, Prod.mk.injEq] at h
      obtain ⟨rfl, rfl⟩ := h
      exact .start
  | cons i is ih =>
      simp only [exec, bind, Option.bind_eq_some_iff, Option.pure_def, Option.some.injEq,
        Prod.mk.injEq] at h
      obtain ⟨⟨s₁, o⟩, hs, ⟨s₂, os₂⟩, hrest, rfl, rfl⟩ := h
      exact Run.cons (T := ofFn step) hs (ih hrest)

/-- The system of a partial step function on the inputs that meet `G`. -/
def guarded (G : σ → ι → Prop) (step : σ → ι → Option (σ × List ο)) : Lts σ ι ο :=
  fun s i s' o => G s i ∧ step s i = some (s', o)

/-- A guarded system is run by evaluation, with the guard checked at every step. -/
theorem run_guarded_of_exec {G : σ → ι → Prop} [∀ s i, Decidable (G s i)]
    {step : σ → ι → Option (σ × List ο)}
    (h : exec (fun s i => if G s i then step s i else none) s₀ is = some (s, os)) :
    Run (guarded G step) s₀ is os s := by
  refine (run_of_exec h).mono fun ht => ?_
  simpa only [ofFn, guarded, Option.ite_none_right_eq_some] using ht

/-- A run whose inputs all meet `P` is a run of the system restricted to them. -/
theorem Run.guard {P : ι → Prop} {step : σ → ι → Option (σ × List ο)}
    (h : Run (ofFn step) s₀ is os s) (hP : ∀ i ∈ is, P i) :
    Run (guarded (fun _ => P) step) s₀ is os s := by
  induction h with
  | start => exact .start
  | step _ ht ih =>
      rw [List.forall_mem_append] at hP
      exact (ih hP.1).step ⟨hP.2 _ (List.mem_singleton_self _), ht⟩

/-! ### Deterministic systems -/

/-- State and input decide the next state and what is observed. -/
def Deterministic (T : Lts σ ι ο) : Prop :=
  ∀ ⦃s i s₁ o₁ s₂ o₂⦄, T s i s₁ o₁ → T s i s₂ o₂ → s₁ = s₂ ∧ o₁ = o₂

/-- A step function has one outcome. -/
theorem deterministic_ofFn {step : σ → ι → Option (σ × List ο)} :
    Deterministic (ofFn step) := by
  intro s i s₁ o₁ s₂ o₂ h₁ h₂
  simpa using Option.some.inj ((h₁ : step s i = _).symm.trans h₂)

/-- So has one with a guard. -/
theorem deterministic_guarded {G : σ → ι → Prop} {step : σ → ι → Option (σ × List ο)} :
    Deterministic (guarded G step) := by
  intro s i s₁ o₁ s₂ o₂ h₁ h₂
  exact deterministic_ofFn h₁.2 h₂.2

/-- The runs of a deterministic system are decided by their inputs. -/
theorem Run.unique (hT : Deterministic T) (h : Run T s₀ is os s) (h' : Run T s₀ is os' s') :
    s = s' ∧ os = os' := by
  induction h generalizing os' s' with
  | start =>
      obtain ⟨rfl, rfl⟩ := h'.nil_inv
      exact ⟨rfl, rfl⟩
  | step _ ht ih =>
      obtain ⟨s₁, os₁, o, hrun, ht', rfl⟩ := h'.concat_inv
      obtain ⟨rfl, rfl⟩ := ih hrun
      obtain ⟨rfl, rfl⟩ := hT ht ht'
      exact ⟨rfl, rfl⟩

/-- Every input of `is` meets `C` in the state in which it is taken. -/
def Along (T : Lts σ ι ο) (C : σ → ι → Prop) (s₀ : σ) (is : List ι) : Prop :=
  ∀ pre i post os s, is = pre ++ i :: post → Run T s₀ pre os s → C s i

/-- The empty run meets every condition. -/
theorem along_nil {C : σ → ι → Prop} : Along T C s₀ [] := by
  intro pre i post os s h
  simp at h

/-- A run and one step more meet the condition when the run does and the step does. -/
theorem along_concat {C : σ → ι → Prop} {i : ι} (hT : Deterministic T)
    (h : Run T s₀ is os s) : Along T C s₀ (is ++ [i]) ↔ Along T C s₀ is ∧ C s i := by
  constructor
  · intro hall
    exact ⟨fun pre j post os s his => hall pre j (post ++ [i]) os s (by simp [his]),
      hall is i [] os s rfl h⟩
  · rintro ⟨his, hi⟩ pre j post os' s' hsplit hrun
    rcases List.eq_nil_or_concat post with rfl | ⟨post', k, rfl⟩
    · obtain ⟨rfl, hj⟩ := List.append_inj' hsplit rfl
      obtain ⟨rfl, -⟩ := h.unique hT hrun
      obtain rfl : i = j := by simpa using hj
      exact hi
    · rw [List.concat_eq_append, ← List.cons_append, ← List.append_assoc] at hsplit
      obtain ⟨rfl, -⟩ := List.append_inj' hsplit rfl
      exact his pre j post' os' s' rfl hrun

/-- A step and a run meet it when both do. -/
theorem Along.cons {C : σ → ι → Prop} {i : ι} {o : List ο} (hT : Deterministic T)
    (ht : T s₀ i s o) (hi : C s₀ i) (h : Along T C s is) : Along T C s₀ (i :: is) := by
  intro pre j post os s' hsplit hrun
  cases pre with
  | nil =>
      obtain ⟨rfl, -⟩ : i = j ∧ is = post := by simpa using hsplit
      obtain ⟨-, rfl⟩ := hrun.nil_inv
      exact hi
  | cons k pre =>
      obtain ⟨rfl, rfl⟩ : i = k ∧ is = pre ++ j :: post := by simpa using hsplit
      have hrun : Run T s₀ ([i] ++ pre) os s' := hrun
      obtain ⟨s₁, os₁, os₂, hfirst, hrest, -⟩ := hrun.append_inv
      obtain ⟨rfl, -⟩ := hfirst.unique hT (Run.single ht)
      exact h pre j post os₂ s' rfl hrest

/-- The same for a step function, with the step evaluated. -/
theorem along_cons {step : σ → ι → Option (σ × List ο)} {C : σ → ι → Prop} {i : ι}
    {o : List ο} (ht : step s₀ i = some (s, o)) (hi : C s₀ i)
    (h : Along (ofFn step) C s is) : Along (ofFn step) C s₀ (i :: is) :=
  Along.cons (T := ofFn step) deterministic_ofFn ht hi h

/-- **From steps to runs, exactly.** Where the observations of each step are good exactly
if its input meets `C` in its state, the observations of a run are good exactly if all its
inputs meet `C` in the states they are taken in. -/
theorem Run.forall_iff_along {P : ο → Prop} {C : σ → ι → Prop} (hT : Deterministic T)
    (hstep : ∀ {is os s i s' o}, Run T s₀ is os s → T s i s' o → ((∀ x ∈ o, P x) ↔ C s i))
    (h : Run T s₀ is os s) : (∀ x ∈ os, P x) ↔ Along T C s₀ is := by
  induction h with
  | start => exact iff_of_true (by simp) along_nil
  | @step is os s i s' o hrun ht ih =>
      rw [along_concat hT hrun, List.forall_mem_append, ih, hstep hrun ht]

/-- What holds at the start and is kept by every step whose input meets `C` holds after a run
whose inputs all do. -/
theorem Run.invariant_along {P : σ → Prop} {C : σ → ι → Prop} (hT : Deterministic T)
    (hstart : P s₀)
    (hstep : ∀ {is os s i s' o}, Run T s₀ is os s → P s → C s i → T s i s' o → P s')
    (h : Run T s₀ is os s) (hC : Along T C s₀ is) : P s := by
  induction h with
  | start => exact hstart
  | step hrun ht ih =>
      obtain ⟨hC, hi⟩ := (along_concat hT hrun).mp hC
      exact hstep hrun (ih hC) hi ht

/-- Every step taken on the inputs `is` meets `G`. -/
def EachStep (T : Lts σ ι ο) (G : σ → ι → σ → List ο → Prop) (s₀ : σ) (is : List ι) : Prop :=
  Along T (fun s i => ∀ s' o, T s i s' o → G s i s' o) s₀ is

/-- **From a step to all steps, exactly.** Where a step meets `G` exactly if its input meets
`C` in its state, provided all inputs before it did, all steps meet `G` exactly if all inputs
meet `C`. -/
theorem Run.eachStep_iff_along {G : σ → ι → σ → List ο → Prop} {C : σ → ι → Prop}
    (hT : Deterministic T)
    (hstep : ∀ {is os s i s' o}, Run T s₀ is os s → Along T C s₀ is → T s i s' o →
      (G s i s' o ↔ C s i))
    (h : Run T s₀ is os s) : EachStep T G s₀ is ↔ Along T C s₀ is := by
  induction h with
  | start => exact iff_of_true along_nil along_nil
  | @step is os s i s' o hrun ht ih =>
      rw [EachStep, along_concat hT hrun, along_concat hT hrun]
      constructor
      · rintro ⟨hall, hi⟩
        have hC := ih.mp hall
        exact ⟨hC, (hstep hrun hC ht).mp (hi s' o ht)⟩
      · rintro ⟨hC, hi⟩
        exact ⟨ih.mpr hC, fun s'' o' ht' => (hstep hrun hC ht').mpr hi⟩

end Lts
