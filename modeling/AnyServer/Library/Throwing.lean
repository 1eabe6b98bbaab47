import Mathlib.Data.List.Forall2

/-!
# Computations that Throw and Keep the State

A C++ function that throws leaves behind whatever it has assigned. `Throwing σ ε α` is the
type of such computations: from a state they come to a state, and to a value or an error.
A conversion that may throw and assigns nothing is an `Except ε α`, lifted.

`Keeps P p` says that `p` leaves a state that meets `P` for another one, whether it returns or
throws.

A decoder often only writes: what it returns or throws does not depend on the state, and to
a list in the state it appends. `Appends get p` says this of the list `get` of the state,
for a run that throws as for one that returns. It passes through every composition, so that
it has to be checked for the assignments only.

## Main results

* `exec_bind`: a composition runs its parts one after the other, up to the first error.
* `Keeps.bind` / `keeps_forM`: what the parts keep, a composition or a loop keeps.
* `Appends.bind` / `appends_forM`: if the parts only append, so does a composition or a loop.
* `Appends.from_empty`: what is appended is what a run from an empty list leaves.
-/

/-- A computation on states `σ` that returns an `α` or throws an `ε`, and in both cases leaves
a state. -/
abbrev Throwing (σ ε α : Type) := ExceptT ε (StateM σ) α

namespace Throwing

variable {σ ε α β γ : Type} {p : Throwing σ ε α} {f : α → Throwing σ ε β} {s s₀ : σ}

/-- What a computation returns or throws, and the state it leaves. -/
def exec (p : Throwing σ ε α) (s : σ) : Except ε α × σ :=
  p.run.run s

@[simp] theorem exec_pure (a : α) : exec (pure a : Throwing σ ε α) s = (.ok a, s) := rfl

@[simp] theorem exec_modify (g : σ → σ) :
    exec (modify g : Throwing σ ε Unit) s = (.ok (), g s) := rfl

/-- A lifted `Except` leaves the state alone. -/
@[simp] theorem exec_lift (x : Except ε α) : exec (liftM x : Throwing σ ε α) s = (x, s) := by
  cases x <;> rfl

/-- The second program runs when the first returns, in the state that the first left. -/
theorem exec_bind : exec (p >>= f) s =
    match exec p s with
    | (.ok a, s') => exec (f a) s'
    | (.error e, s') => (.error e, s') := by
  simp only [exec, ExceptT.run_bind, StateT.run_bind]
  rcases h : StateT.run p.run s with ⟨r | r, s'⟩ <;> rfl

/-- A mapped program leaves the same state. -/
theorem exec_map {g : α → β} :
    exec (g <$> p) s = ((exec p s).1.map g, (exec p s).2) := by
  rw [← bind_pure_comp, exec_bind]
  rcases exec p s with ⟨r | a, s'⟩ <;> rfl

/-- A composition returns what its second part returns for the value of the first. -/
theorem exec_bind_ok_iff {b : β} {s' : σ} : exec (p >>= f) s = (.ok b, s') ↔
    ∃ a s₁, exec p s = (.ok a, s₁) ∧ exec (f a) s₁ = (.ok b, s') := by
  rw [exec_bind]
  rcases exec p s with ⟨r | a, s₁⟩
  · simp
  · exact ⟨fun h => ⟨a, s₁, rfl, h⟩, fun ⟨_, _, heq, h⟩ => by cases heq; exact h⟩

/-- The same with a conversion as the first part. -/
theorem exec_lift_bind_ok_iff {x : Except ε α} {b : β} {s' : σ} :
    exec ((liftM x : Throwing σ ε α) >>= f) s = (.ok b, s') ↔
      ∃ a, x = .ok a ∧ exec (f a) s = (.ok b, s') := by
  rw [exec_bind, exec_lift]
  cases x with
  | error e => simp
  | ok a => simp

/-- An `Except` that is composed of two returns what the second returns for the value of the
first. -/
theorem bind_eq_ok {x : Except ε α} {g : α → Except ε β} {b : β}
    (h : (x >>= g) = .ok b) : ∃ a, x = .ok a ∧ g a = .ok b := by
  cases x with
  | error e => cases h
  | ok a => exact ⟨a, rfl, h⟩

/-- Two steps return when both do. -/
theorem bind_ok_iff {x : Except ε α} {g : α → Except ε β} {b : β} :
    (x >>= g) = .ok b ↔ ∃ a, x = .ok a ∧ g a = .ok b := by
  refine ⟨bind_eq_ok, ?_⟩
  rintro ⟨a, rfl, h⟩
  exact h

/-- A list is converted element by element. -/
theorem mapM_ok_iff {g : α → Except ε β} {xs : List α} {ys : List β} :
    xs.mapM g = .ok ys ↔ List.Forall₂ (fun x y => g x = .ok y) xs ys := by
  induction xs generalizing ys with
  | nil =>
      rw [List.mapM_nil, List.forall₂_nil_left_iff]
      exact ⟨fun h => (Except.ok.inj h).symm, fun h => h ▸ rfl⟩
  | cons x xs ih =>
      rw [List.mapM_cons, bind_ok_iff, List.forall₂_cons_left_iff]
      constructor
      · rintro ⟨y, hy, h⟩
        obtain ⟨zs, hzs, h⟩ := bind_eq_ok h
        exact ⟨y, zs, hy, ih.mp hzs, (Except.ok.inj h).symm⟩
      · rintro ⟨y, zs, hy, hzs, rfl⟩
        exact ⟨y, hy, bind_ok_iff.mpr ⟨zs, ih.mpr hzs, rfl⟩⟩

/-! ### What a computation keeps -/

/-- A state that meets `P` is left for one that does, also when something is thrown. -/
def Keeps (P : σ → Prop) (p : Throwing σ ε α) : Prop :=
  ∀ s, P s → P (exec p s).2

section

variable {P : σ → Prop}

/-- Returning keeps everything. -/
theorem keeps_pure (a : α) : Keeps P (pure a : Throwing σ ε α) :=
  fun _ h => h

/-- So does a computation that may throw and has no state. -/
theorem keeps_lift (x : Except ε α) : Keeps P (liftM x : Throwing σ ε α) := by
  intro s h
  rwa [exec_lift]

/-- A change keeps what it keeps. -/
theorem keeps_modify {g : σ → σ} (h : ∀ s, P s → P (g s)) :
    Keeps P (modify g : Throwing σ ε Unit) :=
  h

/-- Two programs keep what each of them keeps. -/
theorem Keeps.bind (hp : Keeps P p) (hf : ∀ a, Keeps P (f a)) : Keeps P (p >>= f) := by
  intro s h
  have hp := hp s h
  rw [exec_bind]
  rcases hexec : exec p s with ⟨r | a, s'⟩ <;> rw [hexec] at hp
  · exact hp
  · exact hf a s' hp

/-- What follows a lifted `Except` may use what its value is. -/
theorem keeps_lift_bind {x : Except ε α} (hf : ∀ a, x = .ok a → Keeps P (f a)) :
    Keeps P ((liftM x : Throwing σ ε α) >>= f) := by
  intro s h
  rw [exec_bind, exec_lift]
  cases hx : x with
  | error e => exact h
  | ok a => exact hf a hx s h

/-- A loop keeps what each of its rounds keeps. -/
theorem keeps_forM {xs : List β} {g : β → Throwing σ ε Unit} (h : ∀ x, Keeps P (g x)) :
    Keeps P (xs.forM g) := by
  induction xs with
  | nil => exact keeps_pure ()
  | cons x xs ih => exact (h x).bind fun _ => ih

end

/-! ### Writing to a list -/

/-- What is returned or thrown does not depend on the state, and the list `get` of the state
is appended to, with entries that do not depend on it either. -/
def Appends (get : σ → List γ) (p : Throwing σ ε α) : Prop :=
  ∃ r xs, ∀ s, (exec p s).1 = r ∧ get (exec p s).2 = get s ++ xs

section

variable {get : σ → List γ}

/-- Returning appends nothing. -/
theorem appends_pure (a : α) : Appends get (pure a : Throwing σ ε α) :=
  ⟨.ok a, [], fun s => by simp⟩

/-- So does a computation that has no state. -/
theorem appends_lift (x : Except ε α) : Appends get (liftM x : Throwing σ ε α) :=
  ⟨x, [], fun s => by simp⟩

/-- A change may append. -/
theorem appends_modify {g : σ → σ} {xs : List γ} (h : ∀ s, get (g s) = get s ++ xs) :
    Appends get (modify g : Throwing σ ε Unit) :=
  ⟨.ok (), xs, fun s => ⟨rfl, h s⟩⟩

/-- Two programs append one after the other. -/
theorem Appends.bind (hp : Appends get p) (hf : ∀ a, Appends get (f a)) :
    Appends get (p >>= f) := by
  obtain ⟨r, xs, hp⟩ := hp
  cases r with
  | error e =>
      refine ⟨.error e, xs, fun s => ?_⟩
      obtain ⟨hr, hxs⟩ := hp s
      rcases hexec : exec p s with ⟨r, s'⟩
      rw [hexec] at hr hxs
      obtain rfl : r = .error e := hr
      rw [exec_bind, hexec]
      exact ⟨rfl, hxs⟩
  | ok a =>
      obtain ⟨r, ys, hf⟩ := hf a
      refine ⟨r, xs ++ ys, fun s => ?_⟩
      obtain ⟨hr, hxs⟩ := hp s
      rcases hexec : exec p s with ⟨r', s'⟩
      rw [hexec] at hr hxs
      obtain rfl : r' = .ok a := hr
      obtain ⟨hr', hys⟩ := hf s'
      have hxs : get s' = get s ++ xs := hxs
      rw [exec_bind, hexec]
      exact ⟨hr', by rw [hys, hxs, List.append_assoc]⟩

/-- A loop appends what its rounds do. -/
theorem appends_forM {xs : List β} {g : β → Throwing σ ε Unit}
    (h : ∀ x, Appends get (g x)) : Appends get (xs.forM g) := by
  induction xs with
  | nil => exact appends_pure ()
  | cons x xs ih => exact (h x).bind fun _ => ih

/-- **What is appended can be seen in a run from an empty list.** -/
theorem Appends.from_empty (h : Appends get p) (h₀ : get s₀ = []) :
    (exec p s).1 = (exec p s₀).1 ∧ get (exec p s).2 = get s ++ get (exec p s₀).2 := by
  obtain ⟨r, xs, h⟩ := h
  obtain ⟨hr, hxs⟩ := h s
  obtain ⟨hr₀, hxs₀⟩ := h s₀
  rw [hr, hr₀, hxs, hxs₀, h₀, List.nil_append]
  exact ⟨rfl, rfl⟩

end

end Throwing
