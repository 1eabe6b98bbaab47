import AnyServer.Library.Lts
import AnyServer.Library.MultiMap

/-!
# Intercepted Signals

`PosixSignalInterceptor` installs its own handler for the signals that it is asked to handle. It
keeps the handlers registered in a multimap, several for one signal, and in a map what
`std::signal` returned when a signal was first asked for. The destructor gives that back to
`std::signal` and deletes the handlers.

`PosixSignalInterceptor` below has the dispositions of the process with it, and both maps are
a `MultiMap`, for a key is put into the second one only where it is not in it. `HandleSignals` goes
statement by statement: a signal may come before it, after it and in between. `fails` are the
signals for which `std::signal` returns `SIG_ERR` and changes nothing, as it does too when it is
given `SIG_ERR`. `D` are the other functions that a signal may have, and `F` those that are
passed to `HandleSignals`.

## Main results

* `Tracked.step`: what the two maps and the dispositions have to do with each other.
* `SavedFrom.reaches`: a signal that was asked for gets to `RaiseSignal`.
* `intercepts`: what a signal invokes, and what the destructor leaves behind.
-/

namespace AnyServer

open Lts

/-- What is called when a signal comes. -/
inductive Disposition (D : Type)
  | interceptorSignalHandler
  | other (d : D)
  deriving DecidableEq, Repr

/-- What `std::signal` takes and returns; `none` is `SIG_ERR`. -/
abbrev PosixSignalHandler (D : Type) := Option (Disposition D)

/-- `std::signal`. -/
def stdSignal {D : Type} (fails : ℤ → Bool) (dispositions : ℤ → Disposition D) (signal_id : ℤ) :
    PosixSignalHandler D → (ℤ → Disposition D) × PosixSignalHandler D
  | none => (dispositions, none)
  | some handler =>
      if fails signal_id then (dispositions, none)
      else (Function.update dispositions signal_id handler, some (dispositions signal_id))

/-- A `SignalHandler` object: which one it is, and the function that it has. -/
structure SignalHandler (F : Type) where
  object : ℕ
  handler_ : F
  deriving DecidableEq, Repr

/-- Where `HandleSignals` is: not called, at the test of its loop with these signals left, or in
`HandleSignal` before its last statement. -/
inductive SignalPc (F : Type)
  | idle
  | loop (signal_ids : List ℤ) (handler : F)
  | insert (signal_id : ℤ) (object : SignalHandler F) (rest : List ℤ) (handler : F)
  deriving DecidableEq, Repr

/-- The interceptor, the dispositions, the number of objects made with `new` and the objects
deleted. -/
structure PosixSignalInterceptor (D F : Type) where
  signal_handlers_ : MultiMap ℤ (SignalHandler F)
  previous_handlers_ : MultiMap ℤ (PosixSignalHandler D)
  dispositions : ℤ → Disposition D
  made : ℕ
  deleted : List ℕ
  pc : SignalPc F

/-- A call of `HandleSignals` and its way on; a call of `RaiseSignal`; a signal that comes. -/
inductive SignalInput (F : Type)
  | handleSignals (signal_ids : List ℤ) (handler : F)
  | resume
  | raiseSignal (signal_id : ℤ)
  | signal (signal_id : ℤ)
  deriving DecidableEq, Repr

/-- A handler is registered for a signal, or called with one. -/
inductive SignalObs (F : Type)
  | registered (signal_id : ℤ) (handler : SignalHandler F)
  | invoked (signal_id : ℤ) (handler : SignalHandler F)
  deriving DecidableEq, Repr

section

variable {D F : Type}

/-- `PosixSignalInterceptor::PosixSignalInterceptor`. -/
def PosixSignalInterceptor.start (dispositions : ℤ → Disposition D) :
    PosixSignalInterceptor D F where
  signal_handlers_ := .empty
  previous_handlers_ := .empty
  dispositions := dispositions
  made := 0
  deleted := []
  pc := .idle

/-- The first statement of `HandleSignal`. -/
def PosixSignalInterceptor.savePrevious (fails : ℤ → Bool) (s : PosixSignalInterceptor D F)
    (signal_id : ℤ) : PosixSignalInterceptor D F :=
  if signal_id ∈ s.previous_handlers_.keys then s
  else
    let (dispositions, previous_handler) :=
      stdSignal fails s.dispositions signal_id (some .interceptorSignalHandler)
    { s with
      dispositions
      previous_handlers_ := s.previous_handlers_.insert signal_id previous_handler }

/-- `PosixSignalInterceptor::RaiseSignal`. -/
def PosixSignalInterceptor.raiseSignal (s : PosixSignalInterceptor D F) (signal_id : ℤ) :
    List (SignalObs F) :=
  (s.signal_handlers_.equalRange signal_id).map fun it => .invoked signal_id it.2

/-- `PosixSignalInterceptor::~PosixSignalInterceptor`. -/
def PosixSignalInterceptor.destroy (fails : ℤ → Bool) (s : PosixSignalInterceptor D F) :
    PosixSignalInterceptor D F :=
  { s with
    dispositions := s.previous_handlers_.entries.foldl
      (fun dispositions it => (stdSignal fails dispositions it.1 it.2).1) s.dispositions
    deleted := s.deleted ++ s.signal_handlers_.entries.map fun it => it.2.object }

/-- One step of a call, or a signal. -/
def PosixSignalInterceptor.next (fails : ℤ → Bool) (s : PosixSignalInterceptor D F) :
    SignalInput F → Option (PosixSignalInterceptor D F × List (SignalObs F))
  | .handleSignals signal_ids handler =>
      match s.pc with
      | .idle => some ({ s with pc := .loop signal_ids handler }, [])
      | _ => none
  | .resume =>
      match s.pc with
      | .idle => none
      | .loop [] _ => some ({ s with pc := .idle }, [])
      | .loop (it :: rest) handler =>
          some ({ s.savePrevious fails it with
                  made := s.made + 1
                  pc := .insert it ⟨s.made, handler⟩ rest handler }, [])
      | .insert signal_id object rest handler =>
          some ({ s with
                  signal_handlers_ := s.signal_handlers_.insert signal_id object
                  pc := .loop rest handler }, [.registered signal_id object])
  | .raiseSignal signal_id => some (s, s.raiseSignal signal_id)
  | .signal signal_id =>
      match s.dispositions signal_id with
      | .interceptorSignalHandler => some (s, s.raiseSignal signal_id)
      | .other _ => some (s, [])

/-- The interceptor under its calls and signals. -/
abbrev PosixSignalInterceptor.Step (fails : ℤ → Bool) :
    Lts (PosixSignalInterceptor D F) (SignalInput F) (SignalObs F) :=
  ofFn (PosixSignalInterceptor.next fails)

/-! ### What is asked of the interceptor -/

/-- The signals and functions of a call of `HandleSignals`. -/
def SignalInput.asked : SignalInput F → List (ℤ × F)
  | .handleSignals signal_ids handler => signal_ids.map (·, handler)
  | .resume | .raiseSignal _ | .signal _ => []

/-- What is registered. -/
def SignalObs.registration : SignalObs F → List (ℤ × SignalHandler F)
  | .registered signal_id handler => [(signal_id, handler)]
  | .invoked _ _ => []

/-- What is registered for a signal. -/
def registeredFor (os : List (SignalObs F)) (signal_id : ℤ) : List (SignalHandler F) :=
  ((os.flatMap SignalObs.registration).filter fun r => r.1 = signal_id).map Prod.snd

/-! ### The two maps -/

/-- What a call of `HandleSignals` has not registered yet. -/
def SignalPc.left : SignalPc F → List (ℤ × F)
  | .idle => []
  | .loop signal_ids handler => signal_ids.map (·, handler)
  | .insert signal_id object rest handler =>
      (signal_id, object.handler_) :: rest.map (·, handler)

/-- The object that is made and not inserted yet. -/
def SignalPc.pending : SignalPc F → List ℕ
  | .insert _ object _ _ => [object.object]
  | .idle | .loop _ _ => []

/-- The signal that `std::signal` was asked for, and whose object is not inserted yet. -/
def SignalPc.saving : SignalPc F → List ℤ
  | .insert signal_id _ _ _ => [signal_id]
  | .idle | .loop _ _ => []

/-- The map of saved dispositions: for each signal in it what it had before the interceptor, and
since then the interceptor's own handler, unless `std::signal` fails for it. -/
structure SavedFrom (fails : ℤ → Bool) (before : ℤ → Disposition D)
    (s : PosixSignalInterceptor D F) : Prop where
  keys_nodup : s.previous_handlers_.keys.Nodup
  saved : ∀ e ∈ s.previous_handlers_.entries,
    e.2 = if fails e.1 then none else some (before e.1)
  installed : ∀ signal_id ∈ s.previous_handlers_.keys, s.dispositions signal_id =
    if fails signal_id then before signal_id else .interceptorSignalHandler
  untouched : ∀ signal_id ∉ s.previous_handlers_.keys,
    s.dispositions signal_id = before signal_id

/-- How the interceptor stands to what it was asked for, and to the dispositions before it. -/
structure Tracked (fails : ℤ → Bool) (before : ℤ → Disposition D) (is : List (SignalInput F))
    (os : List (SignalObs F)) (s : PosixSignalInterceptor D F) : Prop where
  ranges : ∀ signal_id, (s.signal_handlers_.equalRange signal_id).map Prod.snd =
    registeredFor os signal_id
  asked : (os.flatMap SignalObs.registration).map (fun r => (r.1, r.2.handler_)) ++ s.pc.left =
    is.flatMap SignalInput.asked
  saved : SavedFrom fails before s
  known : ∀ signal_id ∈ (os.flatMap SignalObs.registration).map Prod.fst ++ s.pc.saving,
    signal_id ∈ s.previous_handlers_.keys
  objects : (s.signal_handlers_.entries.map (fun e => e.2.object) ++ s.pc.pending).Perm
    (List.range s.made)
  deleted : s.deleted = []

variable {fails : ℤ → Bool} {before : ℤ → Disposition D} {is : List (SignalInput F)}
  {i : SignalInput F} {os o : List (SignalObs F)} {s s' : PosixSignalInterceptor D F}
  {signal_id : ℤ} {signal_ids : List ℤ} {handler : F}

/-- At the start nothing is registered and nothing is saved. -/
theorem tracked_start : Tracked (F := F) fails before [] [] (.start before) where
  ranges _ := rfl
  asked := rfl
  saved := ⟨.nil, by rintro e ⟨⟩, by rintro id ⟨⟩, fun _ _ => rfl⟩
  known := List.forall_mem_nil _
  objects := .nil
  deleted := rfl

/-- **The first statement of `HandleSignal`.** -/
theorem SavedFrom.savePrevious (h : SavedFrom fails before s) (signal_id : ℤ) :
    SavedFrom fails before (s.savePrevious fails signal_id) := by
  rw [PosixSignalInterceptor.savePrevious]
  split
  · exact h
  · next hnew =>
    have hbefore := h.untouched signal_id hnew
    have hkeys : ∀ v : PosixSignalHandler D,
        (s.previous_handlers_.insert signal_id v).keys.Perm
          (signal_id :: s.previous_handlers_.keys) := fun _ => MultiMap.perm_keys_insert
    cases hfails : fails signal_id with
    | true =>
        simp only [stdSignal, hfails, if_true]
        refine ⟨(hkeys _).nodup_iff.mpr (.cons hnew h.keys_nodup), fun e he => ?_,
          fun id hid => ?_, fun id hid => ?_⟩
        · rcases MultiMap.mem_insert.mp he with rfl | he
          · simp [hfails]
          · exact h.saved e he
        · rcases List.mem_cons.mp ((hkeys _).mem_iff.mp hid) with rfl | hid
          · simpa [hfails] using hbefore
          · exact h.installed id hid
        · exact h.untouched id fun hmem => hid ((hkeys _).mem_iff.mpr (.tail _ hmem))
    | false =>
        simp only [stdSignal, hfails, Bool.false_eq_true, if_false]
        refine ⟨(hkeys _).nodup_iff.mpr (.cons hnew h.keys_nodup), fun e he => ?_,
          fun id hid => ?_, fun id hid => ?_⟩
        · rcases MultiMap.mem_insert.mp he with rfl | he
          · simp [hfails, hbefore]
          · exact h.saved e he
        · rcases List.mem_cons.mp ((hkeys _).mem_iff.mp hid) with rfl | hid
          · simp [hfails]
          · have hne : id ≠ signal_id := fun heq => hnew (heq ▸ hid)
            simpa [Function.update_of_ne hne] using h.installed id hid
        · have hne : id ≠ signal_id := fun heq => hid ((hkeys _).mem_iff.mpr (heq ▸ .head _))
          simpa [Function.update_of_ne hne] using
            h.untouched id fun hmem => hid ((hkeys _).mem_iff.mpr (.tail _ hmem))

/-- After it the signal is one of those asked for, and none is lost. -/
theorem PosixSignalInterceptor.mem_keys_savePrevious {id : ℤ} :
    id ∈ (s.savePrevious fails signal_id).previous_handlers_.keys ↔
      id = signal_id ∨ id ∈ s.previous_handlers_.keys := by
  rw [savePrevious]
  split
  · next hmem =>
    refine ⟨.inr, ?_⟩
    rintro (rfl | h)
    · exact hmem
    · exact h
  · exact MultiMap.perm_keys_insert.mem_iff.trans List.mem_cons

/-! ### One step -/

/-- Calling handlers registers none. -/
theorem registration_raiseSignal (s : PosixSignalInterceptor D F) (signal_id : ℤ) :
    (s.raiseSignal signal_id).flatMap SignalObs.registration = [] := by
  rw [PosixSignalInterceptor.raiseSignal, List.flatMap_map]
  exact List.flatMap_eq_nil_iff.mpr fun _ _ => rfl

/-- A step that registers nothing: what it asks for is left to do. -/
theorem Tracked.moved {pc : SignalPc F} (h : Tracked fails before is os s)
    (hleft : pc.left = s.pc.left ++ i.asked) (hpending : pc.pending = s.pc.pending)
    (hsaving : pc.saving = s.pc.saving)
    (ho : o.flatMap SignalObs.registration = []) :
    Tracked fails before (is ++ [i]) (os ++ o) { s with pc } := by
  have hos : (os ++ o).flatMap SignalObs.registration = os.flatMap SignalObs.registration := by
    rw [List.flatMap_append, ho, List.append_nil]
  refine ⟨fun id => ?_, ?_, ⟨h.saved.keys_nodup, h.saved.saved, h.saved.installed,
    h.saved.untouched⟩, ?_, ?_, h.deleted⟩
  · rw [registeredFor, hos]
    exact h.ranges id
  · rw [hos, hleft, List.flatMap_append, List.flatMap_singleton, ← List.append_assoc, h.asked]
  · rw [hos]
    simp only [hsaving]
    exact h.known
  · simp only [hpending]
    exact h.objects

/-- The first statement of `HandleSignal`, for an object that was just made. -/
theorem Tracked.saving {it : ℤ} {rest : List ℤ} (h : Tracked fails before is os s)
    (hpc : s.pc = .loop (it :: rest) handler) :
    Tracked fails before (is ++ [.resume]) (os ++ [])
      { s.savePrevious fails it with
        made := s.made + 1
        pc := .insert it ⟨s.made, handler⟩ rest handler } := by
  have hother : (s.savePrevious fails it).signal_handlers_ = s.signal_handlers_ ∧
      (s.savePrevious fails it).deleted = s.deleted := by
    rw [PosixSignalInterceptor.savePrevious]
    split <;> exact ⟨rfl, rfl⟩
  obtain ⟨hhandlers, hdeleted⟩ := hother
  have hasked := h.asked
  have hobjects := h.objects
  have hsaved := h.saved.savePrevious it
  have hknown := h.known
  rw [hpc] at hasked hobjects hknown
  refine ⟨fun id => ?_, ?_, ⟨hsaved.keys_nodup, hsaved.saved, hsaved.installed, hsaved.untouched⟩,
    fun id hid => ?_, ?_, hdeleted.trans h.deleted⟩
  · rw [List.append_nil]
    simp only [hhandlers]
    exact h.ranges id
  · rw [List.append_nil, List.flatMap_append, List.flatMap_singleton, SignalInput.asked,
      List.append_nil]
    exact hasked
  · refine PosixSignalInterceptor.mem_keys_savePrevious.mpr ?_
    rw [List.append_nil] at hid
    rcases List.mem_append.mp hid with hid | hid
    · exact .inr (hknown id (List.mem_append_left _ hid))
    · exact .inl (List.mem_singleton.mp hid)
  · simp only [hhandlers, List.range_succ]
    simp only [SignalPc.pending, List.append_nil] at hobjects
    exact hobjects.append_right _

/-- The last statement of `HandleSignal`. -/
theorem Tracked.inserting {object : SignalHandler F} {rest : List ℤ}
    (h : Tracked fails before is os s) (hpc : s.pc = .insert signal_id object rest handler) :
    Tracked fails before (is ++ [.resume]) (os ++ [.registered signal_id object])
      { s with
        signal_handlers_ := s.signal_handlers_.insert signal_id object
        pc := .loop rest handler } := by
  have hasked := h.asked
  have hobjects := h.objects
  have hknown := h.known
  rw [hpc] at hasked hobjects hknown
  have hos : (os ++ [SignalObs.registered signal_id object]).flatMap SignalObs.registration =
      os.flatMap SignalObs.registration ++ [(signal_id, object)] := by
    rw [List.flatMap_append]
    rfl
  refine ⟨fun id => ?_, ?_, ⟨h.saved.keys_nodup, h.saved.saved, h.saved.installed,
    h.saved.untouched⟩, ?_, ?_, h.deleted⟩
  · -- the new handler is the last one of its signal in both
    rw [MultiMap.equalRange_insert, List.map_append, h.ranges id, registeredFor, registeredFor,
      hos, List.filter_append, List.map_append]
    by_cases hid : signal_id = id <;> simp [hid]
  · rw [hos, List.map_append, List.append_assoc, List.flatMap_append, List.flatMap_singleton,
      SignalInput.asked, List.append_nil]
    exact hasked
  · rw [hos, List.map_append]
    simp only [SignalPc.saving, List.append_nil]
    exact hknown
  · have hinsert := (MultiMap.perm_insert (m := s.signal_handlers_) (k := signal_id)
      (a := object)).map fun e => e.2.object
    simp only [SignalPc.pending, List.append_nil]
    refine hinsert.trans (.trans ?_ hobjects)
    exact (List.perm_append_singleton _ _).symm

/-- **One step.** -/
theorem Tracked.step (h : Tracked fails before is os s)
    (ht : PosixSignalInterceptor.Step fails s i s' o) :
    Tracked fails before (is ++ [i]) (os ++ o) s' := by
  have ht : s.next fails i = some (s', o) := ht
  cases i with
  | handleSignals signal_ids handler =>
      simp only [PosixSignalInterceptor.next] at ht
      split at ht
      · next hpc =>
        obtain ⟨rfl, rfl⟩ := Prod.mk.inj (Option.some.inj ht)
        exact h.moved (by rw [hpc]; rfl) (by rw [hpc]; rfl) (by rw [hpc]; rfl) rfl
      · cases ht
  | resume =>
      simp only [PosixSignalInterceptor.next] at ht
      split at ht
      · cases ht
      · next hpc =>
        obtain ⟨rfl, rfl⟩ := Prod.mk.inj (Option.some.inj ht)
        exact h.moved (by rw [hpc]; rfl) (by rw [hpc]; rfl) (by rw [hpc]; rfl) rfl
      · next it rest handler hpc =>
        obtain ⟨rfl, rfl⟩ := Prod.mk.inj (Option.some.inj ht)
        exact h.saving hpc
      · next signal_id object rest handler hpc =>
        obtain ⟨rfl, rfl⟩ := Prod.mk.inj (Option.some.inj ht)
        exact h.inserting hpc
  | raiseSignal signal_id =>
      obtain ⟨rfl, rfl⟩ := Prod.mk.inj (Option.some.inj ht)
      exact h.moved (List.append_nil _).symm rfl rfl (registration_raiseSignal _ _)
  | signal signal_id =>
      simp only [PosixSignalInterceptor.next] at ht
      split at ht <;> obtain ⟨rfl, rfl⟩ := Prod.mk.inj (Option.some.inj ht)
      · exact h.moved (List.append_nil _).symm rfl rfl (registration_raiseSignal _ _)
      · exact h.moved (List.append_nil _).symm rfl rfl rfl

/-! ### The destructor -/

/-- **Giving back what was saved.** The induction is on the entries; a signal that has had its
turn is not touched again. -/
theorem restore_eq {entries : List (ℤ × PosixSignalHandler D)}
    (hnd : (entries.map Prod.fst).Nodup)
    (hsaved : ∀ e ∈ entries, e.2 = if fails e.1 then none else some (before e.1))
    (dispositions : ℤ → Disposition D) (signal_id : ℤ) :
    entries.foldl (fun dispositions it => (stdSignal fails dispositions it.1 it.2).1)
        dispositions signal_id =
      if signal_id ∈ entries.map Prod.fst ∧ fails signal_id = false then before signal_id
      else dispositions signal_id := by
  induction entries generalizing dispositions with
  | nil => simp
  | cons e entries ih =>
      obtain ⟨hhead, hsaved⟩ := List.forall_mem_cons.mp hsaved
      obtain ⟨hnew, hnd⟩ := List.nodup_cons.mp (by simpa only [List.map_cons] using hnd)
      rw [List.foldl_cons, ih hnd hsaved]
      simp only [List.map_cons, List.mem_cons]
      by_cases hid : signal_id = e.1
      · subst hid
        rw [if_neg fun hmem => hnew hmem.1, hhead]
        cases hfails : fails e.1 with
        | true => simp [stdSignal]
        | false => simp [stdSignal, hfails]
      · have hstay : (stdSignal fails dispositions e.1 e.2).1 signal_id =
            dispositions signal_id := by
          rw [hhead]
          cases hfails : fails e.1 with
          | true => simp [stdSignal]
          | false => simp [stdSignal, hfails, Function.update_of_ne hid]
        simp only [hid, false_or, hstay]

/-- The destructor leaves every disposition as it was before the interceptor. -/
theorem SavedFrom.destroy (h : SavedFrom fails before s) :
    (s.destroy fails).dispositions = before := by
  funext signal_id
  simp only [PosixSignalInterceptor.destroy]
  rw [restore_eq h.keys_nodup h.saved]
  split
  · rfl
  · next hnot =>
    by_cases hmem : signal_id ∈ s.previous_handlers_.keys
    · have hfails : fails signal_id = true := by
        by_contra hfails
        exact hnot ⟨hmem, by simpa using hfails⟩
      rw [h.installed signal_id hmem, if_pos hfails]
    · exact h.untouched signal_id hmem

/-- A signal that a handler is registered for was asked for. -/
theorem Tracked.mem_keys (h : Tracked fails before is os s)
    (hregistered : registeredFor os signal_id ≠ []) :
    signal_id ∈ s.previous_handlers_.keys := by
  obtain ⟨handler, hhandler⟩ := List.exists_mem_of_ne_nil _ hregistered
  obtain ⟨r, hr, -⟩ := List.mem_map.mp hhandler
  obtain ⟨hmem, hid⟩ := List.mem_filter.mp hr
  obtain rfl := of_decide_eq_true hid
  exact h.known _ (List.mem_append_left _ (List.mem_map_of_mem hmem))

/-- A signal that comes gets to `RaiseSignal` once it is registered, unless `std::signal` fails
for it. -/
theorem SavedFrom.reaches (h : SavedFrom fails before s)
    (hmem : signal_id ∈ s.previous_handlers_.keys) (hfails : fails signal_id = false) :
    s.next fails (.signal signal_id) = some (s, s.raiseSignal signal_id) := by
  have hinstalled := h.installed signal_id hmem
  rw [hfails] at hinstalled
  simp only [PosixSignalInterceptor.next, hinstalled, Bool.false_eq_true, if_false]

/-- **What a signal invokes, and what the destructor leaves.** Whatever was asked for, and
whatever signals came: `RaiseSignal` invokes the handlers registered so far for its signal, in
the order in which they were registered, which after a call of `HandleSignals` are those asked
for; a signal that comes gets there if a handler is registered for it and `std::signal` does not
fail for it; and the destructor restores all dispositions and deletes each object made once. -/
theorem intercepts (h : Run (PosixSignalInterceptor.Step fails) (.start before) is os s) :
    (∀ signal_id, s.raiseSignal signal_id =
      (registeredFor os signal_id).map (SignalObs.invoked signal_id)) ∧
    (∀ signal_id, registeredFor os signal_id ≠ [] → fails signal_id = false →
      s.next fails (.signal signal_id) = some (s, s.raiseSignal signal_id)) ∧
    (s.pc = .idle →
      (∀ signal_id, (registeredFor os signal_id).map SignalHandler.handler_ =
        ((is.flatMap SignalInput.asked).filter fun r => r.1 = signal_id).map Prod.snd) ∧
      (s.destroy fails).dispositions = before ∧
      (s.destroy fails).deleted.Perm (List.range s.made)) := by
  have htracked : Tracked fails before is os s :=
    h.invariant (P := Tracked fails before) tracked_start fun _ hs ht => hs.step ht
  refine ⟨fun signal_id => ?_, fun signal_id hregistered hfails => ?_,
    fun hidle => ⟨fun signal_id => ?_, htracked.saved.destroy, ?_⟩⟩
  · rw [PosixSignalInterceptor.raiseSignal, ← htracked.ranges signal_id, List.map_map]
    rfl
  · exact htracked.saved.reaches (htracked.mem_keys hregistered) hfails
  · have hasked := htracked.asked
    rw [hidle, SignalPc.left, List.append_nil] at hasked
    rw [← hasked, registeredFor, List.filter_map, List.map_map, List.map_map]
    rfl
  · have hobjects := htracked.objects
    rw [hidle, SignalPc.pending, List.append_nil] at hobjects
    rw [PosixSignalInterceptor.destroy, htracked.deleted, List.nil_append]
    exact hobjects

end

/-! ### A signal handled twice -/

/-- `std::signal` fails for `SIGKILL`. -/
def sigkill (signal_id : ℤ) : Bool :=
  signal_id == 9

/-- `HandleSignals({2, 9, 2}, 7)`. -/
def handledTwice : List (SignalInput ℕ) :=
  .handleSignals [2, 9, 2] 7 :: List.replicate 7 .resume

/-- Signal 2 calls the handler twice, once for each time that it was registered. -/
theorem intercepts_handledTwice :
    ∃ os s, Run (PosixSignalInterceptor.Step sigkill) (.start fun _ => Disposition.other 0)
        handledTwice os s ∧ s.pc = .idle ∧
      s.raiseSignal 2 = [.invoked 2 ⟨0, 7⟩, .invoked 2 ⟨2, 7⟩] ∧
      (∀ signal_id, s.raiseSignal signal_id =
        (registeredFor os signal_id).map (SignalObs.invoked signal_id)) ∧
      (∀ signal_id, registeredFor os signal_id ≠ [] → sigkill signal_id = false →
        s.next sigkill (.signal signal_id) = some (s, s.raiseSignal signal_id)) ∧
      (s.pc = .idle →
        (∀ signal_id, (registeredFor os signal_id).map SignalHandler.handler_ =
          ((handledTwice.flatMap SignalInput.asked).filter fun r => r.1 = signal_id).map
            Prod.snd) ∧
        (s.destroy sigkill).dispositions = (fun _ => Disposition.other 0) ∧
        (s.destroy sigkill).deleted.Perm (List.range s.made)) := by
  have hrun : Run (PosixSignalInterceptor.Step sigkill) (.start fun _ => Disposition.other 0)
      handledTwice _ _ := run_of_exec rfl
  exact ⟨_, _, hrun, rfl, by decide, intercepts hrun⟩

end AnyServer
