import Mathlib.Data.List.Induction
import Mathlib.Logic.Function.Basic

/-!
# Logs of Sessions

A server reports what happens to its peers as a log of events that name a peer by an
identifier only: `opened id`, `data id d`, `closed id`. This module develops what can be
said of such a log.

* `outstanding log` are the identifiers opened and not closed yet. `ClosesMatched log` says
  that every `closed` names one of these, `OpensFresh log` that no `opened` does.
* `LeavesOpen log P` is a log that is sound in both respects and leaves open what has `P`.
* A log whose events are tagged with the session that caused them (`K × Event I D`) is
  `Logs log σ` when it is grown by opening an idle session under an identifier no live
  session has, handing data to a live session, and closing a live session. Here `σ`
  records how far each session has come.

An identifier may be used again after its session is closed; a reader of the log can still
tell the sessions apart, because the last session opened under an identifier and not
closed since, `owner log id`, is the one that is live.

## Main results

* `OpensFresh.closed_between` / `OpensFresh.notMem_outstanding_of_closed`: when an identifier
  can come again.
* `Logs.of_eq`: the events of one session are `opened`, then its data in order, then at
  most one `closed`, all under one identifier.
* `Logs.data_owner`: every datum is reported under an identifier that its own session
  owns at that moment.
-/

namespace Session

/-- What a log says about a peer known by the identifier `id`. -/
inductive Event (I D : Type*)
  | opened (id : I)
  | data (id : I) (d : D)
  | closed (id : I)
  deriving DecidableEq, Repr

variable {I D K : Type*}

/-- What is asked of the elements `f b` of a list, and of those before them, is asked of the
list's last element and of the rest. -/
theorem forall_split_concat {α β : Type*} {f : β → α} {Q : List α → β → Prop} {l : List α}
    {a : α} :
    (∀ pre b post, l ++ [a] = pre ++ f b :: post → Q pre b) ↔
      (∀ pre b post, l = pre ++ f b :: post → Q pre b) ∧ ∀ b, a = f b → Q l b := by
  constructor
  · intro h
    refine ⟨fun pre b post hl => h pre b (post ++ [a]) (by simp [hl]), ?_⟩
    rintro b rfl
    exact h l b [] rfl
  · rintro ⟨hl, ha⟩ pre b post h
    rcases List.eq_nil_or_concat post with rfl | ⟨post', a', rfl⟩
    · obtain ⟨rfl, hab⟩ := List.append_inj' h rfl
      exact ha b (by simpa using hab)
    · rw [List.concat_eq_append, ← List.cons_append, ← List.append_assoc] at h
      obtain ⟨rfl, -⟩ := List.append_inj' h rfl
      exact hl pre b post' rfl

/-! ### Identifiers opened and not closed -/

/-- The effect of one event on the identifiers that are open. -/
def Event.effect [DecidableEq I] (ids : List I) : Event I D → List I
  | .opened id => id :: ids
  | .data _ _ => ids
  | .closed id => ids.erase id

/-- The identifiers opened and not closed yet, one entry for each opening. -/
def outstanding [DecidableEq I] (log : List (Event I D)) : List I :=
  log.foldl Event.effect []

/-- Every `opened` names an identifier that is not open. -/
def OpensFresh [DecidableEq I] (log : List (Event I D)) : Prop :=
  ∀ pre id post, log = pre ++ .opened id :: post → id ∉ outstanding pre

/-- Every `closed` names an identifier that was opened and not closed yet. -/
def ClosesMatched [DecidableEq I] (log : List (Event I D)) : Prop :=
  ∀ pre id post, log = pre ++ .closed id :: post → id ∈ outstanding pre

section Outstanding

variable [DecidableEq I] {log : List (Event I D)} {e : Event I D}

@[simp] theorem outstanding_nil : outstanding ([] : List (Event I D)) = [] := rfl

/-- The next event changes who is there by its own effect. -/
@[simp] theorem outstanding_concat :
    outstanding (log ++ [e]) = e.effect (outstanding log) := by
  simp [outstanding]

/-- At the start nothing has been closed. -/
theorem closesMatched_nil : ClosesMatched ([] : List (Event I D)) := by
  intro pre id post h
  simp at h

/-- Whether a log stays matched is decided by its last event. -/
theorem closesMatched_concat :
    ClosesMatched (log ++ [e]) ↔
      ClosesMatched log ∧ ∀ id, e = .closed id → id ∈ outstanding log :=
  forall_split_concat (f := Event.closed) (Q := fun pre id => id ∈ outstanding pre)

/-- At the start nothing has been opened. -/
theorem opensFresh_nil : OpensFresh ([] : List (Event I D)) := by
  intro pre id post h
  simp at h

/-- Whether the openings of a log are fresh is decided by its last event. -/
theorem opensFresh_concat :
    OpensFresh (log ++ [e]) ↔
      OpensFresh log ∧ ∀ id, e = .opened id → id ∉ outstanding log :=
  forall_split_concat (f := Event.opened) (Q := fun pre id => id ∉ outstanding pre)

/-- Where openings are fresh, no identifier is open twice. -/
theorem OpensFresh.nodup_outstanding (h : OpensFresh log) : (outstanding log).Nodup := by
  induction log using List.reverseRecOn with
  | nil => exact List.nodup_nil
  | append_singleton log e ih =>
      obtain ⟨hlog, he⟩ := opensFresh_concat.mp h
      rw [outstanding_concat]
      cases e with
      | opened id => exact List.nodup_cons.mpr ⟨he id rfl, ih hlog⟩
      | data id d => exact ih hlog
      | closed id => exact (ih hlog).erase id

/-- An identifier stays open until it is closed. -/
theorem mem_outstanding_of_opened {pre post : List (Event I D)} {id : I}
    (h : .closed id ∉ post) : id ∈ outstanding (pre ++ .opened id :: post) := by
  induction post using List.reverseRecOn with
  | nil => simp [Event.effect]
  | append_singleton post e ih =>
      rw [List.mem_append, not_or] at h
      rw [← List.cons_append, ← List.append_assoc, outstanding_concat]
      have hmem := ih h.1
      cases e with
      | opened id' => exact List.mem_cons_of_mem id' hmem
      | data id' d => exact hmem
      | closed id' =>
          have hne : id ≠ id' := by
            rintro rfl
            exact h.2 (List.mem_singleton_self _)
          exact (List.mem_erase_of_ne hne).mpr hmem

/-- **Between two openings under one identifier it is closed.** -/
theorem OpensFresh.closed_between {pre mid post : List (Event I D)} {id : I}
    (h : OpensFresh (pre ++ .opened id :: (mid ++ .opened id :: post))) :
    .closed id ∈ mid := by
  by_contra hmid
  refine h (pre ++ .opened id :: mid) id post (by simp) ?_
  exact mem_outstanding_of_opened hmid

/-- **An identifier that is closed stays so until it is opened again.** -/
theorem OpensFresh.notMem_outstanding_of_closed {pre post : List (Event I D)} {id : I}
    (h : OpensFresh (pre ++ .closed id :: post)) (hpost : .opened id ∉ post) :
    id ∉ outstanding (pre ++ .closed id :: post) := by
  induction post using List.reverseRecOn with
  | nil =>
      rw [outstanding_concat]
      exact (opensFresh_concat.mp h).1.nodup_outstanding.not_mem_erase
  | append_singleton post e ih =>
      rw [List.mem_append, not_or] at hpost
      rw [← List.cons_append, ← List.append_assoc] at h ⊢
      rw [outstanding_concat]
      have hnot := ih (opensFresh_concat.mp h).1 hpost.1
      cases e with
      | opened id' =>
          have hne : id ≠ id' := by
            rintro rfl
            exact hpost.2 (List.mem_singleton_self _)
          exact List.not_mem_cons_of_ne_of_not_mem hne hnot
      | data id' d => exact hnot
      | closed id' => exact fun hmem => hnot (List.mem_of_mem_erase hmem)

end Outstanding

/-! ### What a log leaves open -/

/-- The log is one of openings and closings that match, each identifier being open at most once,
and the identifiers that it leaves open are those with `P`. -/
structure LeavesOpen [DecidableEq I] (log : List (Event I D)) (P : I → Prop) : Prop where
  fresh : OpensFresh log
  matched : ClosesMatched log
  mem_iff : ∀ id, id ∈ outstanding log ↔ P id

section LeavesOpen

variable [DecidableEq I] {log : List (Event I D)} {P Q : I → Prop} {id : I}

/-- At the start nobody is there. -/
theorem LeavesOpen.nil : LeavesOpen ([] : List (Event I D)) fun _ => False :=
  ⟨opensFresh_nil, closesMatched_nil, by simp⟩

/-- Who is there may be said in another way. -/
theorem LeavesOpen.congr (h : LeavesOpen log P) (hPQ : ∀ id, P id ↔ Q id) : LeavesOpen log Q :=
  ⟨h.fresh, h.matched, fun id => (h.mem_iff id).trans (hPQ id)⟩

/-- Who opens is there. -/
theorem LeavesOpen.opened (h : LeavesOpen log P) (hid : ¬ P id) :
    LeavesOpen (log ++ [.opened id]) fun id' => id' = id ∨ P id' := by
  refine ⟨opensFresh_concat.mpr ⟨h.fresh, ?_⟩, closesMatched_concat.mpr ⟨h.matched, by simp⟩, ?_⟩
  · rintro _ ⟨⟩
    rwa [h.mem_iff]
  · intro id'
    rw [outstanding_concat, Event.effect, List.mem_cons, h.mem_iff]

/-- Who closes is there no more. -/
theorem LeavesOpen.closed (h : LeavesOpen log P) (hid : P id) :
    LeavesOpen (log ++ [.closed id]) fun id' => id' ≠ id ∧ P id' := by
  refine ⟨opensFresh_concat.mpr ⟨h.fresh, by simp⟩, closesMatched_concat.mpr ⟨h.matched, ?_⟩, ?_⟩
  · rintro _ ⟨⟩
    rwa [h.mem_iff]
  · intro id'
    rw [outstanding_concat, Event.effect, h.fresh.nodup_outstanding.mem_erase_iff, h.mem_iff]

/-- Nothing is left open where nothing has `P`. -/
theorem LeavesOpen.outstanding_eq_nil_iff (h : LeavesOpen log P) :
    outstanding log = [] ↔ ∀ id, ¬ P id := by
  simp only [List.eq_nil_iff_forall_not_mem, h.mem_iff]

end LeavesOpen

/-! ### Logs tagged with their sessions -/

/-- How far one session has come: its identifier and the data handed over so far. -/
inductive State (I D : Type*)
  | idle
  | live (id : I) (ds : List D)
  | ended (id : I) (ds : List D)

/-- The events of a session that has come this far. -/
def State.log : State I D → List (Event I D)
  | .idle => []
  | .live id ds => .opened id :: ds.map (.data id)
  | .ended id ds => .opened id :: ds.map (.data id) ++ [.closed id]

/-- The data handed over by a session that has come this far. -/
def State.data : State I D → List D
  | .idle => []
  | .live _ ds => ds
  | .ended _ ds => ds

/-- The events that the session `k` caused. -/
def of [DecidableEq K] (k : K) (log : List (K × Event I D)) : List (Event I D) :=
  (log.filter fun e => e.1 = k).map Prod.snd

/-- The effect of one tagged event on the owner of the identifier `id`. -/
def ownerStep [DecidableEq I] (id : I) (o : Option K) : K × Event I D → Option K
  | (k, .opened id') => if id' = id then some k else o
  | (_, .data _ _) => o
  | (_, .closed id') => if id' = id then none else o

/-- The session a reader of the log takes `id` for: the last one opened under `id`, unless
`id` was closed since. -/
def owner [DecidableEq I] (log : List (K × Event I D)) (id : I) : Option K :=
  log.foldl (ownerStep id) none

/-- The tagged logs of well-behaved sessions, with how far each session has come. A
session is opened once, under an identifier no live session has. -/
inductive Logs [DecidableEq K] : List (K × Event I D) → (K → State I D) → Prop
  | nil : Logs [] fun _ => .idle
  | opened {log : List (K × Event I D)} {σ : K → State I D} {k : K} {id : I} :
      Logs log σ → σ k = .idle → (∀ k' ds, σ k' ≠ .live id ds) →
      Logs (log ++ [(k, .opened id)]) (Function.update σ k (.live id []))
  | data {log : List (K × Event I D)} {σ : K → State I D} {k : K} {id : I} {ds : List D}
      {d : D} :
      Logs log σ → σ k = .live id ds →
      Logs (log ++ [(k, .data id d)]) (Function.update σ k (.live id (ds ++ [d])))
  | closed {log : List (K × Event I D)} {σ : K → State I D} {k : K} {id : I} {ds : List D} :
      Logs log σ → σ k = .live id ds →
      Logs (log ++ [(k, .closed id)]) (Function.update σ k (.ended id ds))

section Logs

variable [DecidableEq K] {log : List (K × Event I D)} {σ : K → State I D} {k : K}

@[simp] theorem of_nil : of k ([] : List (K × Event I D)) = [] := rfl

/-- An event belongs to its own key only. -/
@[simp] theorem of_concat (k k' : K) (e : Event I D) :
    of k (log ++ [(k', e)]) = of k log ++ if k' = k then [e] else [] := by
  by_cases h : k' = k <;> simp [of, h]

/-- A session's own events: opened, its data in order, then at most one close. -/
theorem Logs.of_eq (h : Logs log σ) (k : K) : of k log = (σ k).log := by
  induction h with
  | nil => rfl
  | @opened log σ k' id _ hidle _ ih =>
      rw [of_concat, ih]
      by_cases hk : k' = k
      · subst hk
        simp [hidle, State.log]
      · simp [hk, Function.update_of_ne (Ne.symm hk)]
  | @data log σ k' id ds d _ hlive ih =>
      rw [of_concat, ih]
      by_cases hk : k' = k
      · subst hk
        simp [hlive, State.log]
      · simp [hk, Function.update_of_ne (Ne.symm hk)]
  | @closed log σ k' id ds _ hlive ih =>
      rw [of_concat, ih]
      by_cases hk : k' = k
      · subst hk
        simp [hlive, State.log]
      · simp [hk, Function.update_of_ne (Ne.symm hk)]

variable [DecidableEq I]

omit [DecidableEq K] in
/-- The next event changes the owner by its own step. -/
@[simp] theorem owner_concat (e : K × Event I D) (id : I) :
    owner (log ++ [e]) id = ownerStep id (owner log id) e := by
  simp [owner]

/-- The owner of an identifier is the session that is live under it. -/
theorem Logs.owner_eq_some_iff (h : Logs log σ) {id : I} :
    owner log id = some k ↔ ∃ ds, σ k = .live id ds := by
  induction h generalizing k with
  | nil => simp [owner]
  | @opened log σ k' id' _ hidle hfresh ih =>
      rw [owner_concat]
      by_cases hid : id' = id
      · subst hid
        simp only [ownerStep, if_true, Option.some.injEq]
        constructor
        · rintro rfl
          exact ⟨[], by simp⟩
        · rintro ⟨ds, hds⟩
          by_contra hk
          rw [Function.update_of_ne (Ne.symm hk)] at hds
          exact hfresh k ds hds
      · simp only [ownerStep, hid, if_false, ih]
        by_cases hk : k = k'
        · subst hk
          simp [hidle, hid]
        · simp [Function.update_of_ne hk]
  | @data log σ k' id' ds' d _ hlive ih =>
      rw [owner_concat]
      simp only [ownerStep, ih]
      by_cases hk : k = k'
      · subst hk
        simp [hlive]
      · simp [Function.update_of_ne hk]
  | @closed log σ k' id' ds' _ hlive ih =>
      rw [owner_concat]
      by_cases hid : id' = id
      · subst hid
        simp only [ownerStep, if_true, reduceCtorEq, false_iff, not_exists]
        intro ds hds
        by_cases hk : k = k'
        · subst hk
          simp at hds
        · rw [Function.update_of_ne hk] at hds
          -- two sessions live under one identifier would both own it
          have h1 := ih.mpr ⟨ds, hds⟩
          have h2 := ih.mpr ⟨ds', hlive⟩
          rw [h1] at h2
          exact hk (Option.some.inj h2)
      · simp only [ownerStep, hid, if_false, ih]
        by_cases hk : k = k'
        · subst hk
          simp [hlive, hid]
        · simp [Function.update_of_ne hk]

omit [DecidableEq I] in
/-- A prefix of a well-behaved log is well behaved. -/
theorem Logs.of_append {pre post : List (K × Event I D)} (h : Logs (pre ++ post) σ) :
    ∃ σ', Logs pre σ' := by
  induction post using List.reverseRecOn generalizing σ with
  | nil => exact ⟨σ, by simpa using h⟩
  | append_singleton post e ih =>
      rw [← List.append_assoc] at h
      generalize hl : pre ++ post ++ [e] = l at h
      cases h with
      | nil => simp at hl
      | opened h' _ _ | data h' _ | closed h' _ =>
          obtain ⟨rfl, -⟩ := List.append_inj' hl rfl
          exact ih h'

/-- Every datum is reported under an identifier that its session owns at that moment. -/
theorem Logs.data_owner {pre post : List (K × Event I D)} {id : I} {d : D}
    (h : Logs (pre ++ (k, .data id d) :: post) σ) : owner pre id = some k := by
  have h' : Logs (pre ++ [(k, .data id d)] ++ post) σ := by simpa using h
  obtain ⟨σ', hpre⟩ := h'.of_append
  generalize hl : pre ++ [(k, Event.data id d)] = l at hpre
  cases hpre with
  | nil => simp at hl
  | opened _ _ _ | closed _ _ =>
      obtain ⟨-, he⟩ := List.append_inj' hl rfl
      simp at he
  | data hlog hlive =>
      obtain ⟨rfl, he⟩ := List.append_inj' hl rfl
      simp only [List.cons.injEq, Prod.mk.injEq, Event.data.injEq, and_true] at he
      obtain ⟨rfl, rfl, -⟩ := he
      exact hlog.owner_eq_some_iff.mpr ⟨_, hlive⟩

end Logs

end Session
