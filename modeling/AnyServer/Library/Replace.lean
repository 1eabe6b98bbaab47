import Mathlib.Data.List.Basic
import Mathlib.Data.List.Infix

/-!
# Replacing Occurrences

`Replaced pat new s s'` says that `s'` is `s` with all occurrences of `pat` that do not overlap,
taken from left to right, replaced by `new`, and everything else as it was and in order. It is a
statement about `s` alone: what is put in plays no part in where the next occurrence is.

## Main results

* `Replaced.unique`: there is at most one such list.
* `replaced_single`: one element replaced by nothing is filtered out.
-/

namespace Replace

variable {α : Type*} {pat new s s' s'' before after before' after' : List α}

/-- `before ++ (pat ++ after)` has no occurrence of `pat` that starts inside `before`. -/
def IsFirst (pat before after : List α) : Prop :=
  ∀ i < before.length, ¬ pat <+: (before ++ (pat ++ after)).drop i

/-- The result of replacing every occurrence of `pat` in a list, from the left, by `new`. -/
inductive Replaced (pat new : List α) : List α → List α → Prop
  | done {s : List α} : ¬ pat <:+: s → Replaced pat new s s
  | next {before after after' : List α} : IsFirst pat before after → Replaced pat new after after' →
      Replaced pat new (before ++ (pat ++ after)) (before ++ (new ++ after'))

/-- A pattern occurs when it stands at some position. -/
theorem infix_iff_exists_drop : pat <:+: s ↔ ∃ i ≤ s.length, pat <+: s.drop i := by
  rw [List.infix_iff_prefix_suffix]
  constructor
  · rintro ⟨t, hpre, hsuf⟩
    exact ⟨s.length - t.length, Nat.sub_le _ _, by rwa [← List.suffix_iff_eq_drop.mp hsuf]⟩
  · rintro ⟨i, -, hpre⟩
    exact ⟨s.drop i, hpre, List.drop_suffix i s⟩

/-- The occurrence at the end of `before`. -/
theorem prefix_drop_length : pat <+: (before ++ (pat ++ after)).drop before.length := by
  rw [List.drop_left]
  exact List.prefix_append pat after

/-- There is one first occurrence. -/
theorem IsFirst.unique (h : IsFirst pat before after) (h' : IsFirst pat before' after')
    (heq : before ++ (pat ++ after) = before' ++ (pat ++ after')) :
    before = before' ∧ after = after' := by
  have hlen : before.length = before'.length := by
    rcases Nat.lt_trichotomy before.length before'.length with hlt | hlen | hlt
    · exact absurd (heq ▸ prefix_drop_length) (h' _ hlt)
    · exact hlen
    · exact absurd (heq ▸ prefix_drop_length) (h _ hlt)
  obtain ⟨rfl, hrest⟩ := List.append_inj heq hlen
  exact ⟨rfl, List.append_cancel_left hrest⟩

/-- **What is left is determined.** -/
theorem Replaced.unique (h : Replaced pat new s s') (h' : Replaced pat new s s'') : s' = s'' := by
  induction h generalizing s'' with
  | @done s hnone =>
      cases h' with
      | done _ => rfl
      | @next before after after' _ _ => exact absurd ⟨before, after, by simp⟩ hnone
  | @next before after after' hfirst _ ih =>
      generalize hs : before ++ (pat ++ after) = s at h'
      cases h' with
      | done hnone => exact absurd ⟨before, after, by simp [← hs]⟩ hnone
      | next hfirst' hrest' =>
          obtain ⟨rfl, rfl⟩ := hfirst.unique hfirst' hs
          rw [ih hrest']

variable [DecidableEq α] {x : α}

/-- Removing what is not there changes nothing. -/
theorem filter_bne_eq_self (h : x ∉ s) : s.filter (· != x) = s := by
  refine List.filter_eq_self.mpr fun y hy => ?_
  rw [bne_iff_ne]
  rintro rfl
  exact h hy

omit [DecidableEq α] in
/-- Before the first occurrence of an element it does not occur. -/
theorem isFirst_single (h : x ∉ before) : IsFirst [x] before after := by
  intro i hi hpre
  rw [List.drop_append_of_le_length hi.le, List.drop_eq_getElem_cons hi, List.cons_append,
    List.singleton_prefix_cons_iff] at hpre
  exact h (hpre ▸ List.getElem_mem hi)

/-- One element replaced by nothing. -/
theorem replaced_single (x : α) (s : List α) : Replaced [x] [] s (s.filter (· != x)) := by
  induction hn : s.length using Nat.strong_induction_on generalizing s with
  | _ n ih =>
      by_cases hx : x ∈ s
      · obtain ⟨before, after, rfl, hbefore⟩ := List.eq_append_cons_of_mem hx
        have hfilter : (before ++ x :: after).filter (· != x) =
            before ++ ([] ++ after.filter (· != x)) := by
          rw [List.filter_append, filter_bne_eq_self hbefore,
            List.filter_cons_of_neg (by simp), List.nil_append]
        rw [hfilter]
        refine .next (isFirst_single hbefore) (ih _ ?_ after rfl)
        rw [← hn, List.length_append, List.length_cons]
        omega
      · rw [filter_bne_eq_self hx]
        exact .done fun hfound => hx (hfound.subset (List.mem_singleton_self x))

end Replace
