import AnyServer.Library.Keyed

/-!
# Maps with Two Keys

A finite set of elements in order of insertion, of which no two agree in either of two keys.
Each key by itself finds an element, and the element found is the same.

## Main results

* `TwoKeys.find_fst`, `TwoKeys.find_snd`: a search by either key finds the element.
* `TwoKeys.remove_snd`: to remove an element by its second key is to erase it.
-/

/-- A collection with at most one entry for each value of two keys. -/
structure TwoKeys {α κ γ : Type*} (f : α → κ) (g : α → γ) where
  entries : List α
  nodup_fst : (entries.map f).Nodup
  nodup_snd : (entries.map g).Nodup

namespace TwoKeys

variable {α κ γ : Type*} {f : α → κ} {g : α → γ} {m : TwoKeys f g} {a : α}

/-- A collection without entries. -/
def empty : TwoKeys f g :=
  ⟨[], .nil, .nil⟩

/-- A new element comes last. -/
def insert (m : TwoKeys f g) (a : α) (hf : ∀ b ∈ m.entries, f b ≠ f a)
    (hg : ∀ b ∈ m.entries, g b ≠ g a) : TwoKeys f g where
  entries := m.entries ++ [a]
  nodup_fst := Keyed.nodup_map_concat m.nodup_fst (by simpa using hf)
  nodup_snd := Keyed.nodup_map_concat m.nodup_snd (by simpa using hg)

/-- The others stay in order. -/
def erase [DecidableEq α] (m : TwoKeys f g) (a : α) : TwoKeys f g where
  entries := m.entries.erase a
  nodup_fst := m.nodup_fst.sublist (List.erase_sublist.map f)
  nodup_snd := m.nodup_snd.sublist (List.erase_sublist.map g)

/-- An entry is found by its first key. -/
theorem find_fst [DecidableEq κ] (ha : a ∈ m.entries) :
    Keyed.find f m.entries (f a) = some a :=
  Keyed.find_eq_some_of_mem m.nodup_fst ha

/-- It is found by its second key. -/
theorem find_snd [DecidableEq γ] (ha : a ∈ m.entries) :
    Keyed.find g m.entries (g a) = some a :=
  Keyed.find_eq_some_of_mem m.nodup_snd ha

/-- Removing by the second key removes that entry. -/
theorem remove_snd [DecidableEq α] [DecidableEq γ] (ha : a ∈ m.entries) :
    Keyed.remove g m.entries (g a) = (m.erase a).entries :=
  Keyed.remove_eq_erase m.nodup_snd ha

end TwoKeys
