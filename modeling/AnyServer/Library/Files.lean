import AnyServer.Library.Keyed

/-!
# Files by Name

A directory as a list of named files in the order in which they were made. `create` is
`fopen` with mode `"w+"`: a new file, or the file of that name emptied where it stands;
`append` adds to a file; `total` is what all files contain, one after the other.

Nothing here keeps two files from having one name, so the lemmas that count contents ask
for distinct names, which both operations keep.

## Main results

* `append_last`: appending to the file made last.
* `length_total_update`: how changing one file changes the length of the total.
-/

namespace Files

variable {ν β : Type*} [DecidableEq ν]

/-- The names, in order of creation. -/
def names (fs : List (ν × List β)) : List ν :=
  fs.map Prod.fst

/-- The contents of all files, in order of creation. -/
def total (fs : List (ν × List β)) : List β :=
  fs.flatMap Prod.snd

/-- What the file of this name contains. -/
def content (fs : List (ν × List β)) (n : ν) : List β :=
  ((Keyed.find Prod.fst fs n).map Prod.snd).getD []

/-- Change what the file of this name contains. -/
def update (fs : List (ν × List β)) (n : ν) (g : List β → List β) : List (ν × List β) :=
  fs.map fun f => if f.1 = n then (f.1, g f.2) else f

/-- Add to the file of this name. -/
def append (fs : List (ν × List β)) (n : ν) (bs : List β) : List (ν × List β) :=
  update fs n (· ++ bs)

/-- Make a file, or empty the one there is. -/
def create (fs : List (ν × List β)) (n : ν) : List (ν × List β) :=
  if n ∈ names fs then update fs n fun _ => [] else fs ++ [(n, [])]

section

variable {fs gs : List (ν × List β)} {n : ν} {bs c : List β} {f : ν × List β}
  {g : List β → List β}

/-- Changing a file's content keeps all names. -/
@[simp] theorem names_update : names (update fs n g) = names fs := by
  simp only [names, update, List.map_map]
  refine List.map_congr_left fun f _ => ?_
  by_cases hf : f.1 = n <;> simp [hf]

/-- A file that is not there is not changed. -/
theorem update_of_notMem (h : n ∉ names fs) : update fs n g = fs := by
  rw [update]
  conv => rhs; rw [← List.map_id fs]
  refine List.map_congr_left fun f hf => ?_
  have hne : f.1 ≠ n := by
    rintro rfl
    exact h (List.mem_map_of_mem hf)
  simp [hne]

/-- A file of another name is not touched. -/
theorem mem_of_mem_update (hf : f.1 ≠ n) (h : f ∈ update fs n g) : f ∈ fs := by
  obtain ⟨e, he, rfl⟩ := List.mem_map.mp h
  by_cases hen : e.1 = n
  · simp [hen] at hf
  · simpa [hen] using he

/-- The file of the name is changed. -/
theorem exists_of_mem_update (hf : f.1 = n) (h : f ∈ update fs n g) :
    ∃ c, (n, c) ∈ fs ∧ f.2 = g c := by
  obtain ⟨e, he, rfl⟩ := List.mem_map.mp h
  by_cases hen : e.1 = n
  · exact ⟨e.2, hen ▸ he, by rw [if_pos hen]⟩
  · rw [if_neg hen] at hf
    exact absurd hf hen

/-- A file just made is empty. -/
theorem eq_nil_of_mem_create (hf : f.1 = n) (h : f ∈ create fs n) : f.2 = [] := by
  rw [create] at h
  split at h
  · obtain ⟨_, -, hnil⟩ := exists_of_mem_update hf h
    exact hnil
  · next hn =>
    rcases List.mem_append.mp h with h | h
    · exact absurd (hf ▸ List.mem_map_of_mem h) hn
    · rw [List.mem_singleton.mp h]

/-- Creating a file leaves the others. -/
theorem mem_of_mem_create (hf : f.1 ≠ n) (h : f ∈ create fs n) : f ∈ fs := by
  rw [create] at h
  split at h
  · exact mem_of_mem_update hf h
  · rcases List.mem_append.mp h with h | h
    · exact h
    · exact absurd (by rw [List.mem_singleton.mp h]) hf

/-- Names stay distinct. -/
theorem nodup_create (hnd : (names fs).Nodup) : (names (create fs n)).Nodup := by
  rw [create]
  split
  · rwa [names_update]
  · next hn =>
    rw [names, List.map_append]
    exact List.Nodup.append hnd (List.nodup_singleton _) (List.disjoint_singleton.mpr hn)

/-- A file that was created is there. -/
theorem mem_create_self : n ∈ names (create fs n) := by
  rw [create]
  split
  · rwa [names_update]
  · simp [names]

/-- With distinct names, what the file of a name contains is what its entry says. -/
theorem content_eq (hnd : (names fs).Nodup) (hf : f ∈ fs) : content fs f.1 = f.2 := by
  rw [content, Keyed.find_eq_some_of_mem hnd hf]
  rfl

/-- It is empty. -/
theorem content_create (hnd : (names fs).Nodup) : content (create fs n) n = [] := by
  have hmem : n ∈ names (create fs n) := mem_create_self
  obtain ⟨f, hf, hname⟩ := List.mem_map.mp hmem
  have hcontent := content_eq (nodup_create (n := n) hnd) hf
  rw [hname, eq_nil_of_mem_create hname hf] at hcontent
  exact hcontent

/-- Appending to the file made last. -/
theorem append_last (hn : n ∉ names gs) :
    append (gs ++ [(n, c)]) n bs = gs ++ [(n, c ++ bs)] := by
  have hsplit : append (gs ++ [(n, c)]) n bs = append gs n bs ++ [(n, c ++ bs)] := by
    simp [append, update]
  rw [hsplit, append, update_of_notMem hn]

omit [DecidableEq ν] in
@[simp] theorem total_cons : total (f :: fs) = f.2 ++ total fs := rfl

omit [DecidableEq ν] in
@[simp] theorem total_concat : total (gs ++ [(n, c)]) = total gs ++ c := by
  simp [total]

/-- **Counting contents**: with distinct names, changing one file changes the length of the
total by as much. -/
theorem length_total_update (hnd : (names fs).Nodup) (hc : (n, c) ∈ fs) :
    (total (update fs n g)).length + c.length = (total fs).length + (g c).length := by
  induction fs with
  | nil => simp at hc
  | cons e fs ih =>
      obtain ⟨he, hnd⟩ := List.nodup_cons.mp (by simpa only [names, List.map_cons] using hnd)
      have hhead : update (e :: fs) n g =
          (if e.1 = n then (e.1, g e.2) else e) :: update fs n g := rfl
      rw [hhead, total_cons, total_cons, List.length_append, List.length_append]
      rcases List.mem_cons.mp hc with rfl | hc
      · rw [update_of_notMem he]
        simp only [if_true]
        omega
      · have hne : e.1 ≠ n := fun h => he (List.mem_map.mpr ⟨(n, c), hc, h.symm⟩)
        have := ih hnd hc
        simp only [hne, if_false]
        omega

end

end Files
