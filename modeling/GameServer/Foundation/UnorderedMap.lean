import Mathlib.Data.List.AList

namespace Foundation

-- A map with unique keys whose entry order carries no meaning. Everything a
-- caller may observe goes through `lookup`, membership and the set of keys.
abbrev UnorderedMap (κ ν : Type*) := AList (fun _ : κ => ν)

namespace UnorderedMap
variable {κ ν : Type*} [DecidableEq κ]

@[grind =]
theorem lookup_insert_eq (m : UnorderedMap κ ν) (key other : κ) (value : ν) :
    (AList.insert key value m).lookup other = if other = key then some value else m.lookup other := by
  split
  · rename_i same; subst same; exact AList.lookup_insert m
  · rename_i different; exact AList.lookup_insert_ne different

@[grind =]
theorem lookup_erase_eq (m : UnorderedMap κ ν) (key other : κ) :
    (AList.erase key m).lookup other = if other = key then none else m.lookup other := by
  split
  · rename_i same; subst same; exact AList.lookup_erase _ m
  · rename_i different; exact AList.lookup_erase_ne different

@[grind =]
theorem mem_iff_lookup {m : UnorderedMap κ ν} {key : κ} : key ∈ m ↔ ∃ value, m.lookup key = some value := by
  rw [← AList.lookup_isSome,Option.isSome_iff_exists]

theorem mem_of_lookup {m : UnorderedMap κ ν} {key : κ} {value : ν} (found : m.lookup key = some value) :
    key ∈ m := mem_iff_lookup.mpr ⟨value,found⟩

def insertNew (m : UnorderedMap κ ν) (key : κ) (value : ν) : UnorderedMap κ ν :=
  if key ∈ m then m else AList.insert key value m

theorem lookup_insertNew (m : UnorderedMap κ ν) (key other : κ) (value : ν) :
    (m.insertNew key value).lookup other =
      if other = key then some ((m.lookup key).getD value) else m.lookup other := by
  unfold insertNew
  by_cases present : key ∈ m
  · obtain ⟨old,found⟩ := mem_iff_lookup.mp present
    by_cases same : other = key
    · subst same; simp [present,found]
    · simp [present,same]
  · have absent : m.lookup key = none := AList.lookup_eq_none.mpr present
    simp [present,absent,lookup_insert_eq]

theorem mem_insertNew {m : UnorderedMap κ ν} {key other : κ} {value : ν} :
    other ∈ m.insertNew key value ↔ other = key ∨ other ∈ m := by
  unfold insertNew
  split
  · rename_i present
    constructor
    · exact Or.inr
    · rintro (rfl | member)
      · exact present
      · exact member
  · exact AList.mem_insert m

def modify (m : UnorderedMap κ ν) (key : κ) (change : ν → ν) : UnorderedMap κ ν :=
  match m.lookup key with
  | none => m
  | some value => AList.replace key (change value) m

theorem mem_modify {m : UnorderedMap κ ν} {key other : κ} {change : ν → ν} :
    other ∈ m.modify key change ↔ other ∈ m := by
  unfold modify
  split
  · exact Iff.rfl
  · exact AList.mem_replace

theorem dlookup_kreplace (key other : κ) (value : ν) (entries : List (Σ _ : κ, ν)) :
    (List.kreplace key value entries).dlookup other =
      if other = key then (entries.dlookup key).map (fun _ => value) else entries.dlookup other := by
  induction entries with
  | nil => simp [List.kreplace]
  | cons head rest ih =>
    obtain ⟨first,old⟩ := head
    have skip (tail : List (Σ _ : κ, ν)) (v : ν) {k : κ} (different : k ≠ first) :
        List.dlookup k (Sigma.mk first v :: tail) = tail.dlookup k :=
      List.dlookup_cons_ne tail (Sigma.mk first v) different
    rw [List.kreplace,List.lookmap_cons,← List.kreplace]
    by_cases hit : key = first
    · subst hit
      by_cases same : other = key
      · subst same; simp
      · simp [same,skip _ _ same]
    · by_cases same : other = first
      · subst same; simp [hit,Ne.symm hit]
      · simp [hit,skip _ _ same,skip _ _ hit,ih]

theorem lookup_modify (m : UnorderedMap κ ν) (key other : κ) (change : ν → ν) :
    (m.modify key change).lookup other =
      if other = key then (m.lookup key).map change else m.lookup other := by
  unfold modify
  split
  · rename_i absent
    split
    · rename_i same; subst same; rw [absent]; rfl
    · rfl
  · rename_i value found
    have replaced := dlookup_kreplace key other (change value) m.entries
    have entry : m.entries.dlookup key = some value := found
    rw [entry] at replaced
    rw [found]
    exact replaced

end UnorderedMap
end Foundation
