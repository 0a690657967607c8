import Mathlib.Data.List.Nodup

namespace Foundation

-- Values under distinct keys, oldest first, and never more than the capacity.
structure BoundedSet (κ ν : Type*) where
  entries : List (κ × ν)
  capacity : Nat
  distinct : (entries.map Prod.fst).Nodup
  bounded : entries.length ≤ capacity

namespace BoundedSet
variable {κ ν : Type*}

inductive Verdict where
  | done | present | full | absent | tooSmall
deriving DecidableEq, Repr

def empty (capacity : Nat) : BoundedSet κ ν := ⟨[],capacity,List.nodup_nil,Nat.zero_le _⟩

def keys (s : BoundedSet κ ν) : List κ := s.entries.map Prod.fst

def values (s : BoundedSet κ ν) : List ν := s.entries.map Prod.snd

theorem insert_distinct {s : BoundedSet κ ν} {key : κ} (value : ν) (fresh : key ∉ s.keys) :
    ((s.entries ++ [(key,value)]).map Prod.fst).Nodup := by
  rw [List.map_append,List.map_singleton]
  exact List.Nodup.append s.distinct (List.nodup_singleton key) (List.disjoint_singleton.mpr fresh)

theorem insert_bounded {s : BoundedSet κ ν} (key : κ) (value : ν) (room : s.entries.length < s.capacity) :
    (s.entries ++ [(key,value)]).length ≤ s.capacity := by
  rw [List.length_append,List.length_singleton]
  exact room

def resize (s : BoundedSet κ ν) (capacity : Nat) : Verdict × BoundedSet κ ν :=
  if holds : s.entries.length ≤ capacity then (.done,⟨s.entries,capacity,s.distinct,holds⟩) else (.tooSmall,s)

def clear (s : BoundedSet κ ν) : BoundedSet κ ν := empty s.capacity

theorem resize_refused {s : BoundedSet κ ν} {capacity : Nat} (refused : (s.resize capacity).1 ≠ .done) :
    (s.resize capacity).2 = s := by
  unfold resize at refused ⊢
  split
  · rename_i holds
    rw [dif_pos holds] at refused
    exact (refused rfl).elim
  · rfl

variable [DecidableEq κ]

def insert (s : BoundedSet κ ν) (key : κ) (value : ν) : Verdict × BoundedSet κ ν :=
  if held : key ∈ s.keys then (.present,s)
  else if room : s.entries.length < s.capacity then
    (.done,⟨s.entries ++ [(key,value)],s.capacity,insert_distinct value held,insert_bounded key value room⟩)
  else (.full,s)

def erase (s : BoundedSet κ ν) (key : κ) : Verdict × BoundedSet κ ν :=
  if key ∈ s.keys then
    (.done,⟨s.entries.filter fun entry => entry.1 ≠ key,s.capacity,
      List.Nodup.sublist (List.filter_sublist.map Prod.fst) s.distinct,Nat.le_trans (List.length_filter_le _ _) s.bounded⟩)
  else (.absent,s)

def contains (s : BoundedSet κ ν) (key : κ) : Bool := key ∈ s.keys

def find (s : BoundedSet κ ν) (key : κ) : Option ν := (s.entries.find? fun entry => entry.1 = key).map Prod.snd

theorem insert_refused {s : BoundedSet κ ν} {key : κ} {value : ν} (refused : (s.insert key value).1 ≠ .done) :
    (s.insert key value).2 = s := by
  unfold insert at refused ⊢
  split
  · rfl
  · rename_i fresh
    rw [dif_neg fresh] at refused
    split
    · rename_i room
      rw [dif_pos room] at refused
      exact (refused rfl).elim
    · rfl

theorem erase_refused {s : BoundedSet κ ν} {key : κ} (refused : (s.erase key).1 ≠ .done) : (s.erase key).2 = s := by
  unfold erase at refused ⊢
  split
  · rename_i held
    rw [if_pos held] at refused
    exact (refused rfl).elim
  · rfl

theorem eraseP_filter {entries : List (κ × ν)} {key : κ} {hit : κ × ν → Bool} (distinct : (entries.map Prod.fst).Nodup)
    (hits : ∀ entry ∈ entries, hit entry = decide (entry.1 = key)) :
    entries.eraseP hit = entries.filter fun entry => entry.1 ≠ key := by
  induction entries with
  | nil => rfl
  | cons entry rest ih =>
    obtain ⟨fresh,distinct⟩ := List.nodup_cons.mp distinct
    obtain ⟨first,hits⟩ := List.forall_mem_cons.mp hits
    by_cases here : entry.1 = key
    · have others : rest.filter (fun entry => entry.1 ≠ key) = rest := by
        rw [List.filter_eq_self]
        intro other member
        rw [decide_eq_true_eq]
        intro again
        exact fresh (List.mem_map.mpr ⟨other,member,again.trans here.symm⟩)
      rw [List.eraseP_cons_of_pos (by simpa [first] using here),List.filter_cons_of_neg (by simpa using here),others]
    · rw [List.eraseP_cons_of_neg (by simpa [first] using here),List.filter_cons_of_pos (by simpa using here),ih distinct hits]

end BoundedSet
end Foundation
