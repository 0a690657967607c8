import Mathlib.Data.List.Nodup

namespace Foundation.FirstCome
variable {α : Type*} [DecidableEq α] {capacity : Nat} {guests : List α}

-- First come, first served: nobody twice, and nobody once it is full.
def accept (capacity : Nat) (guests : List α) (asker : α) : List α :=
  if asker ∉ guests ∧ guests.length < capacity then guests ++ [asker] else guests

theorem eraseDups_nodup (once : guests.Nodup) : guests.eraseDups = guests := by
  induction guests with
  | nil => rfl
  | cons guest rest ih =>
    obtain ⟨fresh,once⟩ := List.nodup_cons.mp once
    have others : (rest.filter fun other => !other == guest) = rest := by
      rw [List.filter_eq_self]
      intro other member
      have different : other ≠ guest := by rintro rfl; exact fresh member
      simpa using different
    rw [List.eraseDups_cons,others,ih once]

theorem eraseDups_guests (once : guests.Nodup) (askers : List α) :
    (guests ++ askers).eraseDups = guests ++ (askers.removeAll guests).eraseDups := by
  rw [List.eraseDups_append,eraseDups_nodup once]

theorem accept_all (once : guests.Nodup) (few : guests.length ≤ capacity) (askers : List α) :
    askers.foldl (accept capacity) guests = (guests ++ askers).eraseDups.take capacity := by
  induction askers generalizing guests with
  | nil => rw [List.foldl_nil,List.append_nil,eraseDups_nodup once,List.take_of_length_le few]
  | cons asker rest ih =>
    rw [List.foldl_cons,accept]
    split
    · rename_i admitted
      have once' : (guests ++ [asker]).Nodup := once.append (List.nodup_singleton asker) (by simpa using admitted.1)
      have few' : (guests ++ [asker]).length ≤ capacity := by rw [List.length_append]; exact admitted.2
      rw [ih once' few',List.append_assoc,List.singleton_append]
    · rename_i refused
      rw [ih once few,eraseDups_guests once,eraseDups_guests once]
      by_cases seated : asker ∈ guests
      · have same : (asker :: rest).removeAll guests = rest.removeAll guests := List.filter_cons_of_neg (by simpa using seated)
        rw [same]
      · have full : guests.length = capacity := by
          by_contra free
          exact refused ⟨seated,by omega⟩
        rw [List.take_append_of_le_length (by omega),List.take_append_of_le_length (by omega)]

end Foundation.FirstCome
