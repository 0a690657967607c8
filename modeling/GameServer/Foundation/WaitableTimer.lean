import Mathlib.Data.List.Perm.Basic

namespace Foundation.WaitableTimer
variable {τ : Type*}

inductive Status where
  | waiting | expired | aborted
deriving DecidableEq, Repr

-- One asynchronous wait on a timer, up to the run of its completion handler. A
-- wait that has expired or was aborted has its completion queued.
structure Wait (τ : Type*) where
  tag : τ
  status : Status
deriving DecidableEq, Repr

def Wait.abort (w : Wait τ) : Wait τ := if w.status = .waiting then { w with status := .aborted } else w

-- Cancelling aborts only what has not been queued yet.
def cancel (waits : List (Wait τ)) : List (Wait τ) := waits.map Wait.abort

-- Setting a new expiry cancels; then one more wait begins.
def renew (waits : List (Wait τ)) (tag : τ) : List (Wait τ) := cancel waits ++ [⟨tag,.waiting⟩]

def expire (waits : List (Wait τ)) (place : Nat) : Option (List (Wait τ)) :=
  match waits[place]? with
  | some w => if w.status = .waiting then some (waits.set place { w with status := .expired }) else none
  | none => none

-- The queued completion that is run, and the waits left.
def complete (waits : List (Wait τ)) (place : Nat) : Option (Wait τ × List (Wait τ)) :=
  match waits[place]? with
  | some w => if w.status = .waiting then none else some (w,waits.eraseIdx place)
  | none => none

def Wait.live (w : Wait τ) : Bool := w.status ≠ .aborted

def Wait.queued (w : Wait τ) : Bool := w.status = .expired

section Waits
variable {waits left : List (Wait τ)} {place : Nat} {w : Wait τ}

theorem abort_live (w : Wait τ) : w.abort.live = w.queued := by
  obtain ⟨tag,status⟩ := w
  cases status <;> rfl

theorem abort_tag (w : Wait τ) : w.abort.tag = w.tag := by
  unfold Wait.abort
  split <;> rfl

theorem queued_live (queued : w.queued = true) : w.live = true := by
  obtain ⟨tag,status⟩ := w
  cases status <;> first | rfl | cases queued

theorem cancel_live (waits : List (Wait τ)) : (cancel waits).countP Wait.live = waits.countP Wait.queued := by
  rw [cancel,List.countP_map]
  congr 1
  funext w
  exact abort_live w

theorem renew_live (waits : List (Wait τ)) (tag : τ) : (renew waits tag).countP Wait.live = waits.countP Wait.queued + 1 := by
  rw [renew,List.countP_append,cancel_live]
  rfl

theorem mem_cancel (member : w ∈ cancel waits) (live : w.live = true) : ∃ old ∈ waits, old.queued = true ∧ old.tag = w.tag := by
  obtain ⟨old,inside,rfl⟩ := List.mem_map.mp member
  exact ⟨old,inside,(abort_live old).symm.trans live,(abort_tag old).symm⟩

theorem expire_eq_some : expire waits place = some left ↔
    ∃ tag, waits[place]? = some ⟨tag,.waiting⟩ ∧ left = waits.set place ⟨tag,.expired⟩ := by
  unfold expire
  cases found : waits[place]? with
  | none => exact iff_of_false nofun (by rintro ⟨tag,none_,-⟩; cases none_)
  | some w =>
    obtain ⟨tag,status⟩ := w
    cases status with
    | waiting => simp [eq_comm]
    | expired => simp
    | aborted => simp

theorem complete_eq_some : complete waits place = some (w,left) ↔
    waits[place]? = some w ∧ w.status ≠ .waiting ∧ left = waits.eraseIdx place := by
  unfold complete
  cases found : waits[place]? with
  | none => exact iff_of_false nofun (fun taken => nomatch taken.1)
  | some other =>
    dsimp only
    split
    · rename_i waiting
      refine iff_of_false nofun ?_
      rintro ⟨same,done_,-⟩
      cases same
      exact done_ waiting
    · rename_i done_
      refine ⟨?_,?_⟩
      · intro taken
        cases taken
        exact ⟨rfl,done_,rfl⟩
      · rintro ⟨same,-,rfl⟩
        cases same
        rfl

theorem expire_live (expired : expire waits place = some left) : left.countP Wait.live = waits.countP Wait.live := by
  obtain ⟨tag,found,rfl⟩ := expire_eq_some.mp expired
  obtain ⟨inside,here⟩ := List.getElem?_eq_some_iff.mp found
  have one : 0 < waits.countP Wait.live := List.countP_pos_iff.mpr ⟨_,List.mem_of_getElem? found,rfl⟩
  rw [List.countP_set inside,here]
  change waits.countP Wait.live - 1 + 1 = _
  omega

theorem complete_live (completed : complete waits place = some (w,left)) :
    left.countP Wait.live + (if w.live then 1 else 0) = waits.countP Wait.live := by
  obtain ⟨found,-,rfl⟩ := complete_eq_some.mp completed
  obtain ⟨inside,rfl⟩ := List.getElem?_eq_some_iff.mp found
  rw [← (List.getElem_cons_eraseIdx_perm inside).countP_eq,List.countP_cons]

end Waits
end Foundation.WaitableTimer
