import Mathlib.Data.List.Nodup
import Mathlib.Data.List.Sort

namespace Foundation

structure Numbering (ι π : Type*) where
  stream : π → ι
  place : π → Nat

namespace Numbering
variable {ι π σ : Type*} [DecidableEq ι] (N : Numbering ι π)

def gathered (received : List π) (id : ι) : List π :=
  (received.filter fun piece => N.stream piece = id).mergeSort fun one other => N.place one ≤ N.place other

def InOrder (pieces : List π) : Prop := pieces.Pairwise fun one other => N.place one < N.place other

variable {N} {received sent pieces : List π} {id : ι}

omit [DecidableEq ι] in
theorem same_piece (ordered : N.InOrder pieces) {one other : π} (first : one ∈ pieces) (second : other ∈ pieces)
    (same : N.place one = N.place other) : one = other := by
  have places : (pieces.map N.place).Nodup := List.pairwise_map.mpr (ordered.imp Nat.ne_of_lt)
  exact List.inj_on_of_nodup_map places first second same

theorem gathered_sent (perm : received.Perm sent) (ordered : N.InOrder (sent.filter fun piece => N.stream piece = id)) :
    N.gathered received id = sent.filter fun piece => N.stream piece = id := by
  have pieces : (N.gathered received id).Perm (sent.filter fun piece => N.stream piece = id) :=
    (List.mergeSort_perm _ _).trans (perm.filter _)
  have sorted : (N.gathered received id).Pairwise fun one other => N.place one ≤ N.place other := by
    have trans (a b c : π) : decide (N.place a ≤ N.place b) = true → decide (N.place b ≤ N.place c) = true →
        decide (N.place a ≤ N.place c) = true := by
      intro first second
      rw [decide_eq_true_eq] at first second ⊢
      exact Nat.le_trans first second
    have total (a b : π) : (decide (N.place a ≤ N.place b) || decide (N.place b ≤ N.place a)) = true := by
      rw [Bool.or_eq_true,decide_eq_true_eq,decide_eq_true_eq]
      exact Nat.le_total _ _
    exact (List.pairwise_mergeSort trans total _).imp fun below => of_decide_eq_true below
  refine pieces.eq_of_pairwise ?_ sorted (ordered.imp Nat.le_of_lt)
  intro one other first second above below
  exact same_piece ordered (pieces.subset first) second (Nat.le_antisymm above below)

section Streams
variable {key : σ → ι} {cut : σ → List π} {streams : List σ}

theorem filter_absent (labelled : ∀ s ∈ streams, ∀ piece ∈ cut s, N.stream piece = key s) (absent : id ∉ streams.map key) :
    (streams.flatMap cut).filter (fun piece => N.stream piece = id) = [] := by
  rw [List.filter_eq_nil_iff]
  intro piece member
  obtain ⟨s,listed,inside⟩ := List.mem_flatMap.mp member
  rw [decide_eq_true_eq,labelled s listed piece inside]
  intro same
  exact absent (same ▸ List.mem_map_of_mem listed)

theorem filter_own {s : σ} (labelled : ∀ piece ∈ cut s, N.stream piece = key s) :
    (cut s).filter (fun piece => N.stream piece = key s) = cut s := by
  rw [List.filter_eq_self]
  intro piece inside
  exact decide_eq_true (labelled piece inside)

theorem filter_streams (labelled : ∀ s ∈ streams, ∀ piece ∈ cut s, N.stream piece = key s)
    (distinct : (streams.map key).Nodup) {s : σ} (member : s ∈ streams) :
    (streams.flatMap cut).filter (fun piece => N.stream piece = key s) = cut s := by
  induction streams with
  | nil => cases member
  | cons head rest ih =>
    have own := labelled head (List.mem_cons_self ..)
    have others : ∀ s ∈ rest, ∀ piece ∈ cut s, N.stream piece = key s := fun s inside => labelled s (List.mem_cons_of_mem _ inside)
    rw [List.map_cons,List.nodup_cons] at distinct
    rw [List.flatMap_cons,List.filter_append]
    rcases List.mem_cons.mp member with rfl | later
    · rw [filter_own own,filter_absent others distinct.1,List.append_nil]
    · have other : key head ≠ key s := fun same => distinct.1 (same ▸ List.mem_map_of_mem later)
      have none_ : (cut head).filter (fun piece => N.stream piece = key s) = [] := by
        rw [List.filter_eq_nil_iff]
        intro piece inside
        rw [decide_eq_true_eq,own piece inside]
        exact other
      rw [none_,List.nil_append,ih others distinct.2 later]

theorem gathered_streams (labelled : ∀ s ∈ streams, ∀ piece ∈ cut s, N.stream piece = key s)
    (distinct : (streams.map key).Nodup) (ordered : ∀ s ∈ streams, N.InOrder (cut s))
    (perm : received.Perm (streams.flatMap cut)) {s : σ} (member : s ∈ streams) : N.gathered received (key s) = cut s := by
  have own := filter_streams labelled distinct member
  rw [gathered_sent perm,own]
  rw [own]
  exact ordered s member

end Streams
end Numbering
end Foundation
