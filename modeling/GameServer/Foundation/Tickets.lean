import Mathlib.Data.List.Perm.Basic

namespace Foundation.Tickets

-- What a word that counts from 1 has handed out by fetch_add, in any order.
structure Drawn (next : UInt64) (tickets : List UInt64) : Prop where
  counted : next.toNat = 1 + tickets.length
  distinct : tickets.Nodup
  range : ∀ ticket ∈ tickets, ticket ≠ 0 ∧ ticket < next

section Drawing
variable {next : UInt64} {tickets others : List UInt64}

theorem drawn_none : Drawn 1 [] := ⟨rfl,List.nodup_nil,fun _ member => (List.not_mem_nil member).elim⟩

theorem drawn_perm (drawn : Drawn next tickets) (same : tickets.Perm others) : Drawn next others :=
  ⟨same.length_eq ▸ drawn.counted,same.nodup_iff.mp drawn.distinct,
    fun ticket member => drawn.range ticket (same.mem_iff.mpr member)⟩

theorem drawn_fresh (drawn : Drawn next tickets) : next ≠ 0 ∧ next ∉ tickets := by
  refine ⟨?_,fun member => UInt64.lt_irrefl next (drawn.range next member).2⟩
  intro none_
  have counted := drawn.counted
  rw [none_] at counted
  exact absurd counted (by rw [UInt64.toNat_zero]; omega)

theorem drawn_draw (drawn : Drawn next tickets) (room : tickets.length + 2 < UInt64.size) : Drawn (next + 1) (next :: tickets) := by
  have counted := drawn.counted
  have bumped : (next + 1).toNat = next.toNat + 1 := by
    rw [UInt64.toNat_add,UInt64.toNat_one]
    exact Nat.mod_eq_of_lt (by rw [UInt64.size] at room; omega)
  obtain ⟨real,fresh⟩ := drawn_fresh drawn
  refine ⟨?_,List.nodup_cons.mpr ⟨fresh,drawn.distinct⟩,?_⟩
  · rw [bumped,List.length_cons]
    omega
  · intro ticket member
    rcases List.mem_cons.mp member with rfl | old
    · exact ⟨real,UInt64.lt_iff_toNat_lt.mpr (by omega)⟩
    · have below := UInt64.lt_iff_toNat_lt.mp (drawn.range ticket old).2
      exact ⟨(drawn.range ticket old).1,UInt64.lt_iff_toNat_lt.mpr (by omega)⟩

end Drawing

end Foundation.Tickets
