import Mathlib.Data.List.Infix
import Mathlib.InformationTheory.Coding.UniquelyDecodable

namespace Foundation

structure PrefixCode {α : Type*} (code : Set (List α)) : Prop where
  filled : [] ∉ code
  free : ∀ word ∈ code, ∀ other ∈ code, word <+: other → word = other

section Readings
variable {α β γ : Type*} {f : α → β} {g : α → γ} {words others : List α}

theorem prefix_told (told : ∀ word ∈ words, ∀ other ∈ others, f word = f other → g word = g other)
    (start : words.map f <+: others.map f) : words.map g <+: others.map g := by
  induction words generalizing others with
  | nil => exact List.nil_prefix
  | cons word rest ih =>
    cases others with
    | nil => simp at start
    | cons other later =>
      rw [List.map_cons,List.map_cons,List.cons_prefix_cons] at start
      obtain ⟨same,behind⟩ := start
      have heads := told word (by simp) other (by simp) same
      have tails := ih (fun w member o also => told w (by simp [member]) o (by simp [also])) behind
      exact List.cons_prefix_cons.mpr ⟨heads,tails⟩

theorem map_told (told : ∀ word ∈ words, ∀ other ∈ others, f word = f other → g word = g other)
    (same : words.map f = others.map f) : words.map g = others.map g := by
  have front := prefix_told told (by rw [same])
  apply front.eq_of_length
  simpa using congrArg List.length same

end Readings

namespace PrefixCode
variable {α : Type*} {code : Set (List α)} {words others : List (List α)}

theorem same_word (prefixCode : PrefixCode code) {word other more rest : List α} (one : word ∈ code) (two : other ∈ code)
    (same : word ++ more = other ++ rest) : word = other := by
  rcases List.append_eq_append_iff.mp same with ⟨between,longer,_⟩ | ⟨between,longer,_⟩
  · exact prefixCode.free word one other two ⟨between,longer.symm⟩
  · exact (prefixCode.free other two word one ⟨between,longer.symm⟩).symm

theorem flatten_start (prefixCode : PrefixCode code) (coded : ∀ word ∈ words, word ∈ code)
    (also : ∀ word ∈ others, word ∈ code) (start : words.flatten <+: others.flatten) : words <+: others := by
  induction words generalizing others with
  | nil => exact List.nil_prefix
  | cons word rest ih =>
    obtain ⟨more,whole⟩ := start
    rw [List.flatten_cons,List.append_assoc] at whole
    have one : word ∈ code := coded word (by simp)
    cases others with
    | nil =>
      obtain ⟨empty,_⟩ := List.append_eq_nil_iff.mp whole
      rw [empty] at one
      exact absurd one prefixCode.filled
    | cons other later =>
      rw [List.flatten_cons] at whole
      have same := prefixCode.same_word one (also other (by simp)) whole
      subst same
      have behind := List.append_cancel_left whole
      exact List.cons_prefix_cons.mpr ⟨rfl,ih (fun w member => coded w (by simp [member]))
        (fun w member => also w (by simp [member])) ⟨more,behind⟩⟩

theorem uniquelyDecodable (prefixCode : PrefixCode code) : InformationTheory.UniquelyDecodable code := by
  intro words others coded also same
  have front := prefixCode.flatten_start coded also (by rw [same])
  have back := prefixCode.flatten_start also coded (by rw [same])
  exact front.eq_of_length (Nat.le_antisymm front.length_le back.length_le)

end PrefixCode
end Foundation
