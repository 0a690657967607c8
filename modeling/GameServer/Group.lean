import Mathlib.Data.List.Nodup
import GameServer.MessageProto

namespace GameServer

inductive GroupResult where
  | ok | full | alreadyInGroup | notInGroup | invalidCapacity
deriving DecidableEq, Repr

structure Group (μ : Type*) where
  groupId : GroupId
  capacity : Nat
  members : List μ

namespace Group
variable {μ κ : Type*} [DecidableEq κ] (key : μ → κ)

def getMemberCount (g : Group μ) : Nat := g.members.length

def setCapacity (g : Group μ) (newCapacity : Nat) : GroupResult × Group μ :=
  if newCapacity < g.members.length then (.invalidCapacity,g) else (.ok,{ g with capacity := newCapacity })

def findMember (g : Group μ) (memberKey : κ) : Option μ := g.members.find? fun member => key member = memberKey

def contains (g : Group μ) (memberKey : κ) : Bool := (g.findMember key memberKey).isSome

def addMember (g : Group μ) (member : μ) : GroupResult × Group μ :=
  if g.contains key (key member) then (.alreadyInGroup,g)
  else if g.members.length ≥ g.capacity then (.full,g)
  else (.ok,{ g with members := g.members ++ [member] })

def removeMember (g : Group μ) (memberKey : κ) : GroupResult × Group μ :=
  if g.contains key memberKey then (.ok,{ g with members := g.members.eraseP fun member => key member = memberKey })
  else (.notInGroup,g)

def clearMembers (g : Group μ) : Group μ := { g with members := [] }

def Keyed (g : Group μ) : Prop := (g.members.map key).Nodup

variable {key}

theorem contains_iff {g : Group μ} {memberKey : κ} : g.contains key memberKey = true ↔ memberKey ∈ g.members.map key := by
  rw [contains,findMember,List.find?_isSome]
  simp

theorem setCapacity_members (g : Group μ) (newCapacity : Nat) : (g.setCapacity newCapacity).2.members = g.members := by
  unfold setCapacity
  split <;> rfl

variable (key) in
theorem addMember_members (g : Group μ) (member : μ) : (g.addMember key member).2.members = g.members ∨
    (key member ∉ g.members.map key ∧ (g.addMember key member).2.members = g.members ++ [member]) := by
  unfold addMember
  split
  · exact Or.inl rfl
  · rename_i absent
    split
    · exact Or.inl rfl
    · exact Or.inr ⟨fun present => absent (contains_iff.mpr present),rfl⟩

theorem removeMember_members (g : Group μ) (memberKey : κ) :
    (g.removeMember key memberKey).2.members = g.members.eraseP fun member => key member = memberKey := by
  unfold removeMember
  split
  · rfl
  · rename_i absent
    rw [List.eraseP_of_forall_not]
    intro member inside same
    exact absent (contains_iff.mpr (List.mem_map.mpr ⟨member,inside,by simpa using same⟩))

end Group
end GameServer
