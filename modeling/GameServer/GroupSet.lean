import Mathlib.Data.List.Find
import GameServer.Foundation.BoundedSet
import GameServer.Foundation.Machine
import GameServer.Group

namespace GameServer.Group
open Foundation

inductive Call (μ κ : Type*) where
  | addMember (member : μ)
  | removeMember (memberKey : κ)
  | setCapacity (newCapacity : Nat)
  | clearMembers
  | contains (memberKey : κ)
  | findMember (memberKey : κ)

inductive Reply (μ : Type*) where
  | result (result : GroupResult)
  | none_
  | contained (held : Bool)
  | found (member : Option μ)

-- A call on the group, or a change of what the extractor reads from members.
inductive Event (μ κ : Type*) where
  | call (call : Call μ κ)
  | rekey (newKey : μ → κ)

structure Held (μ κ : Type*) where
  key : μ → κ
  group : Group μ

def Reply.refused {μ : Type*} : Reply μ → Prop
  | .result answer => answer ≠ .ok
  | _ => False

-- The set a group stands for, each member under the key it was added with.
structure Reference (μ κ : Type*) where
  key : μ → κ
  set : BoundedSet κ μ

variable {μ κ : Type*} [DecidableEq κ]

def call (key : μ → κ) (g : Group μ) : Call μ κ → Reply μ × Group μ
  | .addMember member => let out := g.addMember key member; (.result out.1,out.2)
  | .removeMember memberKey => let out := g.removeMember key memberKey; (.result out.1,out.2)
  | .setCapacity newCapacity => let out := g.setCapacity newCapacity; (.result out.1,out.2)
  | .clearMembers => (.none_,g.clearMembers)
  | .contains memberKey => (.contained (g.contains key memberKey),g)
  | .findMember memberKey => (.found (g.findMember key memberKey),g)

-- A call answers and shows the members it leaves. The keys of held members stay.
def step (h : Held μ κ) : Event μ κ → Option (Held μ κ × List (Reply μ × List μ))
  | .call c =>
    let out := h.group.call h.key c
    some ({ h with group := out.2 },[(out.1,out.2.members)])
  | .rekey newKey =>
    if ∀ member ∈ h.group.members, newKey member = h.key member then some ({ h with key := newKey },[]) else none

namespace Reference

def result : BoundedSet.Verdict → GroupResult
  | .done => .ok
  | .present => .alreadyInGroup
  | .full => .full
  | .absent => .notInGroup
  | .tooSmall => .invalidCapacity

def call (key : μ → κ) (s : BoundedSet κ μ) : Call μ κ → Reply μ × BoundedSet κ μ
  | .addMember member => let out := s.insert (key member) member; (.result (result out.1),out.2)
  | .removeMember memberKey => let out := s.erase memberKey; (.result (result out.1),out.2)
  | .setCapacity newCapacity => let out := s.resize newCapacity; (.result (result out.1),out.2)
  | .clearMembers => (.none_,s.clear)
  | .contains memberKey => (.contained (s.contains memberKey),s)
  | .findMember memberKey => (.found (s.find memberKey),s)

def step (r : Reference μ κ) : Event μ κ → Option (Reference μ κ × List (Reply μ × List μ))
  | .call c =>
    let out := call r.key r.set c
    some ({ r with set := out.2 },[(out.1,out.2.values)])
  | .rekey newKey =>
    if ∀ entry ∈ r.set.entries, newKey entry.2 = entry.1 then some ({ r with key := newKey },[]) else none

end Reference

structure Refines (key : μ → κ) (g : Group μ) (s : BoundedSet κ μ) : Prop where
  members : g.members = s.values
  capacity : g.capacity = s.capacity
  recorded : ∀ entry ∈ s.entries, key entry.2 = entry.1

section Simulation
variable {key : μ → κ} {g : Group μ} {s : BoundedSet κ μ}

omit [DecidableEq κ] in
theorem refines_keys (refines : Refines key g s) : g.members.map key = s.keys := by
  rw [refines.members,BoundedSet.values,BoundedSet.keys,List.map_map]
  exact List.map_congr_left refines.recorded

omit [DecidableEq κ] in
theorem refines_length (refines : Refines key g s) : g.members.length = s.entries.length := by
  rw [refines.members,BoundedSet.values,List.length_map]

theorem refines_contains (refines : Refines key g s) {memberKey : κ} :
    g.contains key memberKey = true ↔ memberKey ∈ s.keys := by
  rw [contains_iff,refines_keys refines]

theorem refines_find (refines : Refines key g s) (memberKey : κ) : g.findMember key memberKey = s.find memberKey := by
  have recorded := refines.recorded
  rw [findMember,refines.members,BoundedSet.values,BoundedSet.find,List.find?_map]
  congr 1
  apply List.find?_congr
  intro entry member
  rw [Function.comp_apply,recorded entry member]

theorem addMember_refines (refines : Refines key g s) (member : μ) :
    (g.addMember key member).1 = Reference.result (s.insert (key member) member).1 ∧
      Refines key (g.addMember key member).2 (s.insert (key member) member).2 := by
  unfold addMember BoundedSet.insert
  by_cases held : key member ∈ s.keys
  · rw [if_pos ((refines_contains refines).mpr held),dif_pos held]
    exact ⟨rfl,refines⟩
  · rw [if_neg (fun contained => held ((refines_contains refines).mp contained)),dif_neg held,refines_length refines,
      refines.capacity]
    by_cases room : s.entries.length < s.capacity
    · rw [if_neg (Nat.not_le.mpr room),dif_pos room]
      refine ⟨rfl,?_,rfl,?_⟩
      · simp only [BoundedSet.values,List.map_append,refines.members]
        rfl
      · intro entry inside
        rcases List.mem_append.mp inside with old | new
        · exact refines.recorded entry old
        · cases List.mem_singleton.mp new
          rfl
    · rw [if_pos (Nat.not_lt.mp room),dif_neg room]
      exact ⟨rfl,refines⟩

theorem removeMember_refines (refines : Refines key g s) (memberKey : κ) :
    (g.removeMember key memberKey).1 = Reference.result (s.erase memberKey).1 ∧
      Refines key (g.removeMember key memberKey).2 (s.erase memberKey).2 := by
  unfold removeMember BoundedSet.erase
  by_cases held : memberKey ∈ s.keys
  · rw [if_pos ((refines_contains refines).mpr held),if_pos held]
    refine ⟨rfl,?_,refines.capacity,?_⟩
    · dsimp only [BoundedSet.values]
      have hits : ∀ entry ∈ s.entries, ((fun member => decide (key member = memberKey)) ∘ Prod.snd) entry =
          decide (entry.1 = memberKey) := by
        intro entry inside
        rw [Function.comp_apply,refines.recorded entry inside]
      rw [refines.members,BoundedSet.values,List.eraseP_map,BoundedSet.eraseP_filter s.distinct hits]
    · intro entry inside
      exact refines.recorded entry (List.mem_of_mem_filter inside)
  · rw [if_neg (fun contained => held ((refines_contains refines).mp contained)),if_neg held]
    exact ⟨rfl,refines⟩

omit [DecidableEq κ] in
theorem setCapacity_refines (refines : Refines key g s) (newCapacity : Nat) :
    (g.setCapacity newCapacity).1 = Reference.result (s.resize newCapacity).1 ∧
      Refines key (g.setCapacity newCapacity).2 (s.resize newCapacity).2 := by
  unfold setCapacity BoundedSet.resize
  rw [refines_length refines]
  by_cases holds : s.entries.length ≤ newCapacity
  · rw [if_neg (Nat.not_lt.mpr holds),dif_pos holds]
    exact ⟨rfl,refines.members,rfl,refines.recorded⟩
  · rw [if_pos (Nat.lt_of_not_le holds),dif_neg holds]
    exact ⟨rfl,refines⟩

theorem call_refines (refines : Refines key g s) (c : Call μ κ) :
    (g.call key c).1 = (Reference.call key s c).1 ∧ Refines key (g.call key c).2 (Reference.call key s c).2 := by
  cases c with
  | addMember member =>
    obtain ⟨answer,after⟩ := addMember_refines refines member
    exact ⟨congrArg Reply.result answer,after⟩
  | removeMember memberKey =>
    obtain ⟨answer,after⟩ := removeMember_refines refines memberKey
    exact ⟨congrArg Reply.result answer,after⟩
  | setCapacity newCapacity =>
    obtain ⟨answer,after⟩ := setCapacity_refines refines newCapacity
    exact ⟨congrArg Reply.result answer,after⟩
  | clearMembers => exact ⟨rfl,rfl,refines.capacity,nofun⟩
  | contains memberKey =>
    have held : g.contains key memberKey = s.contains memberKey := by
      rw [Bool.eq_iff_iff,refines_contains refines,BoundedSet.contains,decide_eq_true_eq]
    exact ⟨congrArg Reply.contained held,refines⟩
  | findMember memberKey => exact ⟨congrArg Reply.found (refines_find refines memberKey),refines⟩

theorem reference_refused {c : Call μ κ} (refused : (Reference.call key s c).1.refused) : (Reference.call key s c).2 = s := by
  cases c with
  | addMember member => exact BoundedSet.insert_refused fun done => refused (congrArg Reference.result done)
  | removeMember memberKey => exact BoundedSet.erase_refused fun done => refused (congrArg Reference.result done)
  | setCapacity newCapacity => exact BoundedSet.resize_refused fun done => refused (congrArg Reference.result done)
  | clearMembers => exact refused.elim
  | contains memberKey => rfl
  | findMember memberKey => rfl

omit [DecidableEq κ] in
theorem rekey_refines {newKey : μ → κ} (refines : Refines key g s) :
    (∀ member ∈ g.members, newKey member = key member) ↔ ∀ entry ∈ s.entries, newKey entry.2 = entry.1 := by
  rw [refines.members,BoundedSet.values,List.forall_mem_map]
  refine forall₂_congr fun entry inside => ?_
  rw [refines.recorded entry inside]

theorem call_groupId (c : Call μ κ) : (g.call key c).2.groupId = g.groupId := by
  cases c with
  | addMember member =>
    change (g.addMember key member).2.groupId = g.groupId
    unfold addMember
    split
    · rfl
    · split <;> rfl
  | removeMember memberKey =>
    change (g.removeMember key memberKey).2.groupId = g.groupId
    unfold removeMember
    split <;> rfl
  | setCapacity newCapacity =>
    change (g.setCapacity newCapacity).2.groupId = g.groupId
    unfold setCapacity
    split <;> rfl
  | _ => rfl

theorem refused_unchanged (refines : Refines key g s) {c : Call μ κ} (refused : (g.call key c).1.refused) :
    (g.call key c).2 = g := by
  obtain ⟨answer,after⟩ := call_refines refines c
  rw [answer] at refused
  rw [reference_refused refused] at after
  have groupId : (g.call key c).2.groupId = g.groupId := call_groupId c
  have capacity := after.capacity.trans refines.capacity.symm
  have members := after.members.trans refines.members.symm
  cases out : (g.call key c).2 with
  | mk outId outCapacity outMembers =>
    rw [out] at groupId capacity members
    cases groupId
    cases capacity
    cases members
    rfl

end Simulation

def WellKept (h : Held μ κ) : Prop := h.group.Keyed h.key ∧ h.group.members.length ≤ h.group.capacity ∧
  ∀ c, (h.group.call h.key c).1.refused → (h.group.call h.key c).2 = h.group

def shown (s : Held μ κ × List (Reply μ × List μ)) : List μ × Nat × List (Reply μ × List μ) :=
  (s.1.group.members,s.1.group.capacity,s.2)

def Reference.shown (s : Reference μ κ × List (Reply μ × List μ)) : List μ × Nat × List (Reply μ × List μ) :=
  (s.1.set.values,s.1.set.capacity,s.2)

section Runs

def Mirrors (h : Held μ κ × List (Reply μ × List μ)) (r : Reference μ κ × List (Reply μ × List μ)) : Prop :=
  r.1.key = h.1.key ∧ Refines h.1.key h.1.group r.1.set ∧ h.2 = r.2

theorem step_mirrors (h : Held μ κ × List (Reply μ × List μ)) (r : Reference μ κ × List (Reply μ × List μ)) (event : Event μ κ)
    (mirrors : Mirrors h r) :
    (∃ next after, Machine.recording step h event = some next ∧ Machine.recording Reference.step r event = some after ∧
      Mirrors next after) ∨ (Machine.recording step h event = none ∧ Machine.recording Reference.step r event = none) := by
  obtain ⟨⟨key,group⟩,log⟩ := h
  obtain ⟨⟨_,set⟩,_⟩ := r
  obtain ⟨⟨⟩,refines,⟨⟩⟩ := mirrors
  dsimp only at refines
  cases event with
  | call c =>
    obtain ⟨answer,after⟩ := call_refines refines c
    refine .inl ⟨_,_,rfl,rfl,rfl,after,?_⟩
    dsimp only
    rw [answer,after.members]
  | rekey newKey =>
    have admitted := @rekey_refines _ _ key group set newKey refines
    unfold Machine.recording step Reference.step
    dsimp only
    by_cases stays : ∀ entry ∈ set.entries, newKey entry.2 = entry.1
    · rw [if_pos (admitted.mpr stays),if_pos stays]
      exact .inl ⟨_,_,rfl,rfl,rfl,⟨refines.members,refines.capacity,stays⟩,rfl⟩
    · rw [if_neg (fun held => stays (admitted.mp held)),if_neg stays]
      exact .inr ⟨rfl,rfl⟩

theorem mirrors_kept {h : Held μ κ × List (Reply μ × List μ)} {r : Reference μ κ × List (Reply μ × List μ)}
    (mirrors : Mirrors h r) : WellKept h.1 := by
  obtain ⟨_,refines,_⟩ := mirrors
  refine ⟨?_,?_,fun c refused => refused_unchanged refines refused⟩
  · rw [Keyed,refines_keys refines]
    exact r.1.set.distinct
  · rw [refines_length refines,refines.capacity]
    exact r.1.set.bounded

omit [DecidableEq κ] in
theorem empty_mirrors (groupId : GroupId) (capacity : Nat) (key : μ → κ) :
    Mirrors (⟨key,⟨groupId,capacity,[]⟩⟩,[]) (⟨key,BoundedSet.empty capacity⟩,[]) := ⟨rfl,⟨rfl,rfl,nofun⟩,rfl⟩

end Runs

theorem group_refines (groupId : GroupId) (capacity : Nat) (key : μ → κ) (events : List (Event μ κ)) :
    (Machine.run (Machine.recording step) (⟨key,⟨groupId,capacity,[]⟩⟩,[]) events).map shown =
        (Machine.run (Machine.recording Reference.step) (⟨key,BoundedSet.empty capacity⟩,[]) events).map Reference.shown ∧
      Machine.Always (Machine.recording step) (fun s => WellKept s.1) (⟨key,⟨groupId,capacity,[]⟩⟩,[]) events := by
  have start := empty_mirrors groupId capacity key
  refine ⟨?_,?_⟩
  · rcases Machine.run_lockstep step_mirrors events start with ⟨reached,matched,path,mirrored,_,refines,log⟩ | ⟨path,mirrored⟩
    · rw [path,mirrored]
      change some (_,_,_) = some (_,_,_)
      rw [refines.members,refines.capacity,log]
    · rw [path,mirrored]
      rfl
  · intro earlier later reached _ path
    rcases Machine.run_lockstep step_mirrors earlier start with ⟨held,matched,went,_,mirrors⟩ | ⟨went,_⟩
    · cases path.symm.trans went
      exact mirrors_kept mirrors
    · cases path.symm.trans went

end GameServer.Group
