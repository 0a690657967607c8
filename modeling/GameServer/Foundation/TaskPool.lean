import GameServer.Foundation.Machine
import Mathlib.Algebra.BigOperators.Group.List.Basic
import Mathlib.Algebra.GroupWithZero.Nat
import Mathlib.Data.List.Perm.Basic

namespace Foundation.TaskPool
variable {σ κ α : Type*}

-- What one action leaves: the shared state, what its task has to do next, and
-- the tasks it has started.
structure Effect (σ α : Type*) where
  state : σ
  goesOn : List α := []
  spawns : List (List α) := []

-- Tasks over a shared state, each the list of the actions still before it. The
-- schedule names the task that goes on and the choice its action meets.
def advance (perform : σ → κ → α → Effect σ α) (pool : σ × List (List α)) (turn : Nat × κ) :
    Option (σ × List (List α)) :=
  match pool.2[turn.1]? with
  | some (action :: rest) =>
    let effect := perform pool.1 turn.2 action
    some (effect.state,pool.2.set turn.1 (effect.goesOn ++ rest) ++ effect.spawns)
  | _ => none

def Idle (tasks : List (List α)) : Prop := ∀ task ∈ tasks, task = []

-- However the tasks are scheduled they come to an end, and until then some task can go on.
def Completes (perform : σ → κ → α → Effect σ α) (pool : σ × List (List α)) : Prop :=
  ∃ bound, ∀ turns reached, Machine.run (advance perform) pool turns = some reached →
    turns.length ≤ bound ∧ (Idle reached.2 ∨ ∃ index, ∀ choice, ∃ next, advance perform reached (index,choice) = some next)

section Pending
variable {perform : σ → κ → α → Effect σ α} {pool next : σ × List (List α)} {turn : Nat × κ}

theorem advance_eq_some : advance perform pool turn = some next ↔ ∃ action rest, pool.2[turn.1]? = some (action :: rest) ∧
    next = ((perform pool.1 turn.2 action).state,
      pool.2.set turn.1 ((perform pool.1 turn.2 action).goesOn ++ rest) ++ (perform pool.1 turn.2 action).spawns) := by
  unfold advance
  refine ⟨?_,?_⟩
  · intro advanced
    split at advanced
    · rename_i action rest stands
      cases advanced
      exact ⟨action,rest,stands,rfl⟩
    · cases advanced
  · rintro ⟨action,rest,stands,rfl⟩
    rw [stands]

theorem advance_task {rest task : List α} {place : Nat} (effect : Effect σ α) (listed : pool.2[place]? = some task) :
    (pool.2.set turn.1 (effect.goesOn ++ rest) ++ effect.spawns)[place]? =
      some (if place = turn.1 then effect.goesOn ++ rest else task) := by
  obtain ⟨inside,_⟩ := List.getElem?_eq_some_iff.mp listed
  rw [List.getElem?_append_left (by rw [List.length_set]; exact inside)]
  split
  · rename_i same
    subst same
    exact List.getElem?_set_self inside
  · rename_i other
    rw [List.getElem?_set_ne (Ne.symm other),listed]

theorem advance_pending (advanced : advance perform pool turn = some next) : ∃ action others,
    pool.2.flatten.Perm (action :: others) ∧ next.1 = (perform pool.1 turn.2 action).state ∧
      next.2.flatten.Perm ((perform pool.1 turn.2 action).goesOn ++ others ++ (perform pool.1 turn.2 action).spawns.flatten) := by
  unfold advance at advanced
  split at advanced
  · rename_i action rest stands
    cases advanced
    obtain ⟨inside,here⟩ := List.getElem?_eq_some_iff.mp stands
    have cut : pool.2 = pool.2.take turn.1 ++ (action :: rest) :: pool.2.drop (turn.1 + 1) := by
      rw [← here,List.cons_getElem_drop_succ,List.take_append_drop]
    refine ⟨action,(pool.2.take turn.1).flatten ++ rest ++ (pool.2.drop (turn.1 + 1)).flatten,?_,rfl,?_⟩
    · conv_lhs => rw [cut]
      simp only [List.flatten_append,List.flatten_cons,List.append_assoc,List.cons_append]
      exact List.perm_middle
    · simp only [List.set_eq_take_append_cons_drop,if_pos inside,List.flatten_append,List.flatten_cons,List.append_assoc]
      exact List.perm_append_comm_assoc _ _ _
  · cases advanced

theorem advance_preserves {law : σ → List α → Prop}
    (unordered : ∀ s first second, law s first → first.Perm second → law s second)
    (kept : ∀ s choice action others, law s (action :: others) →
      law (perform s choice action).state ((perform s choice action).goesOn ++ others ++ (perform s choice action).spawns.flatten))
    (holds : law pool.1 pool.2.flatten) (advanced : advance perform pool turn = some next) : law next.1 next.2.flatten := by
  obtain ⟨action,others,before,state,after⟩ := advance_pending advanced
  rw [state]
  exact unordered _ _ _ (kept _ _ _ _ (unordered _ _ _ holds before)) after.symm

theorem idle_or_advances (pool : σ × List (List α)) :
    Idle pool.2 ∨ ∃ index, ∀ choice, ∃ next, advance perform pool (index,choice) = some next := by
  by_cases idle : Idle pool.2
  · exact .inl idle
  · right
    simp only [Idle,not_forall] at idle
    obtain ⟨task,member,busy⟩ := idle
    obtain ⟨index,stands⟩ := List.mem_iff_getElem?.mp member
    obtain ⟨action,rest,rfl⟩ := List.exists_cons_of_ne_nil busy
    refine ⟨index,fun choice => ?_⟩
    unfold advance
    rw [stands]
    exact ⟨_,rfl⟩

def outstanding (credit : σ → Nat) (weigh : α → Nat) (pool : σ × List (List α)) : Nat :=
  credit pool.1 + (pool.2.flatten.map weigh).sum

theorem advance_outstanding {credit : σ → Nat} {weigh : α → Nat}
    (spends : ∀ s choice action, credit (perform s choice action).state + ((perform s choice action).goesOn.map weigh).sum +
      ((perform s choice action).spawns.flatten.map weigh).sum < credit s + weigh action)
    (advanced : advance perform pool turn = some next) :
    outstanding credit weigh next < outstanding credit weigh pool := by
  obtain ⟨action,others,before,state,after⟩ := advance_pending advanced
  have spent := spends pool.1 turn.2 action
  have had := (before.map weigh).sum_eq
  have has := (after.map weigh).sum_eq
  simp only [List.map_append,List.sum_append,List.map_cons,List.sum_cons] at had has
  unfold outstanding
  rw [had,has,state]
  omega

theorem completes {credit : σ → Nat} {weigh : α → Nat}
    (spends : ∀ s choice action, credit (perform s choice action).state + ((perform s choice action).goesOn.map weigh).sum +
      ((perform s choice action).spawns.flatten.map weigh).sum < credit s + weigh action) (pool : σ × List (List α)) :
    Completes perform pool := by
  refine ⟨outstanding credit weigh pool,?_⟩
  intro turns reached path
  refine ⟨?_,idle_or_advances reached⟩
  induction turns generalizing pool with
  | nil => exact Nat.zero_le _
  | cons turn rest ih =>
    obtain ⟨next,advanced,path⟩ := Option.bind_eq_some_iff.mp path
    have less := advance_outstanding spends advanced
    have short := ih next path
    rw [List.length_cons]
    omega

end Pending

end Foundation.TaskPool
