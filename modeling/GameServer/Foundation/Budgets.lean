import GameServer.Foundation.Machine
import Mathlib.Algebra.GroupWithZero.Nat

namespace Foundation.Machine
variable {σ ε : Type*} {step : σ → ε → Option σ} {inv : σ → Prop} {owed : σ → Nat} {spent : σ → ε → Nat} {paid : ε → Nat}

theorem run_budget (kept : ∀ s event next, inv s → step s event = some next → inv next)
    (pays : ∀ s event next, inv s → step s event = some next → spent s event + owed next ≤ owed s + paid event)
    {s reached : σ} {events : List ε} (start : inv s) (path : run step s events = some reached) :
    (observed step spent s events).sum + owed reached ≤ owed s + (events.map paid).sum := by
  induction events generalizing s with
  | nil => cases path; exact Nat.le_of_eq (Nat.zero_add _)
  | cons event rest ih =>
    obtain ⟨next,taken,path⟩ := Option.bind_eq_some_iff.mp path
    have here := pays s event next start taken
    have others := ih (kept s event next start taken) path
    simp only [observed,taken,List.sum_cons,List.map_cons]
    omega

theorem observed_counts {takes : ε → Bool} {s reached : σ} {events : List ε} (path : run step s events = some reached) :
    (observed step (fun _ event => (takes event).toNat) s events).sum = events.countP takes := by
  induction events generalizing s with
  | nil => rfl
  | cons event rest ih =>
    obtain ⟨next,taken,path⟩ := Option.bind_eq_some_iff.mp path
    simp only [observed,taken,List.sum_cons,ih path]
    cases kind : takes event with
    | false => rw [List.countP_cons_of_neg (by simp [kind]),Bool.toNat_false,Nat.zero_add]
    | true => rw [List.countP_cons_of_pos kind,Bool.toNat_true,Nat.add_comm]

theorem run_counts {takes : ε → Bool} (kept : ∀ s event next, inv s → step s event = some next → inv next)
    (pays : ∀ s event next, inv s → step s event = some next → (takes event).toNat + owed next ≤ owed s + paid event)
    {s reached : σ} {events : List ε} (start : inv s) (path : run step s events = some reached) :
    events.countP takes + owed reached ≤ owed s + (events.map paid).sum := by
  rw [← observed_counts path]
  exact run_budget kept pays start path

end Foundation.Machine
