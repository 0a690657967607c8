import Mathlib.Data.List.ReduceOption
import GameServer.Foundation.Machine

namespace Foundation.Machine
variable {σ ε τ ρ : Type*}

def order (step : σ → ε → Option σ) (commits : σ → ε → Option ρ) (s : σ) (events : List ε) : List ρ :=
  (observed step commits s events).reduceOption

section Order
variable {step : σ → ε → Option σ} {commits : σ → ε → Option ρ} {inv : σ → Prop} {s middle reached : σ}

theorem order_append {earlier : List ε} (later : List ε) (path : run step s earlier = some middle) :
    order step commits s (earlier ++ later) = order step commits s earlier ++ order step commits middle later := by
  rw [order,observed_append later path,List.reduceOption_append]
  rfl

theorem order_cons {event : ε} {rest : List ε} {next : σ} (taken : step s event = some next) :
    order step commits s (event :: rest) = (commits s event).toList ++ order step commits next rest := by
  unfold order
  simp only [observed,taken]
  cases commits s event with
  | none => rfl
  | some request => rfl

-- Where each step leaves the settled state alone or serves in it the request
-- that takes effect, the settled state is what the requests make of it one by
-- one, whatever else went on between them.
theorem run_settles {settle : σ → τ} {serve : τ → ρ → τ}
    (kept : ∀ s event next, inv s → step s event = some next → inv next)
    (settles : ∀ s event next, inv s → step s event = some next →
      settle next = (commits s event).toList.foldl serve (settle s))
    {events : List ε} (start : inv s) (path : run step s events = some reached) :
    settle reached = (order step commits s events).foldl serve (settle s) := by
  induction events generalizing s with
  | nil => cases path; rfl
  | cons event rest ih =>
    obtain ⟨next,taken,path⟩ := Option.bind_eq_some_iff.mp path
    rw [ih (kept s event next start taken) path,settles s event next start taken,order_cons taken,List.foldl_append]

-- The requests of one party take effect in the order in which it makes them,
-- all but those that wait.
theorem order_waits {own : ρ → Bool} (waiting : σ → List ρ) {calls : ε → List ρ}
    (kept : ∀ s event next, inv s → step s event = some next → inv next)
    (moves : ∀ s event next, inv s → step s event = some next →
      (commits s event).toList.filter own ++ waiting next = waiting s ++ (calls event).filter own)
    {events : List ε} (start : inv s) (path : run step s events = some reached) :
    (order step commits s events).filter own ++ waiting reached = waiting s ++ (events.flatMap calls).filter own := by
  induction events generalizing s with
  | nil => cases path; exact (List.append_nil _).symm
  | cons event rest ih =>
    obtain ⟨next,taken,path⟩ := Option.bind_eq_some_iff.mp path
    rw [order_cons taken,List.filter_append,List.append_assoc,ih (kept s event next start taken) path,← List.append_assoc,
      moves s event next start taken,List.append_assoc,List.flatMap_cons,List.filter_append]

theorem order_prefix {events earlier : List ε} (path : run step s events = some reached) (first : earlier <+: events) :
    order step commits s earlier <+: order step commits s events := by
  obtain ⟨later,rfl⟩ := first
  rw [run_append] at path
  obtain ⟨middle,begun,-⟩ := Option.bind_eq_some_iff.mp path
  rw [order_append later begun]
  exact List.prefix_append _ _

end Order
end Foundation.Machine
