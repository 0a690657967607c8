import Mathlib.Data.List.Infix

namespace Foundation.Balances

structure Entry (α : Type*) where
  account : α
  gain : Bool
deriving DecidableEq

section
variable {α : Type*} [DecidableEq α]

def gains (entries : List (Entry α)) (account : α) : Nat := entries.countP fun e => e.gain && e.account = account

def losses (entries : List (Entry α)) (account : α) : Nat := entries.countP fun e => !e.gain && e.account = account

-- At no time has an account lost more than it started with and gained, and at
-- no time is what it keeps as large as the limit.
def Covered (limit : Nat) (start : α → Nat) (entries : List (Entry α)) : Prop :=
  ∀ earlier, earlier <+: entries → ∀ account, losses earlier account ≤ start account + gains earlier account ∧
    start account + gains earlier account < losses earlier account + limit

def Entry.Fits (e : Entry α) (limit : Nat) (balance : α → Nat) : Prop :=
  if e.gain then balance e.account + 1 < limit else balance e.account ≠ 0

instance (e : Entry α) (limit : Nat) (balance : α → Nat) : Decidable (e.Fits limit balance) :=
  inferInstanceAs (Decidable (if e.gain then _ else _))

def Entry.entered (e : Entry α) (balance : α → Nat) (account : α) : Nat :=
  if account = e.account then if e.gain then balance account + 1 else balance account - 1 else balance account

section Entries
variable {limit : Nat} {balance : α → Nat} {e : Entry α} {rest : List (Entry α)} {account : α}

theorem entered_gains (fits : e.Fits limit balance) : e.entered balance account + gains rest account + losses (e :: rest) account =
    balance account + gains (e :: rest) account + losses rest account := by
  obtain ⟨named,gain⟩ := e
  unfold Entry.Fits at fits
  unfold Entry.entered gains losses
  by_cases same : account = named
  · subst same
    cases gain with
    | true =>
      simp
      omega
    | false =>
      have spare : balance account ≠ 0 := by simpa using fits
      simp
      omega
  · simp [same,Ne.symm same]

theorem covered_nil (below : ∀ account, balance account < limit) : Covered limit balance [] := by
  intro earlier before account
  obtain rfl := List.prefix_nil.mp before
  exact ⟨Nat.zero_le _,by simpa [gains,losses] using below account⟩

theorem entered_below (below : ∀ account, balance account < limit) (fits : e.Fits limit balance) (account : α) :
    e.entered balance account < limit := by
  have here := below account
  unfold Entry.Fits at fits
  unfold Entry.entered
  split_ifs with same gained
  · subst same
    rwa [if_pos gained] at fits
  · omega
  · exact here

theorem covered_fits (covered : Covered limit balance (e :: rest)) : e.Fits limit balance := by
  have first := covered [e] (List.prefix_append [e] rest) e.account
  obtain ⟨named,gain⟩ := e
  unfold gains losses at first
  unfold Entry.Fits
  cases gain <;> simp at first ⊢ <;> omega

-- Entries are covered one by one: the first by the balances as they are, the
-- others by the balances it leaves.
theorem covered_cons (below : ∀ account, balance account < limit) :
    Covered limit balance (e :: rest) ↔ e.Fits limit balance ∧ Covered limit (e.entered balance) rest := by
  refine ⟨?_,?_⟩
  · intro covered
    have fits := covered_fits covered
    refine ⟨fits,?_⟩
    intro earlier before account
    have here := covered (e :: earlier) ((List.prefix_cons_inj e).mpr before) account
    have moved : e.entered balance account + gains earlier account + losses (e :: earlier) account =
      balance account + gains (e :: earlier) account + losses earlier account := entered_gains fits
    omega
  · rintro ⟨fits,covered⟩ earlier before account
    cases earlier with
    | nil => exact covered_nil below [] List.nil_prefix account
    | cons head earlier =>
      obtain ⟨rfl,others⟩ := List.cons_prefix_cons.mp before
      have here := covered earlier others account
      have moved : head.entered balance account + gains earlier account + losses (head :: earlier) account =
        balance account + gains (head :: earlier) account + losses earlier account := entered_gains fits
      omega

end Entries
end
end Foundation.Balances
