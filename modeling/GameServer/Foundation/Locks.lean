import GameServer.Foundation.Budgets
import Mathlib.Data.Fintype.Basic
import Mathlib.Logic.Function.Basic

namespace Foundation.Locks

inductive Mode where
  | shared | exclusive
deriving DecidableEq

-- Where a party stands to the locks: it holds none, it holds one for accesses it
-- has still to make, or it has made them and has only to let go of it.
inductive Hold (L : Type*) where
  | nothing
  | inside (lock : L) (mode : Mode)
  | done (lock : L) (mode : Mode)
deriving DecidableEq

-- A machine whose parties make their accesses under readers-writer locks: the lock
-- that the next access of a party needs, and whether the party is in the middle of
-- accesses that it makes under one lock.
structure Discipline (σ ε P L : Type*) where
  step : σ → ε → Option σ
  party : ε → P
  needs : σ → P → Option (L × Mode)
  amid : σ → P → Bool

structure Guarded (σ P L : Type*) where
  base : σ
  hold : P → Hold L

inductive Move (ε P : Type*) where
  | lock (party : P)
  | act (event : ε)
  | unlock (party : P)

def Move.access {ε P : Type*} : Move ε P → Option ε
  | .act event => some event
  | _ => none

variable {σ ε P L : Type*}

def Hold.held : Hold L → Option (L × Mode)
  | .nothing => none
  | .inside lock mode => some (lock,mode)
  | .done lock mode => some (lock,mode)

def Hold.Blocks (hold : Hold L) (lock : L) (mode : Mode) : Prop :=
  ∃ other, hold.held = some (lock,other) ∧ (mode = .exclusive ∨ other = .exclusive)

instance [DecidableEq L] (hold : Hold L) (lock : L) (mode : Mode) : Decidable (hold.Blocks lock mode) :=
  decidable_of_iff (hold.held.any (fun held => held.1 = lock ∧ (mode = .exclusive ∨ held.2 = .exclusive)) = true) <| by
    rcases held : hold.held with _ | ⟨taken,other⟩ <;> simp [Hold.Blocks,held]

-- No party holds what another would have to wait for.
def Apart (hold : P → Hold L) : Prop :=
  ∀ one other, one ≠ other → ∀ lock mode, (hold one).held = some (lock,mode) → ¬ (hold other).Blocks lock mode

-- Who is inside is there for the lock that its next access needs.
def Named (needs : P → Option (L × Mode)) (hold : P → Hold L) : Prop :=
  ∀ party lock mode, hold party = .inside lock mode → needs party = some (lock,mode)

def weight : Hold L → Nat
  | .nothing => 1
  | .inside .. => 0
  | .done .. => 2

def payment (paid : ε → Nat) (event : Move ε P) : Nat := (event.access.map paid).getD 0

theorem payment_sum (paid : ε → Nat) (moves : List (Move ε P)) :
    (moves.map (payment paid)).sum = ((moves.filterMap Move.access).map paid).sum := by
  induction moves with
  | nil => rfl
  | cons event rest ih =>
    rw [List.map_cons,List.sum_cons,ih]
    cases event with
    | act access => simp [payment,Move.access]
    | _ => exact Nat.zero_add _

section Holds
variable [DecidableEq P] {hold : P → Hold L} {new : Hold L} {party : P}

theorem apart_update (apart : Apart hold)
    (clear : ∀ lock mode, new.held = some (lock,mode) → ∀ other, other ≠ party → ¬ (hold other).Blocks lock mode) :
    Apart (Function.update hold party new) := by
  intro one other different lock mode held blocks
  by_cases mine : one = party
  · subst mine
    rw [Function.update_self] at held
    rw [Function.update_of_ne different.symm] at blocks
    exact clear lock mode held other different.symm blocks
  · rw [Function.update_of_ne mine] at held
    by_cases theirs : other = party
    · subst theirs
      rw [Function.update_self] at blocks
      obtain ⟨how,taken,exclusive⟩ := blocks
      exact clear lock how taken one mine ⟨mode,held,exclusive.symm⟩
    · rw [Function.update_of_ne theirs] at blocks
      exact apart one other different lock mode held blocks

theorem named_update {needs : P → Option (L × Mode)}
    (others : ∀ other, other ≠ party → ∀ lock mode, hold other = .inside lock mode → needs other = some (lock,mode))
    (own : ∀ lock mode, new = .inside lock mode → needs party = some (lock,mode)) :
    Named needs (Function.update hold party new) := by
  intro other lock mode inside
  by_cases same : other = party
  · subst same
    rw [Function.update_self] at inside
    exact own lock mode inside
  · rw [Function.update_of_ne same] at inside
    exact others other same lock mode inside

end Holds

namespace Discipline
variable [DecidableEq P] [Fintype P] [DecidableEq L] (d : Discipline σ ε P L)

def of : Move ε P → P
  | .lock party => party
  | .act event => d.party event
  | .unlock party => party

-- An access is made under the lock it needs, and that one was to be had.
def move (s : Guarded σ P L) : Move ε P → Option (Guarded σ P L)
  | .lock party => match s.hold party,d.needs s.base party with
    | .nothing,some (lock,mode) =>
      if ∀ other, other ≠ party → ¬ (s.hold other).Blocks lock mode
      then some { s with hold := Function.update s.hold party (.inside lock mode) } else none
    | _,_ => none
  | .act event => match s.hold (d.party event),d.needs s.base (d.party event) with
    | .nothing,none => (d.step s.base event).map fun next => { s with base := next }
    | .inside lock mode,some need =>
      if need = (lock,mode) then (d.step s.base event).map fun next => ⟨next,Function.update s.hold (d.party event)
        (if d.amid next (d.party event) then .inside lock mode else .done lock mode)⟩
      else none
    | _,_ => none
  | .unlock party => match s.hold party with
    | .done _ _ => some { s with hold := Function.update s.hold party .nothing }
    | _ => none

-- What the accesses have to do with the locks, while an invariant of theirs holds.
structure Orderly (inv : σ → Prop) : Prop where
  kept : ∀ s event next, inv s → d.step s event = some next → inv next
  aside : ∀ s event next, inv s → d.step s event = some next → ∀ party, party ≠ d.party event →
    d.needs next party = d.needs s party
  onward : ∀ s event next, inv s → d.step s event = some next → d.amid next (d.party event) = true →
    d.needs next (d.party event) = d.needs s (d.party event)
  goes : ∀ s party, inv s → d.needs s party ≠ none → ∃ event next, d.party event = party ∧ d.step s event = some next

structure Sound (inv : σ → Prop) (s : Guarded σ P L) : Prop where
  base : inv s.base
  named : Named (d.needs s.base) s.hold
  apart : Apart s.hold

def Moves (s : Guarded σ P L) (party : P) : Prop := ∃ event next, d.of event = party ∧ d.move s event = some next

inductive Moved (s : Guarded σ P L) : Move ε P → Guarded σ P L → Prop where
  | locks {party : P} {lock : L} {mode : Mode} (out : s.hold party = .nothing) (needs : d.needs s.base party = some (lock,mode))
      (clear : ∀ other, other ≠ party → ¬ (s.hold other).Blocks lock mode) :
      Moved s (.lock party) { s with hold := Function.update s.hold party (.inside lock mode) }
  | plain {event : ε} {after : σ} (out : s.hold (d.party event) = .nothing) (needs : d.needs s.base (d.party event) = none)
      (stepped : d.step s.base event = some after) : Moved s (.act event) { s with base := after }
  | within {event : ε} {after : σ} {lock : L} {mode : Mode} (inside : s.hold (d.party event) = .inside lock mode)
      (needs : d.needs s.base (d.party event) = some (lock,mode)) (stepped : d.step s.base event = some after) :
      Moved s (.act event) ⟨after,Function.update s.hold (d.party event)
        (if d.amid after (d.party event) then .inside lock mode else .done lock mode)⟩
  | unlocks {party : P} {lock : L} {mode : Mode} (done : s.hold party = .done lock mode) :
      Moved s (.unlock party) { s with hold := Function.update s.hold party .nothing }

def cost (s : σ) (event : ε) (next : σ) : Nat :=
  if d.needs s (d.party event) = none ∨ d.amid next (d.party event) = true then 1 else 3

section Moving
variable {d} {inv : σ → Prop} {s next : Guarded σ P L} {event : Move ε P} {moves : List (Move ε P)} {party : P}

theorem move_moved (moved : d.move s event = some next) : d.Moved s event next := by
  cases event with
  | lock party =>
    unfold move at moved
    dsimp only at moved
    split at moved
    · rename_i lock mode out needs
      split at moved
      · rename_i clear
        cases moved
        exact .locks out needs clear
      · cases moved
    · cases moved
  | act event =>
    unfold move at moved
    dsimp only at moved
    split at moved
    · rename_i out needs
      obtain ⟨after,stepped,rfl⟩ := Option.map_eq_some_iff.mp moved
      exact .plain out needs stepped
    · rename_i lock mode need inside needs
      split at moved
      · rename_i same
        obtain ⟨after,stepped,rfl⟩ := Option.map_eq_some_iff.mp moved
        exact .within inside (same ▸ needs) stepped
      · cases moved
    · cases moved
  | unlock party =>
    unfold move at moved
    dsimp only at moved
    split at moved
    · rename_i lock mode done
      cases moved
      exact .unlocks done
    · cases moved

theorem moved_move (moved : d.Moved s event next) : d.move s event = some next := by
  cases moved with
  | locks out needs clear => simp only [move,out,needs]; exact if_pos clear
  | plain out needs stepped => simp only [move,out,needs,stepped,Option.map_some]
  | within inside needs stepped => simp only [move,inside,needs,stepped,Option.map_some,if_true]
  | unlocks done => simp only [move,done]

theorem run_accesses (path : Machine.run d.move s moves = some next) :
    Machine.run d.step s.base (moves.filterMap Move.access) = some next.base := by
  induction moves generalizing s with
  | nil => cases path; rfl
  | cons event rest ih =>
    obtain ⟨middle,moved,path⟩ := Option.bind_eq_some_iff.mp path
    have others := ih path
    cases move_moved moved with
    | locks => exact others
    | plain out needs stepped =>
      simp only [List.filterMap_cons,Move.access,Machine.run_cons,stepped]
      exact others
    | within inside needs stepped =>
      simp only [List.filterMap_cons,Move.access,Machine.run_cons,stepped]
      exact others
    | unlocks => exact others

theorem move_sound (orderly : d.Orderly inv) (sound : d.Sound inv s) (moved : d.move s event = some next) : d.Sound inv next := by
  obtain ⟨base,named,apart⟩ := sound
  cases move_moved moved with
  | @locks party lock mode out needs clear =>
    refine ⟨base,?_,?_⟩
    · apply named_update (fun other _ => named other)
      rintro _ _ ⟨rfl,rfl⟩
      exact needs
    · apply apart_update apart
      rintro _ _ ⟨rfl,rfl⟩
      exact clear
  | @plain event after out needs stepped =>
    refine ⟨orderly.kept _ _ _ base stepped,?_,apart⟩
    intro other lock mode inside
    have different : other ≠ d.party event := by
      rintro rfl
      cases out.symm.trans inside
    rw [orderly.aside _ _ _ base stepped other different]
    exact named other lock mode inside
  | @within event after lock mode inside needs stepped =>
    refine ⟨orderly.kept _ _ _ base stepped,?_,?_⟩
    · apply named_update
      · intro other different at_ how held
        rw [orderly.aside _ _ _ base stepped other different]
        exact named other at_ how held
      · intro at_ how held
        split at held
        · rename_i amid
          cases held
          rw [orderly.onward _ _ _ base stepped amid]
          exact needs
        · cases held
    · apply apart_update apart
      intro at_ how held other different
      have same : some (lock,mode) = some (at_,how) := by
        rw [← held]
        split <;> rfl
      cases same
      exact apart _ other different.symm lock mode (by rw [inside]; rfl)
  | @unlocks party lock mode done =>
    refine ⟨base,?_,?_⟩
    · exact named_update (fun other _ => named other) nofun
    · apply apart_update apart
      intro _ _ held
      cases held

theorem run_sound (orderly : d.Orderly inv) (sound : d.Sound inv s) (path : Machine.run d.move s moves = some next) :
    d.Sound inv next :=
  Machine.run_preserves (fun _ _ _ sound moved => move_sound orderly sound moved) sound path

theorem holder_moves (orderly : d.Orderly inv) (sound : d.Sound inv s) (holds : s.hold party ≠ .nothing) : d.Moves s party := by
  cases stands : s.hold party with
  | nothing => exact absurd stands holds
  | inside lock mode =>
    have needs := sound.named party lock mode stands
    obtain ⟨event,after,rfl,stepped⟩ := orderly.goes _ party sound.base (by rw [needs]; nofun)
    exact ⟨.act event,_,rfl,moved_move (.within stands needs stepped)⟩
  | done lock mode => exact ⟨.unlock party,_,rfl,moved_move (.unlocks stands)⟩

-- No deadlock: who has an access to make and cannot go on waits for a lock whose
-- holder can.
theorem advances (orderly : d.Orderly inv) (sound : d.Sound inv s) {access : ε} {after : σ}
    (stepped : d.step s.base access = some after) : d.Moves s (d.party access) ∨ ∃ lock mode other,
      d.needs s.base (d.party access) = some (lock,mode) ∧ other ≠ d.party access ∧ (s.hold other).Blocks lock mode ∧
        d.Moves s other := by
  by_cases out : s.hold (d.party access) = .nothing
  · cases needs : d.needs s.base (d.party access) with
    | none => exact .inl ⟨.act access,_,rfl,moved_move (.plain out needs stepped)⟩
    | some need =>
      obtain ⟨lock,mode⟩ := need
      by_cases clear : ∀ other, other ≠ d.party access → ¬ (s.hold other).Blocks lock mode
      · exact .inl ⟨.lock (d.party access),_,rfl,moved_move (.locks out needs clear)⟩
      · right
        simp only [not_forall,not_not] at clear
        obtain ⟨other,different,blocks⟩ := clear
        refine ⟨lock,mode,other,rfl,different,blocks,holder_moves orderly sound ?_⟩
        intro nothing_
        rw [nothing_] at blocks
        obtain ⟨_,held,_⟩ := blocks
        cases held
  · exact .inl (holder_moves orderly sound out)

def owed (left : σ → Nat) (party : P) (s : Guarded σ P L) : Nat := left s.base + weight (s.hold party)

theorem move_pays {left : σ → Nat} {paid : ε → Nat} (pays : ∀ s event next, inv s → d.step s event = some next →
      (if d.party event = party then d.cost s event next else 0) + left next ≤ left s + paid event)
    (sound : d.Sound inv s) (moved : d.move s event = some next) :
    (decide (d.of event = party)).toNat + owed left party next ≤ owed left party s + payment paid event := by
  cases move_moved moved with
  | @locks other lock mode out needs clear =>
    by_cases mine : other = party
    · subst mine
      simp [owed,of,weight,out,Nat.add_comm]
    · simp [owed,of,mine,Function.update_of_ne (Ne.symm mine)]
  | @plain access after out needs stepped =>
    have price := pays _ _ _ sound.base stepped
    by_cases mine : d.party access = party
    · subst mine
      simp [cost,needs] at price
      simp [owed,of,payment,Move.access]
      omega
    · simp only [mine,if_false] at price
      simp [owed,of,mine,payment,Move.access]
      omega
  | @within access after lock mode inside needs stepped =>
    have price := pays _ _ _ sound.base stepped
    by_cases mine : d.party access = party
    · subst mine
      cases amid : d.amid after (d.party access)
      · simp [cost,needs,amid] at price
        simp [owed,of,weight,inside,payment,Move.access]
        omega
      · simp [cost,amid] at price
        simp [owed,of,weight,inside,payment,Move.access]
        omega
    · simp only [mine,if_false] at price
      simp [owed,of,mine,Function.update_of_ne (Ne.symm mine),payment,Move.access]
      omega
  | @unlocks other lock mode done =>
    by_cases mine : other = party
    · subst mine
      simp [owed,of,weight,done]
      omega
    · simp [owed,of,mine,Function.update_of_ne (Ne.symm mine)]

theorem run_cost (orderly : d.Orderly inv) {left : σ → Nat} {paid : ε → Nat}
    (pays : ∀ s event next, inv s → d.step s event = some next →
      (if d.party event = party then d.cost s event next else 0) + left next ≤ left s + paid event)
    (owes : ∀ s, inv s → d.needs s party ≠ none → 0 < left s) (sound : d.Sound inv s) (outside : s.hold party = .nothing)
    (path : Machine.run d.move s moves = some next) :
    moves.countP (fun event => d.of event = party) ≤ left s.base + ((moves.filterMap Move.access).map paid).sum := by
  have kept : ∀ s event next, d.Sound inv s → d.move s event = some next → d.Sound inv next :=
    fun _ _ _ sound moved => move_sound orderly sound moved
  have spends : ∀ s event next, d.Sound inv s → d.move s event = some next →
      (decide (d.of event = party)).toNat + owed left party next ≤ owed left party s + payment paid event :=
    fun _ _ _ sound moved => move_pays pays sound moved
  have spent := Machine.run_counts kept spends sound path
  have some_ : 0 < owed left party next := by
    have after := run_sound orderly sound path
    unfold owed
    cases stands : next.hold party with
    | nothing => exact Nat.succ_pos _
    | inside lock mode =>
      have needs := after.named party lock mode stands
      exact Nat.lt_of_lt_of_le (owes next.base after.base (by rw [needs]; nofun)) (Nat.le_add_right _ _)
    | done lock mode => exact Nat.succ_pos _
  have start : owed left party s = left s.base + 1 := by rw [owed,outside,weight]
  rw [payment_sum,start] at spent
  omega

end Moving
end Discipline
end Foundation.Locks
