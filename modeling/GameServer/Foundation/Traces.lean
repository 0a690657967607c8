import GameServer.Foundation.Machine

namespace Foundation.Traces
variable {σ ε κ : Type*}

-- Two orders of the same events, one reached from the other by exchanging
-- neighbours that are apart.
inductive Reordered (apart : ε → ε → Prop) : List ε → List ε → Prop where
  | refl (events : List ε) : Reordered apart events events
  | swap {one other : ε} (rest : List ε) (free : apart one other) :
      Reordered apart (one :: other :: rest) (other :: one :: rest)
  | later (first : ε) {events others : List ε} (same : Reordered apart events others) :
      Reordered apart (first :: events) (first :: others)
  | trans {events middle others : List ε} (left : Reordered apart events middle) (right : Reordered apart middle others) :
      Reordered apart events others

-- A machine on whose good states events that are apart commute, up to what
-- `alike` does not see.
structure Commutes (step : σ → ε → Option σ) (good : σ → Prop) (alike : σ → σ → Prop) (apart : ε → ε → Prop) : Prop where
  refl : ∀ s, alike s s
  trans : ∀ {s t u}, alike s t → alike t u → alike s u
  kept : ∀ {s event next}, good s → step s event = some next → good next
  respects : ∀ {s t event next}, good s → good t → alike s t → step s event = some next →
    ∃ after, step t event = some after ∧ alike next after
  diamond : ∀ {s one other middle next}, good s → apart one other → step s one = some middle →
    step middle other = some next →
    ∃ middle' next', step s other = some middle' ∧ step middle' one = some next' ∧ alike next next'

section Runs
variable {step : σ → ε → Option σ} {good : σ → Prop} {alike : σ → σ → Prop} {apart : ε → ε → Prop}
variable {s t reached : σ} {events others : List ε}

theorem run_respects (commutes : Commutes step good alike apart) (goodS : good s) (goodT : good t) (same : alike s t)
    (path : Machine.run step s events = some reached) :
    ∃ matched, Machine.run step t events = some matched ∧ alike reached matched := by
  induction events generalizing s t with
  | nil => cases path; exact ⟨t,rfl,same⟩
  | cons event rest ih =>
    obtain ⟨next,taken,path⟩ := Option.bind_eq_some_iff.mp path
    obtain ⟨after,mirrored,same⟩ := commutes.respects goodS goodT same taken
    obtain ⟨matched,path',same⟩ := ih (commutes.kept goodS taken) (commutes.kept goodT mirrored) same path
    exact ⟨matched,Option.bind_eq_some_iff.mpr ⟨after,mirrored,path'⟩,same⟩

-- The order of events that are apart cannot be told from where a run ends.
theorem run_reordered (commutes : Commutes step good alike apart) (order : Reordered apart events others) (start : good s)
    (path : Machine.run step s events = some reached) :
    ∃ matched, Machine.run step s others = some matched ∧ alike reached matched := by
  induction order generalizing s reached with
  | refl => exact ⟨reached,path,commutes.refl reached⟩
  | @swap one other rest free =>
    obtain ⟨middle,first,path⟩ := Option.bind_eq_some_iff.mp path
    obtain ⟨next,second,path⟩ := Option.bind_eq_some_iff.mp path
    obtain ⟨middle',next',first',second',same⟩ := commutes.diamond start free first second
    have goodNext := commutes.kept (commutes.kept start first) second
    have goodNext' := commutes.kept (commutes.kept start first') second'
    obtain ⟨matched,path',same⟩ := run_respects commutes goodNext goodNext' same path
    refine ⟨matched,?_,same⟩
    rw [Machine.run_cons,first',Option.bind_some,Machine.run_cons,second',Option.bind_some,path']
  | later first _ ih =>
    obtain ⟨next,taken,path⟩ := Option.bind_eq_some_iff.mp path
    obtain ⟨matched,path',same⟩ := ih (commutes.kept start taken) path
    exact ⟨matched,Option.bind_eq_some_iff.mpr ⟨next,taken,path'⟩,same⟩
  | trans _ _ left right =>
    obtain ⟨middle,path',sameLeft⟩ := left start path
    obtain ⟨matched,path'',sameRight⟩ := right start path'
    exact ⟨matched,path'',commutes.trans sameLeft sameRight⟩

end Runs

section Regions
variable {apart : ε → ε → Prop} {region : ε → κ} [DecidableEq κ] {events others : List ε}

theorem reordered_front {pivot : ε} (earlier later : List ε) (free : ∀ event ∈ earlier, apart event pivot) :
    Reordered apart (earlier ++ pivot :: later) (pivot :: (earlier ++ later)) := by
  induction earlier with
  | nil => exact .refl _
  | cons event rest ih =>
    have moved : Reordered apart (event :: rest ++ pivot :: later) (event :: pivot :: (rest ++ later)) :=
      .later event (ih fun other member => free other (List.mem_cons_of_mem _ member))
    exact moved.trans (.swap _ (free event List.mem_cons_self))

theorem reordered_symm (symmetric : ∀ one other, apart one other → apart other one) (order : Reordered apart events others) :
    Reordered apart others events := by
  induction order with
  | refl events => exact .refl events
  | swap rest free => exact .swap rest (symmetric _ _ free)
  | later first _ ih => exact .later first ih
  | trans _ _ left right => exact right.trans left

-- Where events of different regions are apart, only the order within each
-- region matters.
theorem reordered_regions (symmetric : ∀ one other, apart one other → apart other one)
    (across : ∀ one ∈ events, ∀ other ∈ events, region one ≠ region other → apart one other)
    (same : ∀ place, events.filter (region · = place) = others.filter (region · = place)) :
    Reordered apart events others := by
  induction events generalizing others with
  | nil =>
    have empty : others = [] := by
      refine List.eq_nil_iff_forall_not_mem.mpr fun event member => ?_
      have kept : event ∈ others.filter (region · = region event) := List.mem_filter.mpr ⟨member,by simp⟩
      rw [← same] at kept
      cases kept
    rw [empty]
    exact .refl []
  | cons first rest ih =>
    -- `first` is the first event of its region in the other order as well.
    have here := same (region first)
    rw [List.filter_cons_of_pos (by simp)] at here
    obtain ⟨earlier,later,rfl,none_,_,tail⟩ := List.filter_eq_cons_iff.mp here.symm
    have elsewhere : ∀ event ∈ earlier, region event ≠ region first := by
      intro event member atFirst
      exact none_ event member (by simpa using atFirst)
    have listed : ∀ event ∈ earlier, event ∈ first :: rest := by
      intro event member
      have kept : event ∈ (earlier ++ first :: later).filter (region · = region event) :=
        List.mem_filter.mpr ⟨by simp [member],by simp⟩
      rw [← same] at kept
      exact (List.mem_filter.mp kept).1
    have free : ∀ event ∈ earlier, apart event first := fun event member =>
      across event (listed event member) first List.mem_cons_self (elsewhere event member)
    have remaining : ∀ place, rest.filter (region · = place) = (earlier ++ later).filter (region · = place) := by
      intro place
      have before := same place
      rw [List.filter_append]
      by_cases own : region first = place
      · subst own
        have nothing : earlier.filter (region · = region first) = [] :=
          List.filter_eq_nil_iff.mpr fun event member => by simpa using elsewhere event member
        rw [nothing,List.nil_append]
        exact tail.symm
      · rw [List.filter_append,List.filter_cons_of_neg (by simpa using own),
          List.filter_cons_of_neg (by simpa using own)] at before
        exact before
    have order := ih (fun one member other member' =>
      across one (List.mem_cons_of_mem _ member) other (List.mem_cons_of_mem _ member')) remaining
    exact (Reordered.later first order).trans (reordered_symm symmetric (reordered_front earlier later free))

end Regions
end Foundation.Traces
