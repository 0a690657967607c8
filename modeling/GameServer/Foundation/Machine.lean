import Mathlib.Logic.Basic
import Mathlib.Data.List.Basic

namespace Foundation.Machine
variable {σ ε ω : Type*}

-- A partial deterministic machine: `none` is an event the state does not admit.
-- Nondeterminism of the environment is carried by the events themselves.
def run (step : σ → ε → Option σ) : σ → List ε → Option σ
  | s,[] => some s
  | s,event :: rest => (step s event).bind (run step · rest)

-- The law holds of every transition the run takes, with the state before it
-- and the state after it.
def Every (step : σ → ε → Option σ) (law : σ → ε → σ → Prop) : σ → List ε → Prop
  | _,[] => True
  | s,event :: rest => ∀ next, step s event = some next → law s event next ∧ Every step law next rest

def Always (step : σ → ε → Option σ) (good : σ → Prop) (s : σ) (events : List ε) : Prop :=
  ∀ earlier later reached, events = earlier ++ later → run step s earlier = some reached → good reached

def observed {ρ : Type*} (step : σ → ε → Option σ) (see : σ → ε → ρ) : σ → List ε → List ρ
  | _,[] => []
  | s,event :: rest => see s event :: match step s event with
    | some next => observed step see next rest
    | none => []

def recording (step : σ → ε → Option (σ × List ω)) (s : σ × List ω) (event : ε) : Option (σ × List ω) :=
  (step s.1 event).map fun result => (result.1,s.2 ++ result.2)

section Runs
variable {step : σ → ε → Option σ} {law guard : σ → ε → σ → Prop} {good inv : σ → Prop}

@[simp] theorem run_nil (s : σ) : run step s [] = some s := rfl

@[simp] theorem run_cons (s : σ) (event : ε) (rest : List ε) :
    run step s (event :: rest) = (step s event).bind (run step · rest) := rfl

theorem run_append (s : σ) (earlier later : List ε) :
    run step s (earlier ++ later) = (run step s earlier).bind (run step · later) := by
  induction earlier generalizing s with
  | nil => rfl
  | cons event rest ih =>
    simp only [List.cons_append,run_cons,Option.bind_assoc]
    congr 1
    funext next
    exact ih next

theorem run_snoc (s : σ) (earlier : List ε) (event : ε) :
    run step s (earlier ++ [event]) = (run step s earlier).bind (step · event) := by
  rw [run_append]
  congr 1
  funext next
  cases taken : step next event <;> simp [taken]

theorem run_preserves (kept : ∀ s event next, inv s → step s event = some next → inv next)
    {s reached : σ} {events : List ε} (start : inv s) (path : run step s events = some reached) :
    inv reached := by
  induction events generalizing s with
  | nil => cases path; exact start
  | cons event rest ih =>
    obtain ⟨next,taken,path⟩ := Option.bind_eq_some_iff.mp path
    exact ih (kept s event next start taken) path

theorem run_until {lasts other : σ → Prop} (kept : ∀ s event next, inv s → step s event = some next → inv next)
    (ends : ∀ s event next, inv s → lasts s → step s event = some next → lasts next ∨ other next)
    {s reached : σ} {events : List ε} (start : inv s) (holds : lasts s) (path : run step s events = some reached) :
    lasts reached ∨ ∃ earlier later between, events = earlier ++ later ∧ run step s earlier = some between ∧ other between := by
  induction events generalizing s with
  | nil => cases path; exact .inl holds
  | cons event rest ih =>
    obtain ⟨next,taken,path⟩ := Option.bind_eq_some_iff.mp path
    rcases ends s event next start holds taken with still | gone
    · rcases ih (kept s event next start taken) still path with still | ⟨earlier,later,between,rfl,path,gone⟩
      · exact .inl still
      · exact .inr ⟨event :: earlier,later,between,rfl,by rw [run_cons,taken,Option.bind_some,path],gone⟩
    · exact .inr ⟨[event],rest,next,rfl,by rw [run_cons,taken,Option.bind_some,run_nil],gone⟩

theorem always_nil {s : σ} : Always step good s [] ↔ good s := by
  refine ⟨?_,?_⟩
  · intro holds
    exact holds [] [] s rfl rfl
  · intro holds earlier later reached split path
    obtain ⟨rfl,-⟩ := List.append_eq_nil_iff.mp split.symm
    cases path
    exact holds

theorem always_cons {s : σ} {event : ε} {rest : List ε} :
    Always step good s (event :: rest) ↔
      good s ∧ ∀ next, step s event = some next → Always step good next rest := by
  refine ⟨?_,?_⟩
  · intro holds
    refine ⟨holds [] _ s rfl rfl,?_⟩
    intro next taken earlier later reached split path
    exact holds (event :: earlier) later reached (by rw [split]; rfl) (by simp [taken,path])
  · intro holds earlier later reached split path
    obtain ⟨first,others⟩ := holds
    cases earlier with
    | nil => cases path; exact first
    | cons head earlier =>
      obtain ⟨rfl,rfl⟩ := List.cons.inj split
      obtain ⟨next,taken,path⟩ := Option.bind_eq_some_iff.mp path
      exact others next taken earlier later reached rfl path

theorem every_iff {s : σ} {events : List ε} :
    Every step law s events ↔ ∀ earlier event later reached next, events = earlier ++ event :: later →
      run step s earlier = some reached → step reached event = some next → law reached event next := by
  induction events generalizing s with
  | nil => simp [Every]
  | cons event rest ih =>
    refine ⟨?_,?_⟩
    · intro holds earlier head later reached next split path taken
      cases earlier with
      | nil =>
        obtain ⟨rfl,rfl⟩ := List.cons.inj split
        cases path
        exact (holds next taken).1
      | cons first earlier =>
        obtain ⟨rfl,rfl⟩ := List.cons.inj split
        obtain ⟨middle,entered,path⟩ := Option.bind_eq_some_iff.mp path
        exact ih.mp (holds middle entered).2 earlier head later reached next rfl path taken
    · intro holds next taken
      refine ⟨holds [] event rest s next rfl rfl taken,ih.mpr ?_⟩
      intro earlier head later reached after split path
      exact holds (event :: earlier) head later reached after (by rw [split]; rfl) (by simp [taken,path])

theorem always_iff_every {s : σ} {events : List ε} :
    Always step good s events ↔ good s ∧ Every step (fun _ _ next => good next) s events := by
  induction events generalizing s with
  | nil => simp [always_nil,Every]
  | cons event rest ih =>
    rw [always_cons]
    have tails : (∀ next, step s event = some next → Always step good next rest) ↔
        Every step (fun _ _ next => good next) s (event :: rest) :=
      forall₂_congr fun _ _ => ih
    rw [tails]

theorem every_mono (weaker : ∀ s event next, step s event = some next → law s event next → guard s event next)
    {s : σ} {events : List ε} (holds : Every step law s events) : Every step guard s events := by
  induction events generalizing s with
  | nil => trivial
  | cons event rest ih =>
    intro next taken
    exact ⟨weaker s event next taken (holds next taken).1,ih (holds next taken).2⟩

theorem every_and {s : σ} {events : List ε} : Every step law s events ∧ Every step guard s events ↔
    Every step (fun s event next => law s event next ∧ guard s event next) s events := by
  refine ⟨?_,?_⟩
  · rintro ⟨first,second⟩
    rw [every_iff] at *
    intro earlier event later reached next split path taken
    exact ⟨first earlier event later reached next split path taken,second earlier event later reached next split path taken⟩
  · intro both
    exact ⟨every_mono (fun _ _ _ _ holds => holds.1) both,every_mono (fun _ _ _ _ holds => holds.2) both⟩

theorem every_congr (kept : ∀ s event next, inv s → step s event = some next → law s event next → inv next)
    (exact_at : ∀ s event next, inv s → step s event = some next → (law s event next ↔ guard s event next))
    {s : σ} {events : List ε} (start : inv s) : Every step law s events ↔ Every step guard s events := by
  induction events generalizing s with
  | nil => exact Iff.rfl
  | cons event rest ih =>
    refine ⟨?_,?_⟩
    · intro holds next taken
      obtain ⟨first,others⟩ := holds next taken
      exact ⟨(exact_at s event next start taken).mp first,(ih (kept s event next start taken first)).mp others⟩
    · intro holds next taken
      obtain ⟨first,others⟩ := holds next taken
      have lawful := (exact_at s event next start taken).mpr first
      exact ⟨lawful,(ih (kept s event next start taken lawful)).mpr others⟩

-- The exact-condition rule: where, from good states, a step ends in a good
-- state precisely when it meets the guard, the runs that stay good are the
-- runs whose steps all meet it.
theorem always_iff_guarded
    (kept : ∀ s event next, inv s → good s → step s event = some next → good next → inv next)
    (exact_at : ∀ s event next, inv s → good s → step s event = some next → (good next ↔ guard s event next))
    {s : σ} {events : List ε} (start : inv s) (first : good s) :
    Always step good s events ↔ Every step guard s events := by
  have carried : ∀ s event next, inv s ∧ good s → step s event = some next → good next →
      inv next ∧ good next :=
    fun s event next holds taken after => ⟨kept s event next holds.1 holds.2 taken after,after⟩
  have agree : ∀ s event next, inv s ∧ good s → step s event = some next → (good next ↔ guard s event next) :=
    fun s event next holds taken => exact_at s event next holds.1 holds.2 taken
  rw [always_iff_every,and_iff_right first]
  exact every_congr carried agree ⟨start,first⟩

end Runs

section Lockstep
variable {τ : Type*} {step : σ → ε → Option σ} {spec : τ → ε → Option τ} {rel : σ → τ → Prop}

theorem run_lockstep (together : ∀ s t event, rel s t →
      (∃ next after, step s event = some next ∧ spec t event = some after ∧ rel next after) ∨
        (step s event = none ∧ spec t event = none))
    {s : σ} {t : τ} (events : List ε) (start : rel s t) :
    (∃ reached matched, run step s events = some reached ∧ run spec t events = some matched ∧ rel reached matched) ∨
      (run step s events = none ∧ run spec t events = none) := by
  induction events generalizing s t with
  | nil => exact .inl ⟨s,t,rfl,rfl,start⟩
  | cons event rest ih =>
    rw [run_cons,run_cons]
    rcases together s t event start with ⟨next,after,taken,mirrored,related⟩ | ⟨refused,mirrored⟩
    · rw [taken,mirrored]
      exact ih related
    · rw [refused,mirrored]
      exact .inr ⟨rfl,rfl⟩

theorem run_paired {ε' ρ : Type*} {copy : τ → ε' → Option τ} {pair : ε → ε' → Prop} {see : σ → ε → ρ} {look : τ → ε' → ρ}
    (together : ∀ s t event event', rel s t → pair event event' → see s event = look t event' ∧
      ∃ next after, step s event = some next ∧ copy t event' = some after ∧ rel next after)
    {events : List ε} {others : List ε'} (pairs : List.Forall₂ pair events others) {s : σ} {t : τ} (start : rel s t) :
    observed step see s events = observed copy look t others ∧
      ∃ reached matched, run step s events = some reached ∧ run copy t others = some matched ∧ rel reached matched := by
  induction pairs generalizing s t with
  | nil => exact ⟨rfl,s,t,rfl,rfl,start⟩
  | cons paired _ ih =>
    obtain ⟨seen,next,after,taken,mirrored,related⟩ := together _ _ _ _ start paired
    obtain ⟨same,reached,matched,path,path',ends⟩ := ih related
    refine ⟨?_,reached,matched,?_,?_,ends⟩
    · simp only [observed,taken,mirrored,seen,same]
    · rw [run_cons,taken,Option.bind_some,path]
    · rw [run_cons,mirrored,Option.bind_some,path']

end Lockstep

section Abstraction
variable {τ ρ : Type*} {step : σ → ε → Option σ} {see : σ → ε → ρ} {inv : σ → Prop} {s reached middle : σ}

theorem observed_append {earlier : List ε} (later : List ε) (path : run step s earlier = some middle) :
    observed step see s (earlier ++ later) = observed step see s earlier ++ observed step see middle later := by
  induction earlier generalizing s with
  | nil => cases path; rfl
  | cons event rest ih =>
    obtain ⟨next,taken,path⟩ := Option.bind_eq_some_iff.mp path
    simp only [List.cons_append,observed,taken,ih path]

-- A machine whose steps are, in the abstract, those of a specification that is
-- told what is seen of them, comes to where the specification comes.
theorem run_abstracts {view : σ → τ} {serve : τ → ρ → τ} (kept : ∀ s event next, inv s → step s event = some next → inv next)
    (refines : ∀ s event next, inv s → step s event = some next → view next = serve (view s) (see s event))
    {events : List ε} (start : inv s) (path : run step s events = some reached) :
    view reached = (observed step see s events).foldl serve (view s) := by
  induction events generalizing s with
  | nil => cases path; rfl
  | cons event rest ih =>
    obtain ⟨next,taken,path⟩ := Option.bind_eq_some_iff.mp path
    rw [ih (kept s event next start taken) path,refines s event next start taken]
    simp only [observed,taken,List.foldl_cons]

end Abstraction

section Latches
variable {step : σ → ε → Option σ} {inv up : σ → Prop} {sets clears : σ → ε → Prop} {s reached : σ}

theorem latched_iff (kept : ∀ s event next, inv s → step s event = some next → inv next)
    (flips : ∀ s event next, inv s → step s event = some next → (up next ↔ sets s event ∨ (up s ∧ ¬ clears s event)))
    {events : List ε} (start : inv s) (path : run step s events = some reached) :
    up reached ↔ (up s ∧ Every step (fun s event _ => ¬ clears s event) s events) ∨
      ∃ earlier event later before after, events = earlier ++ event :: later ∧ run step s earlier = some before ∧
        sets before event ∧ step before event = some after ∧ Every step (fun s event _ => ¬ clears s event) after later := by
  induction events generalizing s with
  | nil =>
    cases path
    simp [Every]
  | cons event rest ih =>
    obtain ⟨next,taken,path⟩ := Option.bind_eq_some_iff.mp path
    have only : ∀ other, step s event = some other → other = next := fun other same => by
      rw [taken] at same; exact (Option.some.inj same).symm
    rw [ih (kept s event next start taken) path,flips s event next start taken]
    refine ⟨?_,?_⟩
    · rintro (⟨now | ⟨before,spared⟩,others⟩ | ⟨earlier,head,later,before,after,rfl,path',now,taken',others⟩)
      · exact .inr ⟨[],event,rest,s,next,rfl,rfl,now,taken,others⟩
      · refine .inl ⟨before,fun other same => ?_⟩
        rw [only other same]
        exact ⟨spared,others⟩
      · exact .inr ⟨event :: earlier,head,later,before,after,rfl,by rw [run_cons,taken,Option.bind_some,path'],now,taken',others⟩
    · rintro (⟨before,holds⟩ | ⟨earlier,head,later,before,after,split,path',now,taken',others⟩)
      · exact .inl ⟨.inr ⟨before,(holds next taken).1⟩,(holds next taken).2⟩
      · cases earlier with
        | nil =>
          obtain ⟨rfl,rfl⟩ := List.cons.inj split
          cases path'
          rw [only after taken'] at others
          exact .inl ⟨.inl now,others⟩
        | cons first earlier =>
          obtain ⟨rfl,rfl⟩ := List.cons.inj split
          rw [run_cons,taken,Option.bind_some] at path'
          exact .inr ⟨earlier,head,later,before,after,rfl,path',now,taken',others⟩

end Latches

section Recording
variable {step : σ → ε → Option (σ × List ω)}

theorem recording_eq_some {s : σ × List ω} {event : ε} {next : σ × List ω} :
    recording step s event = some next ↔ ∃ out, step s.1 event = some (next.1,out) ∧ next.2 = s.2 ++ out := by
  unfold recording
  refine ⟨?_,?_⟩
  · intro taken
    obtain ⟨⟨state,out⟩,stepped,rfl⟩ := Option.map_eq_some_iff.mp taken
    exact ⟨out,stepped,rfl⟩
  · intro taken
    obtain ⟨out,stepped,same⟩ := taken
    rw [stepped,Option.map_some,← same]

end Recording

end Foundation.Machine
