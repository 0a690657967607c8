import GameServer.SessionTable

namespace GameServer
open Foundation TaskPool

namespace SessionTable

-- The actions that take nothing to the books: of these any number may be pending.
def Action.quiet : Action → Bool
  | .closeSession _ | .close _ | .doClose _ | .endSweep => true
  | _ => false

def Live (s : SessionTable) (session : SessionRef) : Prop := s.manager.sessions.lookup session.id = some session

instance (s : SessionTable) (session : SessionRef) : Decidable (Live s session) := inferInstanceAs (Decidable (_ = _))

-- What the table, the books and the bag of pending actions have to do with each other.
structure Kept (s : SessionTable) (pending : List Action) : Prop where
  integrity : s.manager.Integrity
  named : ∀ id session, s.manager.sessions.lookup id = some session → session.id = id
  real : ∀ session, .emplace session ∈ pending → session.id ≠ 0
  young : ∀ session, .emplace session ∈ pending ∨ session ∈ s.created → session.serial < s.made
  once : ∀ session, pending.count (.emplace session) + s.created.count session ≤ 1
  gone : ∀ session, (s.removed.map Prod.fst).count session + (if s.Live session then 1 else 0) ≤ s.created.count session
  returns : ∀ session, s.closedTrue.count session + pending.count (.returnTrue session) = (s.removed.map Prod.fst).count session
  hooks : ∀ session, s.hooked.count session + pending.count (.callback session) = s.removed.count (session,true)
  answers : ∀ session, session ∈ s.answered ∨ .start session ∈ pending → session ∈ s.created

section Books
variable {s : SessionTable} {before after others : List Action} {session : SessionRef}

theorem kept_quiet (kept : s.Kept before) {manager : SessionManager} {closed : List SessionRef} (integrity : manager.Integrity)
    (sessions : manager.sessions = s.manager.sessions)
    (counts : ∀ action, action.quiet = false → after.count action = before.count action) :
    Kept { s with manager := manager, closed := closed } after := by
  have members : ∀ action, action.quiet = false → (action ∈ after ↔ action ∈ before) := by
    intro action loud
    rw [← List.count_pos_iff,counts action loud,List.count_pos_iff]
  have live : ∀ session, Live { s with manager := manager, closed := closed } session ↔ s.Live session := by
    intro session
    unfold Live
    rw [sessions]
  refine ⟨integrity,?_,?_,?_,?_,?_,?_,?_,?_⟩
  · intro id session found
    exact kept.named id session (sessions ▸ found)
  · intro session member
    exact kept.real session ((members _ rfl).mp member)
  · intro session known
    exact kept.young session (known.imp_left (members _ rfl).mp)
  · intro session
    rw [counts _ rfl]
    exact kept.once session
  · intro session
    simp only [live]
    exact kept.gone session
  · intro session
    rw [counts _ rfl]
    exact kept.returns session
  · intro session
    rw [counts _ rfl]
    exact kept.hooks session
  · intro session known
    exact kept.answers session (known.imp_right (members _ rfl).mp)

theorem popped {action : Action} (kept : s.Kept (action :: others)) :
    (∀ session, .emplace session ∈ others → session.id ≠ 0) ∧
      (∀ session, .emplace session ∈ others ∨ session ∈ s.created → session.serial < s.made) ∧
      (∀ session, others.count (.emplace session) + s.created.count session ≤ 1) ∧
      ∀ session, session ∈ s.answered ∨ .start session ∈ others → session ∈ s.created := by
  refine ⟨?_,?_,?_,?_⟩
  · intro session member
    exact kept.real session (List.mem_cons_of_mem _ member)
  · intro session known
    exact kept.young session (known.imp_left (List.mem_cons_of_mem _))
  · intro session
    have once := kept.once session
    have fewer := List.count_le_count_cons (a := Action.emplace session) (b := action) (l := others)
    omega
  · intro session known
    exact kept.answers session (known.imp_right (List.mem_cons_of_mem _))

theorem emplace_refused (kept : s.Kept (.emplace session :: others)) : s.Kept others := by
  obtain ⟨real,young,once,answers⟩ := popped kept
  refine ⟨kept.integrity,kept.named,real,young,once,kept.gone,?_,?_,answers⟩
  · intro other
    simpa [List.count_cons] using kept.returns other
  · intro other
    simpa [List.count_cons] using kept.hooks other

theorem emplaced_live (free : session.id ∉ s.manager.sessions) {other : SessionRef} {next : SessionTable}
    {beats : UnorderedMap SessionId TimePoint} (entered : next.manager = { s.manager with
      sessions := AList.insert session.id session s.manager.sessions, lastHeartbeatAt := beats }) :
    next.Live other ↔ other = session ∨ s.Live other := by
  have absent : s.manager.sessions.lookup session.id = none := AList.lookup_eq_none.mpr free
  unfold Live
  rw [entered,UnorderedMap.lookup_insert_eq]
  split
  · rename_i here
    rw [here,absent]
    exact ⟨fun same => .inl (Option.some.inj same).symm,fun either => either.elim (fun same => same ▸ rfl) nofun⟩
  · rename_i elsewhere
    exact ⟨.inr,fun either => either.elim (fun same => (elsewhere (same ▸ rfl)).elim) fun live => live⟩

theorem emplaced (kept : s.Kept (.emplace session :: others)) {manager : SessionManager} {now : TimePoint}
    (taken : s.manager.emplace session now = some manager) :
    Kept { s with manager := manager, created := s.created ++ [session] } (.start session :: others) := by
  have real := kept.real session List.mem_cons_self
  have young := kept.young session (.inl List.mem_cons_self)
  have integrity := SessionManager.integrity_emplace kept.integrity taken real
  obtain ⟨room,free,entered⟩ := SessionManager.emplace_cases taken
  have live : ∀ other, Live { s with manager := manager, created := s.created ++ [session] } other ↔
      other = session ∨ s.Live other := fun _ => emplaced_live free entered
  refine ⟨integrity,?_,?_,?_,?_,?_,?_,?_,?_⟩
  · intro id other found
    simp only [entered,UnorderedMap.lookup_insert_eq] at found
    split at found
    · rename_i here
      cases found
      exact here.symm
    · exact kept.named id other found
  · intro other member
    rcases List.mem_cons.mp member with start | member
    · cases start
    · exact kept.real other (List.mem_cons_of_mem _ member)
  · intro other known
    simp only [List.mem_cons,List.mem_append,List.not_mem_nil,or_false,reduceCtorEq,false_or] at known
    rcases known with pending | earlier | rfl
    · exact kept.young other (.inl (List.mem_cons_of_mem _ pending))
    · exact kept.young other (.inr earlier)
    · exact young
  · intro other
    have once := kept.once other
    simp only [List.count_cons,List.count_append,List.count_nil,beq_iff_eq,reduceCtorEq,if_false,Action.emplace.injEq] at once ⊢
    omega
  · intro other
    have gone := kept.gone other
    simp only [live,List.count_append,List.count_singleton,beq_iff_eq]
    by_cases same : other = session
    · subst same
      have absent : ¬ s.Live other := fun live => free (UnorderedMap.mem_of_lookup live)
      rw [if_neg absent] at gone
      rw [if_pos (.inl rfl),if_pos rfl]
      omega
    · simp only [same,Ne.symm same,false_or,if_false]
      exact gone
  · intro other
    simpa [List.count_cons] using kept.returns other
  · intro other
    simpa [List.count_cons] using kept.hooks other
  · intro other known
    have answers := kept.answers other
    simp only [List.mem_cons,List.mem_append,reduceCtorEq,false_or,List.not_mem_nil,or_false,Action.start.injEq] at known answers ⊢
    rcases known with earlier | rfl | pending
    · exact .inl (answers (.inl earlier))
    · exact .inr rfl
    · exact .inl (answers (.inr pending))

theorem forget_lookup (m : SessionManager) (id other : SessionId) :
    (m.forget id).sessions.lookup other = if other = id then none else m.sessions.lookup other :=
  UnorderedMap.lookup_erase_eq _ _ _

theorem forget_named (kept : s.Kept before) (id other : SessionId) (session : SessionRef)
    (found : (s.manager.forget id).sessions.lookup other = some session) : session.id = other := by
  rw [forget_lookup] at found
  split at found
  · cases found
  · exact kept.named other session found

theorem started (kept : s.Kept (.start session :: others)) : Kept { s with answered := s.answered ++ [session] } others := by
  obtain ⟨real,young,once,answers⟩ := popped kept
  refine ⟨kept.integrity,kept.named,real,young,once,kept.gone,?_,?_,?_⟩
  · intro other
    simpa [List.count_cons] using kept.returns other
  · intro other
    simpa [List.count_cons] using kept.hooks other
  · intro other known
    rcases known with answered | pending
    · rcases List.mem_append.mp answered with earlier | last
      · exact answers other (.inl earlier)
      · cases List.mem_singleton.mp last
        exact kept.answers session (.inr List.mem_cons_self)
    · exact answers other (.inr pending)

theorem start_thrown (kept : s.Kept (.start session :: others)) (id : SessionId) :
    Kept { s with manager := s.manager.forget id } others := by
  obtain ⟨real,young,once,answers⟩ := popped kept
  refine ⟨SessionManager.integrity_forget kept.integrity id,forget_named kept id,real,young,once,?_,?_,?_,answers⟩
  · intro other
    have gone := kept.gone other
    by_cases here : other.id = id
    · simp only [Live,forget_lookup,if_pos here,reduceCtorEq,if_false]
      omega
    · simp only [Live,forget_lookup,if_neg here]
      exact gone
  · intro other
    simpa [List.count_cons] using kept.returns other
  · intro other
    simpa [List.count_cons] using kept.hooks other

theorem closed_session {id : SessionId} (kept : s.Kept (.closeSession id :: others))
    (found : s.manager.sessions.lookup id = some session) :
    Kept { s with manager := s.manager.forget id, removed := s.removed ++ [(session,s.manager.onSessionClose)] }
      (.close session :: ((if s.manager.onSessionClose then [.callback session] else []) ++ [.returnTrue session]) ++
        others) := by
  have here : session.id = id := kept.named id session found
  refine ⟨SessionManager.integrity_forget kept.integrity id,forget_named kept id,?_,?_,?_,?_,?_,?_,?_⟩
  · intro other member
    apply kept.real other
    cases handler : s.manager.onSessionClose <;> simpa [handler] using member
  · intro other known
    apply kept.young other
    cases handler : s.manager.onSessionClose <;> simpa [handler] using known
  · intro other
    have once := kept.once other
    cases handler : s.manager.onSessionClose <;> simpa [List.count_cons] using once
  · intro other
    have gone := kept.gone other
    simp only [List.map_append,List.map_singleton,List.count_append,List.count_singleton,beq_iff_eq]
    by_cases place : other.id = id
    · simp only [Live,forget_lookup,place,if_true,reduceCtorEq,if_false]
      by_cases same : session = other
      · subst same
        have live : s.Live session := (congrArg s.manager.sessions.lookup here).trans found
        rw [if_pos live] at gone
        simpa using gone
      · simp only [same,if_false]
        omega
    · have other_one : session ≠ other := fun same => place (same ▸ here)
      simp only [Live,forget_lookup,place,if_false,other_one]
      exact gone
  · intro other
    have returns := kept.returns other
    cases handler : s.manager.onSessionClose <;>
      simp [List.count_cons,List.count_append] at returns ⊢ <;> omega
  · intro other
    have hooks := kept.hooks other
    cases handler : s.manager.onSessionClose <;>
      simp [List.count_cons,List.count_append] at hooks ⊢ <;> omega
  · intro other known
    apply kept.answers other
    cases handler : s.manager.onSessionClose <;> simpa [handler] using known

theorem called_back (kept : s.Kept (.callback session :: others)) : Kept { s with hooked := s.hooked ++ [session] } others := by
  obtain ⟨real,young,once,answers⟩ := popped kept
  refine ⟨kept.integrity,kept.named,real,young,once,kept.gone,?_,?_,answers⟩
  · intro other
    simpa [List.count_cons] using kept.returns other
  · intro other
    have hooks := kept.hooks other
    simp [List.count_cons,List.count_append] at hooks ⊢
    omega

theorem returned_true (kept : s.Kept (.returnTrue session :: others)) :
    Kept { s with closedTrue := s.closedTrue ++ [session] } others := by
  obtain ⟨real,young,once,answers⟩ := popped kept
  refine ⟨kept.integrity,kept.named,real,young,once,kept.gone,?_,?_,answers⟩
  · intro other
    have returns := kept.returns other
    simp [List.count_cons,List.count_append] at returns ⊢
    omega
  · intro other
    simpa [List.count_cons] using kept.hooks other

theorem single_quiet {action : Action} (quiet : action.quiet = true) : ∀ next ∈ [action], next.quiet = true := by
  intro next member
  cases List.mem_singleton.mp member
  exact quiet

theorem quiet_count {more : List Action} (quiet : ∀ action ∈ more, action.quiet = true) {action : Action}
    (loud : action.quiet = false) : more.count action = 0 := by
  apply List.count_eq_zero.mpr
  intro member
  rw [quiet action member] at loud
  cases loud

theorem quiet_counts {action : Action} {goesOn spawned : List Action} (first : action.quiet = true)
    (then_ : ∀ next ∈ goesOn, next.quiet = true) (aside : ∀ next ∈ spawned, next.quiet = true) (other : Action)
    (loud : other.quiet = false) : (goesOn ++ others ++ spawned).count other = (action :: others).count other := by
  have different : action ≠ other := by
    rintro rfl
    rw [first] at loud
    cases loud
  simp only [List.count_append,quiet_count then_ loud,quiet_count aside loud,List.count_cons_of_ne different]
  omega

theorem kept_perm (kept : s.Kept before) (same : before.Perm after) : s.Kept after :=
  kept_quiet kept kept.integrity rfl fun action _ => (same.count_eq action).symm

theorem kept_perform (moment : Moment) (action : Action) (kept : s.Kept (action :: others)) :
    Kept (s.perform moment action).state
      ((s.perform moment action).goesOn ++ others ++ (s.perform moment action).spawns.flatten) := by
  cases action with
  | emplace session =>
    simp only [perform]
    split
    · simpa using emplace_refused kept
    · rename_i manager taken
      simpa using emplaced kept taken
  | start session =>
    simp only [perform]
    split
    · simpa using start_thrown kept session.id
    · simpa using started kept
  | closeSession id =>
    simp only [perform]
    split
    · apply kept_quiet kept kept.integrity rfl
      exact quiet_counts rfl (by simp) (by simp)
    · rename_i session manager taken
      obtain ⟨found,rfl⟩ := SessionManager.remove_cases taken
      simpa using closed_session kept found
  | close session =>
    apply kept_quiet kept kept.integrity rfl
    exact quiet_counts rfl nofun (single_quiet rfl)
  | callback session => simpa [perform] using called_back kept
  | returnTrue session => simpa [perform] using returned_true kept
  | doClose session =>
    simp only [perform]
    split
    · apply kept_quiet kept kept.integrity rfl
      exact quiet_counts rfl (by simp) (by simp)
    · apply kept_quiet kept kept.integrity rfl
      exact quiet_counts rfl (single_quiet rfl) (by simp)
  | endSweep =>
    have sessions : s.manager.endSweep.sessions = s.manager.sessions := by
      unfold SessionManager.endSweep
      split <;> rfl
    have beats : s.manager.endSweep.lastHeartbeatAt = s.manager.lastHeartbeatAt := by
      unfold SessionManager.endSweep
      split <;> rfl
    apply kept_quiet kept (SessionManager.integrity_same kept.integrity sessions beats) sessions
    exact quiet_counts rfl (by simp [perform]) (by simp [perform])

theorem kept_managed (kept : s.Kept before) (manager : SessionManager) (integrity : manager.Integrity)
    (sessions : manager.sessions = s.manager.sessions) : Kept { s with manager := manager } before :=
  kept_quiet kept integrity sessions fun _ _ => rfl

theorem kept_tasked (kept : s.Kept before) {task : List Action} (quiet : ∀ action ∈ task, action.quiet = true) :
    s.Kept (before ++ task) := by
  apply kept_quiet kept kept.integrity rfl
  intro action loud
  rw [List.count_append,quiet_count quiet loud,Nat.add_zero]

theorem unmade (kept : s.Kept before) (id : SessionId) :
    before.count (.emplace ⟨s.made,id⟩) = 0 ∧ s.created.count ⟨s.made,id⟩ = 0 := by
  refine ⟨List.count_eq_zero.mpr fun pending => ?_,List.count_eq_zero.mpr fun created => ?_⟩
  · exact Nat.lt_irrefl _ (kept.young _ (.inl pending))
  · exact Nat.lt_irrefl _ (kept.young _ (.inr created))

theorem kept_made (kept : s.Kept before) {id : SessionId} (real : id ≠ 0) :
    Kept { s with made := s.made + 1 } (before ++ [.emplace ⟨s.made,id⟩]) := by
  obtain ⟨pending,created⟩ := unmade kept id
  refine ⟨kept.integrity,kept.named,?_,?_,?_,kept.gone,?_,?_,?_⟩
  · intro other member
    simp only [List.mem_append,List.mem_singleton,Action.emplace.injEq] at member
    rcases member with earlier | rfl
    · exact kept.real other earlier
    · exact real
  · intro other known
    simp only [List.mem_append,List.mem_singleton,Action.emplace.injEq] at known
    rcases known with (earlier | rfl) | earlier
    · exact Nat.lt_succ_of_lt (kept.young other (.inl earlier))
    · exact Nat.lt_succ_self _
    · exact Nat.lt_succ_of_lt (kept.young other (.inr earlier))
  · intro other
    have once := kept.once other
    by_cases same : other = ⟨s.made,id⟩
    · subst same
      simp [pending,created]
    · have different : Action.emplace ⟨s.made,id⟩ ≠ .emplace other := fun equal => same (Action.emplace.inj equal).symm
      rw [List.count_append,List.count_singleton,if_neg (by simpa using different)]
      exact once
  · intro other
    simpa using kept.returns other
  · intro other
    simpa using kept.hooks other
  · intro other known
    apply kept.answers other
    simpa using known

end Books

end SessionTable
end GameServer
