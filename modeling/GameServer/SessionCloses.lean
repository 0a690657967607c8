import GameServer.ServerRuns
import GameServer.SessionBooks

namespace GameServer
open Foundation TaskPool

namespace SessionTable

def Closing (tasks : List (List Action)) (session : SessionRef) : Prop :=
  .callback session ∈ tasks.flatten ∨ .returnTrue session ∈ tasks.flatten

-- One call returns true for a session removed, and on_session_close_ runs for it
-- once when it held a function then.
structure ClosedOnce (pool : Pool) : Prop where
  unremoved : ∀ session, session ∉ pool.1.removed.map Prod.fst → session ∉ pool.1.closedTrue ∧ session ∉ pool.1.hooked
  once : ∀ session handler, (session,handler) ∈ pool.1.removed →
    pool.1.closedTrue.count session ≤ 1 ∧ pool.1.hooked.count session ≤ 1
  finished : ∀ session handler, (session,handler) ∈ pool.1.removed → ¬ Closing pool.2 session →
    pool.1.closedTrue.count session = 1 ∧ pool.1.hooked.count session = if handler then 1 else 0

structure Sound (pool : Pool) : Prop where
  integrity : pool.1.manager.Integrity
  answered : ∀ session ∈ pool.1.answered, session ∈ pool.1.created
  closedOnce : ClosedOnce pool
  -- every call in progress comes to its end, however the threads are scheduled
  completes : Completes perform pool

-- No entry gives way to another, and what is entered finds its id unused.
structure Unreplaced (before after : SessionTable) : Prop where
  stays : ∀ id session, before.manager.sessions.lookup id = some session →
    after.manager.sessions.lookup id = some session ∨ id ∉ after.manager.sessions
  enters : ∀ session ∈ after.created, session ∉ before.created → session.id ≠ 0 ∧ session.id ∉ before.manager.sessions ∧
    after.manager.sessions.lookup session.id = some session

section Runs
variable {s : SessionTable} {pool next : Pool} {others : List Action}

theorem unreplaced_same {after : SessionTable} (sessions : after.manager.sessions = s.manager.sessions)
    (created : after.created = s.created) : Unreplaced s after := by
  refine ⟨?_,?_⟩
  · intro id session found
    exact .inl (sessions ▸ found)
  · intro session member absent
    exact (absent (created ▸ member)).elim

theorem unreplaced_forget {after : SessionTable} {id : SessionId} (manager : after.manager = s.manager.forget id)
    (created : after.created = s.created) : Unreplaced s after := by
  refine ⟨?_,?_⟩
  · intro other session found
    rw [manager,forget_lookup]
    by_cases here : other = id
    · right
      rw [← AList.lookup_eq_none,forget_lookup,if_pos here]
    · left
      rw [if_neg here]
      exact found
  · intro session member absent
    exact (absent (created ▸ member)).elim

theorem perform_unreplaced (moment : Moment) (action : Action) (kept : s.Kept (action :: others)) :
    Unreplaced s (s.perform moment action).state := by
  cases action with
  | emplace session =>
    simp only [perform]
    split
    · exact unreplaced_same rfl rfl
    · rename_i manager taken
      obtain ⟨room,free,rfl⟩ := SessionManager.emplace_cases taken
      refine ⟨?_,?_⟩
      · intro id other found
        left
        have different : id ≠ session.id := by
          rintro rfl
          exact free (UnorderedMap.mem_of_lookup found)
        rw [UnorderedMap.lookup_insert_eq,if_neg different]
        exact found
      · intro other member absent
        rcases List.mem_append.mp member with earlier | last
        · exact (absent earlier).elim
        · cases List.mem_singleton.mp last
          exact ⟨kept.real session List.mem_cons_self,free,AList.lookup_insert _⟩
  | start session =>
    simp only [perform]
    split
    · exact unreplaced_forget rfl rfl
    · exact unreplaced_same rfl rfl
  | closeSession id =>
    simp only [perform]
    split
    · exact unreplaced_same rfl rfl
    · rename_i session manager taken
      obtain ⟨found,rfl⟩ := SessionManager.remove_cases taken
      exact unreplaced_forget rfl rfl
  | close session => exact unreplaced_same rfl rfl
  | callback session => exact unreplaced_same rfl rfl
  | returnTrue session => exact unreplaced_same rfl rfl
  | doClose session =>
    simp only [perform]
    split <;> exact unreplaced_same rfl rfl
  | endSweep =>
    refine unreplaced_same ?_ rfl
    simp only [perform,SessionManager.endSweep]
    split <;> rfl

theorem kept_spawned (kept : Kept pool.1 pool.2.flatten) (task : List Action) (quiet : ∀ action ∈ task, action.quiet = true) :
    Kept pool.1 (pool.2 ++ [task]).flatten := by
  rw [List.flatten_append,List.flatten_singleton]
  exact kept_tasked kept quiet

theorem step_kept {event : Event} (kept : Kept pool.1 pool.2.flatten) (stepped : step pool event = some next) :
    Kept next.1 next.2.flatten ∧ Unreplaced pool.1 next.1 := by
  cases event with
  | create precondition =>
    cases stepped
    unfold createSession
    have allocated := kept_managed kept pool.1.manager.allocateSessionId.2
      (SessionManager.integrity_same kept.integrity rfl rfl) rfl
    split
    · exact ⟨by simpa using kept,unreplaced_same rfl rfl⟩
    · dsimp only
      split
      · exact ⟨by simpa using allocated,unreplaced_same rfl rfl⟩
      · rename_i real
        exact ⟨by simpa using kept_made allocated real,unreplaced_same rfl rfl⟩
  | close id =>
    cases stepped
    refine ⟨?_,unreplaced_same rfl rfl⟩
    exact kept_spawned kept _ (single_quiet rfl)
  | disconnect session =>
    simp only [step] at stepped
    split at stepped
    · cases stepped
      refine ⟨?_,unreplaced_same rfl rfl⟩
      exact kept_spawned kept _ (single_quiet rfl)
    · cases stepped
  | heartbeat id now =>
    cases stepped
    have sessions : (pool.1.manager.onSessionHeartbeat id now).sessions = pool.1.manager.sessions := by
      unfold SessionManager.onSessionHeartbeat
      split <;> rfl
    have integrity := SessionManager.integrity_heartbeat kept.integrity id now
    exact ⟨kept_managed kept _ integrity sessions,unreplaced_same sessions rfl⟩
  | sweep aborted now order =>
    simp only [step] at stepped
    split at stepped
    · cases stepped
      exact ⟨kept,unreplaced_same rfl rfl⟩
    · split at stepped
      · cases stepped
        refine ⟨?_,unreplaced_same rfl rfl⟩
        apply kept_spawned kept
        intro action member
        rcases List.mem_append.mp member with closing | last
        · obtain ⟨id,expired,rfl⟩ := List.mem_map.mp closing
          rfl
        · cases List.mem_singleton.mp last
          rfl
      · cases stepped
  | ensureSweep =>
    cases stepped
    have same : pool.1.manager.ensureHeartbeatSweepStarted.2.sessions = pool.1.manager.sessions ∧
        pool.1.manager.ensureHeartbeatSweepStarted.2.lastHeartbeatAt = pool.1.manager.lastHeartbeatAt := by
      unfold SessionManager.ensureHeartbeatSweepStarted
      split <;> exact ⟨rfl,rfl⟩
    exact ⟨kept_managed kept _ (SessionManager.integrity_same kept.integrity same.1 same.2) same.1,unreplaced_same same.1 rfl⟩
  | setOnSessionClose handler =>
    cases stepped
    exact ⟨kept_managed kept _ (SessionManager.integrity_same kept.integrity rfl rfl) rfl,unreplaced_same rfl rfl⟩
  | goesOn index moment =>
    refine ⟨?_,?_⟩
    · exact advance_preserves (fun _ _ _ => kept_perm) (fun _ choice action _ => kept_perform choice action) kept stepped
    · obtain ⟨action,others,before,state,after⟩ := advance_pending stepped
      rw [state]
      exact perform_unreplaced moment action (kept_perm kept before)

theorem kept_fresh : Kept fresh.1 fresh.2.flatten := by
  refine ⟨⟨?_,Nat.zero_le _,nofun⟩,?_,nofun,?_,?_,?_,?_,?_,?_⟩
  · intro id
    exact ⟨nofun,nofun⟩
  · intro id session found
    cases found
  · intro session known
    rcases known with pending | created
    · cases pending
    · cases created
  · intro session
    exact Nat.zero_le 1
  · intro session
    exact Nat.le_refl 0
  · intro session
    rfl
  · intro session
    rfl
  · intro session known
    rcases known with answered | pending
    · cases answered
    · cases pending

theorem count_fst_le (removed : List (SessionRef × Bool)) (session : SessionRef) :
    removed.count (session,true) + removed.count (session,false) = (removed.map Prod.fst).count session := by
  induction removed with
  | nil => rfl
  | cons first rest ih =>
    obtain ⟨other,handler⟩ := first
    simp only [List.map_cons,List.count_cons,← ih]
    by_cases same : other = session
    · subst same
      cases handler <;> simp <;> omega
    · simp [same]

theorem kept_closed (kept : Kept pool.1 pool.2.flatten) : ClosedOnce pool := by
  have single : ∀ session, (pool.1.removed.map Prod.fst).count session ≤ 1 := by
    intro session
    have gone := kept.gone session
    have once := kept.once session
    omega
  refine ⟨?_,?_,?_⟩
  · intro session absent
    have returns := kept.returns session
    have hooks := kept.hooks session
    have none_ := List.count_eq_zero.mpr absent
    have split_ := count_fst_le pool.1.removed session
    exact ⟨List.count_eq_zero.mp (by omega),List.count_eq_zero.mp (by omega)⟩
  · intro session handler member
    have returns := kept.returns session
    have hooks := kept.hooks session
    have one := single session
    have split_ := count_fst_le pool.1.removed session
    omega
  · intro session handler member settled
    have returns := kept.returns session
    have hooks := kept.hooks session
    have one := single session
    have split_ := count_fst_le pool.1.removed session
    have listed := List.count_pos_iff.mpr member
    rw [List.count_eq_zero.mpr fun pending => settled (.inr pending)] at returns
    rw [List.count_eq_zero.mpr fun pending => settled (.inl pending)] at hooks
    cases handler with
    | true => exact ⟨by omega,by rw [if_pos rfl]; omega⟩
    | false => exact ⟨by omega,by rw [if_neg nofun]; omega⟩

end Runs

def weigh : Action → Nat
  | .emplace _ => 7
  | .start _ => 1
  | .closeSession _ => 1
  | .close _ => 3
  | .callback _ => 1
  | .returnTrue _ => 1
  | .doClose _ => 2
  | .endSweep => 1

def credit (s : SessionTable) : Nat := 5 * s.manager.sessions.keys.length

theorem forget_length (m : SessionManager) (id : SessionId) :
    (m.forget id).sessions.keys.length = m.sessions.keys.length - if id ∈ m.sessions then 1 else 0 := by
  have keys : (m.forget id).sessions.keys = m.sessions.keys.erase id := AList.keys_erase id m.sessions
  rw [keys]
  split
  · rename_i live
    exact List.length_erase_of_mem live
  · rename_i absent
    rw [List.erase_of_not_mem absent]
    rfl

theorem perform_spends (s : SessionTable) (moment : Moment) (action : Action) :
    credit (s.perform moment action).state + ((s.perform moment action).goesOn.map weigh).sum +
      ((s.perform moment action).spawns.flatten.map weigh).sum < credit s + weigh action := by
  cases action with
  | emplace session =>
    simp only [perform]
    split
    · simp [weigh]
    · rename_i manager taken
      obtain ⟨room,free,rfl⟩ := SessionManager.emplace_cases taken
      have absent : session.id ∉ s.manager.sessions.keys := free
      simp [credit,weigh,List.erase_of_not_mem absent]
      omega
  | start session =>
    simp only [perform]
    split
    · have length := forget_length s.manager session.id
      simp only [credit,weigh,List.map_nil,List.flatten_nil,List.sum_nil]
      omega
    · simp [credit,weigh]
  | closeSession id =>
    simp only [perform]
    split
    · simp [weigh]
    · rename_i session manager taken
      obtain ⟨found,rfl⟩ := SessionManager.remove_cases taken
      have length := forget_length s.manager id
      have live : id ∈ s.manager.sessions := UnorderedMap.mem_of_lookup found
      have some_ : 0 < s.manager.sessions.keys.length := List.length_pos_of_mem live
      rw [if_pos live] at length
      cases s.manager.onSessionClose <;> simp [credit,weigh,length] <;> omega
  | close session => simp [perform,weigh]
  | callback session => simp [perform,weigh,credit]
  | returnTrue session => simp [perform,weigh,credit]
  | doClose session =>
    simp only [perform]
    split <;> simp [credit,weigh]
  | endSweep =>
    have same : s.manager.endSweep.sessions = s.manager.sessions := by
      unfold SessionManager.endSweep
      split <;> rfl
    simp [perform,credit,weigh,same]

theorem kept_sound {pool : Pool} (kept : Kept pool.1 pool.2.flatten) : Sound pool := by
  refine ⟨kept.integrity,?_,kept_closed kept,completes perform_spends pool⟩
  intro session answered
  exact kept.answers session (.inl answered)

theorem session_table_sound (events : List Event) :
    Machine.Always step Sound fresh events ∧
      Machine.Every step (fun before _ after => Unreplaced before.1 after.1) fresh events := by
  refine ⟨?_,?_⟩
  · intro earlier later reached split path
    apply kept_sound
    exact Machine.run_preserves (fun _ _ _ kept stepped => (step_kept kept stepped).1) kept_fresh path
  · rw [Machine.every_iff]
    intro earlier event later reached next split path stepped
    have kept := Machine.run_preserves (fun _ _ _ kept stepped => (step_kept kept stepped).1) kept_fresh path
    exact (step_kept kept stepped).2

-- Two callers close a session whose peer hangs up meanwhile.
example : ((Machine.run step fresh [.setOnSessionClose true,.create true,.goesOn 0 ⟨0,false⟩,.goesOn 0 ⟨0,false⟩,.close 1,.close 1,
      .disconnect ⟨0,1⟩,.goesOn 3 ⟨1,false⟩,.goesOn 1 ⟨1,false⟩,.goesOn 2 ⟨1,false⟩,.goesOn 3 ⟨1,false⟩,.goesOn 1 ⟨1,false⟩,
      .goesOn 1 ⟨1,false⟩,.goesOn 1 ⟨1,false⟩,.goesOn 4 ⟨1,false⟩]).map fun pool =>
    (pool.2.flatten,pool.1.manager.sessions.keys,pool.1.closedTrue,pool.1.hooked)) = some ([],[],[⟨0,1⟩],[⟨0,1⟩]) := by
  decide +kernel

-- The table of the server's own model, whose calls take no other call in between.
structure Mirrors (m : SessionManager) (server : Server) : Prop where
  next : m.nextSessionId = server.nextSessionId
  keys : m.sessions.keys = server.sessions.keys

structure Matched (pool : Pool) (server : Server) : Prop where
  kept : Kept pool.1 pool.2.flatten
  idle : Idle pool.2
  mirrors : Mirrors pool.1.manager server

section Mirroring
variable {m : SessionManager} {server next : Server} {pool : Pool}

end Mirroring

end SessionTable
end GameServer
