import GameServer.Foundation.Machine
import GameServer.Foundation.WaitableTimer
import GameServer.SessionManager

namespace GameServer
open Foundation WaitableTimer

-- How far a run of HandleHeartbeatSweep has come, between its critical sections.
inductive SweepPhase where
  | entered
  | closing (expired : List SessionId)
  | renewing
deriving DecidableEq, Repr

-- A manager with its sweep timer. `starting` counts the callers that have set
-- heartbeat_sweep_running_ and have not scheduled the first sweep yet.
structure SweepChain where
  manager : SessionManager := {}
  timer : List (Wait Unit) := []
  starting : Nat := 0
  sweeps : List SweepPhase := []

namespace SweepChain
open SessionManager

def scheduleHeartbeatSweep (s : SweepChain) : SweepChain := { s with timer := renew s.timer () }

def ensureHeartbeatSweepStarted (s : SweepChain) : SweepChain :=
  let (shouldStart,manager) := s.manager.ensureHeartbeatSweepStarted
  { s with manager, starting := if shouldStart then s.starting + 1 else s.starting }

def closeSession (s : SweepChain) (id : SessionId) : SweepChain :=
  match s.manager.remove id with
  | none => s
  | some (_,manager) => { s with manager }

def onWait (s : SweepChain) (w : Wait Unit) : SweepChain :=
  if w.status = .aborted then s else { s with sweeps := s.sweeps ++ [.entered] }

def sweepOn (s : SweepChain) (place : Nat) (now : TimePoint) (order : List SessionId) : SweepPhase → SweepChain
  | .entered => { s with sweeps := s.sweeps.set place (.closing (s.manager.expiredSessions now order)) }
  | .closing (id :: rest) => { s with sweeps := s.sweeps.set place (.closing rest) }.closeSession id
  | .closing [] =>
    if s.manager.sessions.keys = [] then { s with manager := s.manager.endSweep, sweeps := s.sweeps.eraseIdx place }
    else { s with sweeps := s.sweeps.set place .renewing }
  | .renewing => { s with sweeps := s.sweeps.eraseIdx place }.scheduleHeartbeatSweep

-- CreateSession has its call of EnsureHeartbeatSweepStarted commented out. Here
-- anybody may make it, and sessions come and go as they like.
inductive Event where
  | emplace (session : SessionRef) (now : TimePoint)
  | heartbeat (id : SessionId) (now : TimePoint)
  | closeSession (id : SessionId)
  | ensure
  | schedule
  | expire (place : Nat)
  | runHandler (place : Nat)
  | sweep (place : Nat) (now : TimePoint) (order : List SessionId)

def step (s : SweepChain) : Event → Option SweepChain
  | .emplace session now => (s.manager.emplace session now).map fun manager => { s with manager }
  | .heartbeat id now => some { s with manager := s.manager.onSessionHeartbeat id now }
  | .closeSession id => some (s.closeSession id)
  | .ensure => some s.ensureHeartbeatSweepStarted
  | .schedule => if s.starting = 0 then none else some { s with starting := s.starting - 1 }.scheduleHeartbeatSweep
  | .expire place => (WaitableTimer.expire s.timer place).map fun timer => { s with timer }
  | .runHandler place => (complete s.timer place).map fun out => { s with timer := out.2 }.onWait out.1
  | .sweep place now order => s.sweeps[place]?.map (s.sweepOn place now order)

def Own : Event → Prop
  | .schedule | .expire _ | .runHandler _ | .sweep .. => True
  | _ => False

-- Who is about to bring the next sweep on.
def tokens (s : SweepChain) : Nat := s.starting + s.timer.countP Wait.live + s.sweeps.length

-- The sweep is in one place while it is said to be running, and nowhere else; no
-- wait of it is ever aborted, and it never stands still.
structure OneSweep (s : SweepChain) : Prop where
  one : s.tokens = if s.manager.heartbeatSweepRunning then 1 else 0
  whole : ∀ w ∈ s.timer, w.live = true

section Steps
variable {s next : SweepChain} {event : Event}

theorem emplace_running {manager : SessionManager} {session : SessionRef} {now : TimePoint}
    (emplaced : s.manager.emplace session now = some manager) :
    manager.heartbeatSweepRunning = s.manager.heartbeatSweepRunning := by
  obtain ⟨-,-,rfl⟩ := emplace_cases emplaced
  rfl

theorem heartbeat_running (m : SessionManager) (id : SessionId) (now : TimePoint) :
    (m.onSessionHeartbeat id now).heartbeatSweepRunning = m.heartbeatSweepRunning := by
  unfold onSessionHeartbeat
  split <;> rfl

theorem closeSession_cases (s : SweepChain) (id : SessionId) :
    s.closeSession id = s ∨ s.closeSession id = { s with manager := s.manager.forget id } := by
  unfold closeSession
  split
  · exact .inl rfl
  · rename_i removed
    obtain ⟨-,rfl⟩ := remove_cases removed
    exact .inr rfl

theorem closeSession_absent (s : SweepChain) (id : SessionId) : id ∉ (s.closeSession id).manager.sessions := by
  unfold closeSession
  split
  · rename_i absent
    exact AList.lookup_eq_none.mp (Option.map_eq_none_iff.mp absent)
  · rename_i removed
    obtain ⟨-,rfl⟩ := remove_cases removed
    simp [forget,AList.mem_erase]

theorem alone (good : s.OneSweep) (elsewhere : 0 < s.starting + s.sweeps.length) :
    s.timer = [] ∧ s.starting + s.sweeps.length = 1 ∧ s.manager.heartbeatSweepRunning = true := by
  have one := good.one
  unfold tokens at one
  split at one
  · rename_i running
    have none_ : s.timer.countP Wait.live = 0 := by omega
    refine ⟨?_,by omega,running⟩
    apply List.eq_nil_iff_forall_not_mem.mpr
    intro w member
    exact List.countP_eq_zero.mp none_ w member (good.whole w member)
  · omega

theorem closeSession_good (good : s.OneSweep) (id : SessionId) : (s.closeSession id).OneSweep := by
  rcases closeSession_cases s id with same | same
  · rw [same]
    exact good
  · rw [same]
    exact ⟨good.one,good.whole⟩

theorem ensure_good (good : s.OneSweep) : s.ensureHeartbeatSweepStarted.OneSweep := by
  obtain ⟨one,whole⟩ := good
  unfold ensureHeartbeatSweepStarted SessionManager.ensureHeartbeatSweepStarted
  cases running : s.manager.heartbeatSweepRunning with
  | true =>
    rw [if_pos rfl]
    exact ⟨one,whole⟩
  | false =>
    refine ⟨?_,whole⟩
    rw [running] at one
    simp only [tokens] at one ⊢
    simp only [Bool.false_eq_true,if_false,if_true] at one ⊢
    omega

theorem schedule_good (idle : s.timer = []) (nobody : s.starting = 0) (none_ : s.sweeps = [])
    (running : s.manager.heartbeatSweepRunning = true) : s.scheduleHeartbeatSweep.OneSweep := by
  refine ⟨?_,?_⟩
  · simp only [tokens,scheduleHeartbeatSweep,renew_live,idle,nobody,none_,running]
    rfl
  · intro w member
    simp only [scheduleHeartbeatSweep,renew,idle,cancel,List.map_nil,List.nil_append,List.mem_singleton] at member
    rw [member]
    rfl

theorem onWait_good {w : Wait Unit} {left : List (Wait Unit)} {place : Nat} (good : s.OneSweep)
    (completed : complete s.timer place = some (w,left)) : (onWait { s with timer := left } w).OneSweep := by
  have count := complete_live completed
  obtain ⟨found,-,rest⟩ := complete_eq_some.mp completed
  have live : w.live = true := good.whole w (List.mem_of_getElem? found)
  have unaborted : w.status ≠ .aborted := by simpa [Wait.live] using live
  have one := good.one
  rw [if_pos live] at count
  unfold onWait
  rw [if_neg unaborted]
  refine ⟨?_,?_⟩
  · simp only [tokens,List.length_append,List.length_singleton] at one ⊢
    rw [← one]
    omega
  · intro other member
    rw [rest] at member
    exact good.whole other (List.mem_of_mem_eraseIdx member)

theorem sweepOn_good {place : Nat} {phase : SweepPhase} (good : s.OneSweep) (found : s.sweeps[place]? = some phase)
    (now : TimePoint) (order : List SessionId) : (s.sweepOn place now order phase).OneSweep := by
  obtain ⟨inside,_⟩ := List.getElem?_eq_some_iff.mp found
  obtain ⟨idle,one,running⟩ := alone good (by omega)
  have nobody : s.starting = 0 := by omega
  have erased : s.sweeps.eraseIdx place = [] := by
    apply List.eq_nil_of_length_eq_zero
    rw [List.length_eraseIdx_of_lt inside]
    omega
  have moved (phase : SweepPhase) : OneSweep { s with sweeps := s.sweeps.set place phase } := by
    refine ⟨?_,good.whole⟩
    have same := good.one
    simp only [tokens,List.length_set] at same ⊢
    exact same
  cases phase with
  | entered => exact moved _
  | closing expired =>
    cases expired with
    | cons id rest => exact closeSession_good (moved _) id
    | nil =>
      simp only [sweepOn]
      split
      · rename_i empty
        refine ⟨?_,good.whole⟩
        simp only [tokens,endSweep,empty,idle,nobody,erased]
        rfl
      · exact moved _
  | renewing => exact schedule_good idle nobody erased running

theorem step_good (good : s.OneSweep) (stepped : s.step event = some next) : next.OneSweep := by
  cases event with
  | emplace session now =>
    obtain ⟨manager,emplaced,rfl⟩ := Option.map_eq_some_iff.mp stepped
    refine ⟨?_,good.whole⟩
    rw [emplace_running emplaced]
    exact good.one
  | heartbeat id now =>
    cases stepped
    refine ⟨?_,good.whole⟩
    rw [heartbeat_running]
    exact good.one
  | closeSession id => cases stepped; exact closeSession_good good id
  | ensure => cases stepped; exact ensure_good good
  | schedule =>
    simp only [step] at stepped
    split at stepped
    · cases stepped
    · cases stepped
      obtain ⟨idle,one,running⟩ := alone good (by omega)
      have none_ : s.sweeps = [] := List.eq_nil_of_length_eq_zero (by omega)
      have last : s.starting - 1 = 0 := by omega
      have scheduled : ({ s with starting := s.starting - 1 } : SweepChain).scheduleHeartbeatSweep.OneSweep :=
        schedule_good idle last none_ running
      exact scheduled
  | expire place =>
    obtain ⟨timer,expired,rfl⟩ := Option.map_eq_some_iff.mp stepped
    have one := good.one
    refine ⟨?_,?_⟩
    · simp only [tokens,expire_live expired] at one ⊢
      exact one
    · intro w member
      obtain ⟨tag,found,rfl⟩ := expire_eq_some.mp expired
      rcases List.mem_or_eq_of_mem_set member with old | rfl
      · exact good.whole w old
      · rfl
  | runHandler place =>
    obtain ⟨⟨w,left⟩,completed,rfl⟩ := Option.map_eq_some_iff.mp stepped
    exact onWait_good good completed
  | sweep place now order =>
    obtain ⟨phase,found,rfl⟩ := Option.map_eq_some_iff.mp stepped
    exact sweepOn_good good found now order

theorem fresh_good : OneSweep {} := ⟨rfl,fun _ member => (List.not_mem_nil member).elim⟩

theorem run_good {events : List Event} (path : Machine.run step {} events = some s) : s.OneSweep :=
  Machine.run_preserves (fun _ _ _ good stepped => step_good good stepped) fresh_good path

theorem own_moves (good : s.OneSweep) (running : s.manager.heartbeatSweepRunning = true) :
    ∃ event, Own event ∧ (s.step event).isSome = true := by
  have one := good.one
  rw [if_pos running,tokens] at one
  by_cases starting : s.starting = 0
  · cases sweeps : s.sweeps with
    | cons phase rest => exact ⟨.sweep 0 0 [],trivial,by simp [step,sweeps]⟩
    | nil =>
      have some_ : 0 < s.timer.countP Wait.live := by simp only [sweeps,List.length_nil] at one; omega
      obtain ⟨w,member,live⟩ := List.countP_pos_iff.mp some_
      obtain ⟨place,found⟩ := List.mem_iff_getElem?.mp member
      obtain ⟨tag,status⟩ := w
      cases status with
      | waiting => exact ⟨.expire place,trivial,by simp [step,WaitableTimer.expire,found]⟩
      | expired => exact ⟨.runHandler place,trivial,by simp [step,complete,found]⟩
      | aborted => cases live
  · exact ⟨.schedule,trivial,by simp [step,starting]⟩

theorem step_running (running : s.manager.heartbeatSweepRunning = true) (stepped : s.step event = some next) :
    next.manager.heartbeatSweepRunning = true ∨ next.manager.sessions.keys = [] := by
  have closing (s : SweepChain) (id : SessionId) (running : s.manager.heartbeatSweepRunning = true) :
      (s.closeSession id).manager.heartbeatSweepRunning = true := by
    rcases closeSession_cases s id with same | same <;> rw [same] <;> exact running
  cases event with
  | emplace session now =>
    obtain ⟨manager,emplaced,rfl⟩ := Option.map_eq_some_iff.mp stepped
    exact .inl ((emplace_running emplaced).trans running)
  | heartbeat id now => cases stepped; exact .inl ((heartbeat_running _ _ _).trans running)
  | closeSession id => cases stepped; exact .inl (closing s id running)
  | ensure =>
    cases stepped
    refine .inl ?_
    simp only [ensureHeartbeatSweepStarted,SessionManager.ensureHeartbeatSweepStarted,running,if_true]
  | schedule =>
    simp only [step] at stepped
    split at stepped
    · cases stepped
    · cases stepped; exact .inl running
  | expire place =>
    obtain ⟨timer,expired,rfl⟩ := Option.map_eq_some_iff.mp stepped
    exact .inl running
  | runHandler place =>
    obtain ⟨⟨w,left⟩,completed,rfl⟩ := Option.map_eq_some_iff.mp stepped
    refine .inl ?_
    dsimp only
    unfold onWait
    split <;> exact running
  | sweep place now order =>
    obtain ⟨phase,found,rfl⟩ := Option.map_eq_some_iff.mp stepped
    cases phase with
    | entered => exact .inl running
    | renewing => exact .inl running
    | closing expired =>
      cases expired with
      | cons id rest => exact .inl (closing _ id running)
      | nil =>
        simp only [sweepOn]
        split
        · rename_i empty
          refine .inr ?_
          simp only [endSweep,empty,if_true]
        · exact .inl running

def Listed (s : SweepChain) (id : SessionId) : Prop := ∃ expired, .closing expired ∈ s.sweeps ∧ id ∈ expired

theorem closeSession_listed (id other : SessionId) : Listed (s.closeSession id) other ↔ Listed s other := by
  rcases closeSession_cases s id with same | same
  · rw [same]
  · rw [same]
    exact Iff.rfl

theorem step_listed (good : s.OneSweep) {id : SessionId} (listed : s.Listed id) (stepped : s.step event = some next) :
    next.Listed id ∨ id ∉ next.manager.sessions := by
  cases event with
  | emplace session now =>
    obtain ⟨manager,emplaced,rfl⟩ := Option.map_eq_some_iff.mp stepped
    exact .inl listed
  | heartbeat other now => cases stepped; exact .inl listed
  | closeSession other => cases stepped; exact .inl ((closeSession_listed other id).mpr listed)
  | ensure => cases stepped; exact .inl listed
  | schedule =>
    simp only [step] at stepped
    split at stepped
    · cases stepped
    · cases stepped; exact .inl listed
  | expire place =>
    obtain ⟨timer,expired,rfl⟩ := Option.map_eq_some_iff.mp stepped
    exact .inl listed
  | runHandler place =>
    obtain ⟨⟨w,left⟩,completed,rfl⟩ := Option.map_eq_some_iff.mp stepped
    refine .inl ?_
    dsimp only
    unfold onWait
    split
    · exact listed
    · obtain ⟨expired,member,inside⟩ := listed
      exact ⟨expired,List.mem_append_left _ member,inside⟩
  | sweep place now order =>
    obtain ⟨phase,found,rfl⟩ := Option.map_eq_some_iff.mp stepped
    obtain ⟨expired,member,inside⟩ := listed
    obtain ⟨within,_⟩ := List.getElem?_eq_some_iff.mp found
    obtain ⟨_,one,_⟩ := alone good (by omega)
    -- There is one sweep, and so it is this one.
    obtain ⟨only,alone_⟩ : ∃ only, s.sweeps = [only] := List.length_eq_one_iff.mp (by omega)
    rw [alone_] at found member
    have first : place = 0 := by rw [alone_] at within; simpa using within
    subst first
    rw [List.getElem?_cons_zero,Option.some.injEq] at found
    rw [found] at member
    rw [← List.mem_singleton.mp member]
    cases expired with
    | nil => exact absurd inside List.not_mem_nil
    | cons other rest =>
      rcases List.mem_cons.mp inside with rfl | later
      · exact .inr (closeSession_absent _ _)
      · refine .inl ((closeSession_listed other id).mpr ⟨rest,?_,later⟩)
        simp [alone_]

end Steps

-- Over every interleaving of the critical sections: one sweep at most is waited
-- for, run or about to be started, one exactly while the flag is up, its timer
-- is never cancelled, and there is always something it can do next.
theorem one_sweep (events : List Event) : Machine.Always step (fun s => s.OneSweep ∧
    (s.manager.heartbeatSweepRunning = true → ∃ event, Own event ∧ (s.step event).isSome = true)) {} events := by
  intro earlier later s _ path
  have good := run_good path
  exact ⟨good,own_moves good⟩

-- Once begun, sweeping goes on for as long as there are sessions.
theorem sweep_lasts (earlier later : List Event) (s last : SweepChain) (path : Machine.run step {} earlier = some s)
    (running : s.manager.heartbeatSweepRunning = true) (goesOn : Machine.run step s later = some last)
    (busy : Machine.Always step (fun s => s.manager.sessions.keys ≠ []) s later) :
    last.manager.heartbeatSweepRunning = true ∧ last.tokens = 1 := by
  have up : last.manager.heartbeatSweepRunning = true := by
    rcases Machine.run_until (fun _ _ _ good stepped => step_good good stepped)
      (fun _ _ _ _ running stepped => step_running running stepped) (run_good path) running goesOn with
      up | ⟨before,after,between,split,reached,empty⟩
    · exact up
    · exact absurd empty (busy before after between split reached)
  have one := (Machine.run_preserves (fun _ _ _ good stepped => step_good good stepped) (run_good path) goesOn).one
  rw [if_pos up] at one
  exact ⟨up,one⟩

def oneSession : List Event := [.emplace ⟨0,1⟩ 0,.ensure,.schedule,.expire 0,.runHandler 0]

theorem oneSession_lasts : ∃ s last, Machine.run step {} oneSession = some s ∧
    Machine.run step s [.sweep 0 0 [1],.sweep 0 0 []] = some last ∧ last.manager.heartbeatSweepRunning = true ∧ last.tokens = 1 := by
  obtain ⟨s,path,running⟩ : ∃ s, Machine.run step {} oneSession = some s ∧ s.manager.heartbeatSweepRunning = true := ⟨_,rfl,rfl⟩
  obtain ⟨last,both⟩ : ∃ last, Machine.run step {} (oneSession ++ [.sweep 0 0 [1],.sweep 0 0 []]) = some last := ⟨_,rfl⟩
  rw [Machine.run_append,path,Option.bind_some] at both
  refine ⟨s,last,path,both,?_⟩
  refine sweep_lasts oneSession [.sweep 0 0 [1],.sweep 0 0 []] s last path running both ?_
  cases path
  refine Machine.always_cons.mpr ⟨by decide,?_⟩
  rintro _ ⟨⟩
  refine Machine.always_cons.mpr ⟨by decide,?_⟩
  rintro _ ⟨⟩
  exact Machine.always_nil.mpr (by decide)

-- A session that a sweep's snapshot finds silent is out of the table before that
-- sweep is done with its list.
theorem sweep_finds (events : List Event) (s next : SweepChain) (path : Machine.run step {} events = some s) (place : Nat)
    (now : TimePoint) (order : List SessionId) (entered : s.sweeps[place]? = some .entered)
    (snapshot : s.step (.sweep place now order) = some next) (id : SessionId) (met : id ∈ order)
    (present : id ∈ s.manager.sessions) (last : TimePoint) (heard : s.manager.lastHeartbeatAt.lookup id = some last)
    (silent : now - last > heartbeatTimeout) (later : List Event) (reached : SweepChain)
    (goesOn : Machine.run step next later = some reached) :
    reached.Listed id ∨ ∃ before after between, later = before ++ after ∧ Machine.run step next before = some between ∧
      id ∉ between.manager.sessions := by
  have good := step_good (run_good path) snapshot
  have expired : id ∈ s.manager.expiredSessions now order := by
    simp only [expiredSessions,List.mem_filter,Bool.and_eq_true,decide_eq_true_eq]
    exact ⟨met,present,by simpa [heard] using silent⟩
  have listed : next.Listed id := by
    simp only [step,entered,Option.map_some,Option.some.injEq] at snapshot
    obtain ⟨inside,_⟩ := List.getElem?_eq_some_iff.mp entered
    rw [← snapshot]
    exact ⟨_,List.mem_set inside _,expired⟩
  exact Machine.run_until (fun _ _ _ good stepped => step_good good stepped)
    (fun _ _ _ good listed stepped => step_listed good listed stepped) good listed goesOn

theorem oneSession_found : ∃ s next, Machine.run step {} oneSession = some s ∧
    s.step (.sweep 0 30000000001 [1]) = some next ∧ ∀ later reached, Machine.run step next later = some reached →
      reached.Listed 1 ∨ ∃ before after between, later = before ++ after ∧ Machine.run step next before = some between ∧
        1 ∉ between.manager.sessions := by
  obtain ⟨s,path,entered,present,heard⟩ : ∃ s, Machine.run step {} oneSession = some s ∧ s.sweeps[0]? = some .entered ∧
      1 ∈ s.manager.sessions ∧ s.manager.lastHeartbeatAt.lookup 1 = some 0 := ⟨_,rfl,rfl,by decide,rfl⟩
  obtain ⟨next,snapshot⟩ : ∃ next, s.step (.sweep 0 30000000001 [1]) = some next := by
    simp only [step,entered,Option.map_some]
    exact ⟨_,rfl⟩
  refine ⟨s,next,path,snapshot,?_⟩
  intro later reached goesOn
  exact sweep_finds oneSession s next path 0 30000000001 [1] entered snapshot 1 (by decide) present 0 heard (by decide) later
    reached goesOn

end SweepChain
end GameServer
