import GameServer.SessionTable

namespace GameServer
open Foundation TaskPool

-- A heartbeat that was accepted: the step it came in, and the time.
structure Beat where
  turn : Nat
  time : TimePoint
deriving DecidableEq, Repr

-- The sessions under a steady clock, watched. `heard` are the heartbeats of the
-- session an id stands for, `sweeps` the tasks that are sweeps, each with the
-- step of its snapshot.
structure Watch where
  pool : SessionTable.Pool := SessionTable.fresh
  clock : TimePoint := 0
  turn : Nat := 0
  heard : SessionId → List Beat := fun _ => []
  sweeps : Nat → Option Nat := fun _ => none

namespace Watch
open SessionManager

inductive Event where
  | elapse (duration : Nat)
  | session (event : SessionTable.Event)

-- Clocks are read inside the critical sections, but for the sweep's, which is
-- read before it.
def timely (clock : TimePoint) : SessionTable.Event → Bool
  | .heartbeat _ now => now = clock
  | .sweep _ now _ => now ≤ clock
  | .goesOn _ moment => moment.now = clock
  | _ => true

def manager (s : Watch) : SessionManager := s.pool.1.manager

def opens (s : Watch) (index : Nat) (moment : SessionTable.Moment) : Option SessionId :=
  match s.pool.2[index]? with
  | some (.emplace session :: _) => (s.manager.emplace session moment.now).map fun _ => session.id
  | _ => none

def hears (s : Watch) : SessionTable.Event → SessionId → List Beat
  | .heartbeat id now =>
    if id ∈ s.manager.sessions then Function.update s.heard id (s.heard id ++ [⟨s.turn,now⟩]) else s.heard
  | .goesOn index moment =>
    match s.opens index moment with
    | some id => Function.update s.heard id []
    | none => s.heard
  | _ => s.heard

def marks (s : Watch) : SessionTable.Event → Nat → Option Nat
  | .sweep false _ _ => Function.update s.sweeps s.pool.2.length (some s.turn)
  | _ => s.sweeps

def step (s : Watch) : Event → Option Watch
  | .elapse duration => some { s with clock := s.clock + duration }
  | .session event =>
    if timely s.clock event then (SessionTable.step s.pool event).map fun pool =>
      { s with pool := pool, turn := s.turn + 1, heard := s.hears event, sweeps := s.marks event }
    else none

def Closes (s : Watch) (event : Event) (since : Nat) (id : SessionId) : Prop :=
  ∃ index moment rest, event = .session (.goesOn index moment) ∧ s.sweeps index = some since ∧
    s.pool.2[index]? = some (.closeSession id :: rest) ∧ id ∈ s.manager.sessions

def Old (s : Watch) (beat : Beat) : Prop := s.clock - beat.time > heartbeatTimeout

-- A session that a sweep closes has been silent for longer than the timeout.
def Silent (s : Watch) (event : Event) (_ : Watch) : Prop :=
  ∀ since id, s.Closes event since id → ∀ beat ∈ s.heard id, s.Old beat

-- It has been so since the snapshot.
def SilentSince (s : Watch) (event : Event) (_ : Watch) : Prop :=
  ∀ since id, s.Closes event since id → ∀ beat ∈ s.heard id, since ≤ beat.turn → s.Old beat

-- No sweep still has to close a session that a heartbeat comes in for.
def Undisturbed (s : Watch) (event : Event) (_ : Watch) : Prop :=
  ∀ id now, event = .session (.heartbeat id now) → id ∈ s.manager.sessions →
    ∀ index since task, s.sweeps index = some since → s.pool.2[index]? = some task → .closeSession id ∉ task

-- What a sweep task is: it closes what it has listed, and of that it knows that
-- what came in before its snapshot is old.
structure Sweeping (s : Watch) (since : Nat) (task : List SessionTable.Action) : Prop where
  past : since ≤ s.turn
  tame : ∀ session, .doClose session ∉ task
  listed : ∀ id, .closeSession id ∈ task → ∀ beat ∈ s.heard id, beat.turn < since → s.Old beat

structure Watched (s : Watch) : Prop where
  past : ∀ id, ∀ beat ∈ s.heard id, beat.time ≤ s.clock ∧ beat.turn < s.turn
  last : ∀ id last, id ∈ s.manager.sessions → s.manager.lastHeartbeatAt.lookup id = some last →
    ∀ beat ∈ s.heard id, beat.time ≤ last
  sweeps : ∀ index since, s.sweeps index = some since → ∃ task, s.pool.2[index]? = some task ∧ s.Sweeping since task

def tame : SessionTable.Action → Bool
  | .doClose _ => false
  | .closeSession _ => false
  | _ => true

-- What a sweep still has to close has not been heard since its snapshot.
def Unheard (s : Watch) : Prop := ∀ (index since : Nat) task id, s.sweeps index = some since → s.pool.2[index]? = some task →
  .closeSession id ∈ task → ∀ beat ∈ s.heard id, beat.turn < since

-- What a step leaves: time passes, or nobody is heard and no sweep begins, or a
-- session is heard, or a sweep takes its snapshot.
inductive Stepped (s : Watch) : Event → Watch → Prop where
  | elapsed (duration : Nat) : Stepped s (.elapse duration) { s with clock := s.clock + duration }
  | quiet {event : SessionTable.Event} {pool : SessionTable.Pool} {heard : SessionId → List Beat}
      (fewer : ∀ id, heard id ⊆ s.heard id)
      (beats : ∀ id, id ∈ pool.1.manager.sessions → heard id = [] ∨ (id ∈ s.manager.sessions ∧
        pool.1.manager.lastHeartbeatAt.lookup id = s.manager.lastHeartbeatAt.lookup id))
      (tasks : ∀ (index : Nat) task, s.pool.2[index]? = some task → (∀ session, .doClose session ∉ task) →
        ∃ left, pool.2[index]? = some left ∧ ∀ action ∈ left, action ∈ task ∨ tame action = true) :
      Stepped s (.session event) { s with pool := pool, turn := s.turn + 1, heard := heard }
  | heartbeat {id : SessionId} (live : id ∈ s.manager.sessions) : Stepped s (.session (.heartbeat id s.clock)) { s with
      pool := ({ s.pool.1 with manager := s.manager.onSessionHeartbeat id s.clock },s.pool.2)
      turn := s.turn + 1
      heard := Function.update s.heard id (s.heard id ++ [⟨s.turn,s.clock⟩]) }
  | sweep {now : TimePoint} {order : List SessionId} (early : now ≤ s.clock) : Stepped s (.session (.sweep false now order)) { s with
      pool := (s.pool.1,s.pool.2 ++ [(s.manager.expiredSessions now order).map .closeSession ++ [.endSweep]])
      turn := s.turn + 1
      sweeps := Function.update s.sweeps s.pool.2.length (some s.turn) }

section Steps
variable {s next : Watch}

theorem perform_beats (table : SessionTable) (moment : SessionTable.Moment) (action : SessionTable.Action) {id : SessionId}
    (present : id ∈ (SessionTable.perform table moment action).state.manager.sessions) :
    (∃ session, action = .emplace session ∧ (table.manager.emplace session moment.now).isSome = true ∧ id = session.id) ∨
      (id ∈ table.manager.sessions ∧ (SessionTable.perform table moment action).state.manager.lastHeartbeatAt.lookup id =
        table.manager.lastHeartbeatAt.lookup id) := by
  have forgotten {id other : SessionId} (present : id ∈ (table.manager.forget other).sessions) : id ∈ table.manager.sessions ∧
      (table.manager.forget other).lastHeartbeatAt.lookup id = table.manager.lastHeartbeatAt.lookup id := by
    obtain ⟨different,listed⟩ := AList.mem_erase.mp present
    exact ⟨listed,AList.lookup_erase_ne different⟩
  cases action with
  | emplace session =>
    dsimp only [SessionTable.perform] at present ⊢
    split at present
    · exact .inr ⟨present,rfl⟩
    · rename_i manager emplaced
      have done_ : (table.manager.emplace session moment.now).isSome = true := by rw [emplaced]; rfl
      obtain ⟨-,-,rfl⟩ := emplace_cases emplaced
      by_cases same : id = session.id
      · exact .inl ⟨session,rfl,done_,same⟩
      · exact .inr ⟨((AList.mem_insert _).mp present).resolve_left same,AList.lookup_insert_ne same⟩
  | start session =>
    revert present
    dsimp only [SessionTable.perform]
    split
    · exact fun present => .inr (forgotten present)
    · exact fun present => .inr ⟨present,rfl⟩
  | closeSession other =>
    dsimp only [SessionTable.perform] at present ⊢
    split at present
    · exact .inr ⟨present,rfl⟩
    · rename_i session manager removed
      obtain ⟨-,rfl⟩ := remove_cases removed
      exact .inr (forgotten present)
  | close session => exact .inr ⟨present,rfl⟩
  | callback session => exact .inr ⟨present,rfl⟩
  | returnTrue session => exact .inr ⟨present,rfl⟩
  | doClose session =>
    revert present
    dsimp only [SessionTable.perform]
    split <;> exact fun present => .inr ⟨present,rfl⟩
  | endSweep =>
    revert present
    dsimp only [SessionTable.perform,endSweep]
    split <;> exact fun present => .inr ⟨present,rfl⟩

theorem perform_tame (table : SessionTable) (moment : SessionTable.Moment) {action : SessionTable.Action}
    (calm : ∀ session, action ≠ .doClose session) : ∀ left ∈ (SessionTable.perform table moment action).goesOn, tame left = true := by
  cases action with
  | emplace session =>
    dsimp only [SessionTable.perform]
    split <;> simp [tame]
  | start session =>
    dsimp only [SessionTable.perform]
    split <;> simp
  | closeSession id =>
    dsimp only [SessionTable.perform]
    split
    · simp
    · split <;> simp [tame]
  | close session => simp [SessionTable.perform]
  | callback session => simp [SessionTable.perform]
  | returnTrue session => simp [SessionTable.perform]
  | doClose session => exact (calm session rfl).elim
  | endSweep => simp [SessionTable.perform]

theorem same_quiet {event : SessionTable.Event} {pool : SessionTable.Pool} (sessions : pool.1.manager.sessions = s.manager.sessions)
    (last : pool.1.manager.lastHeartbeatAt = s.manager.lastHeartbeatAt) {more : List (List SessionTable.Action)}
    (tasks : pool.2 = s.pool.2 ++ more) : Stepped s (.session event) { s with pool := pool, turn := s.turn + 1 } := by
  refine .quiet (fun id => List.Subset.refl _) ?_ ?_
  · intro id present
    rw [sessions] at present
    exact .inr ⟨present,by rw [last]⟩
  · intro index task listed _
    obtain ⟨inside,_⟩ := List.getElem?_eq_some_iff.mp listed
    exact ⟨task,by rw [tasks,List.getElem?_append_left inside,listed],fun action member => .inl member⟩

theorem goesOn_quiet {index : Nat} {moment : SessionTable.Moment} {pool : SessionTable.Pool}
    (advanced : advance SessionTable.perform s.pool (index,moment) = some pool) : Stepped s (.session (.goesOn index moment))
      { s with pool := pool, turn := s.turn + 1, heard := s.hears (.goesOn index moment) } := by
  obtain ⟨action,rest,stands,rfl⟩ := advance_eq_some.mp advanced
  dsimp only at stands
  have fewer : ∀ id, s.hears (.goesOn index moment) id ⊆ s.heard id := by
    intro id
    dsimp only [hears]
    cases s.opens index moment with
    | none => exact List.Subset.refl _
    | some opened =>
      dsimp only
      rw [Function.update_apply]
      split
      · exact List.nil_subset _
      · exact List.Subset.refl _
  refine .quiet fewer ?_ ?_
  · intro id present
    rcases perform_beats s.pool.1 moment action present with ⟨session,rfl,emplaced,rfl⟩ | ⟨listed,same⟩
    · obtain ⟨manager,emplaced⟩ := Option.isSome_iff_exists.mp emplaced
      have opened : s.opens index moment = some session.id := by
        unfold opens
        rw [stands]
        exact Option.map_eq_some_iff.mpr ⟨manager,emplaced,rfl⟩
      left
      dsimp only [hears]
      rw [opened]
      exact Function.update_self ..
    · exact .inr ⟨listed,same⟩
  · intro place task listed calm
    refine ⟨_,advance_task _ listed,?_⟩
    intro left member
    split at member
    · rename_i same
      subst same
      cases stands.symm.trans listed
      rcases List.mem_append.mp member with new | old
      · exact .inr (perform_tame s.pool.1 moment (fun session same => calm session (same ▸ List.mem_cons_self ..)) left new)
      · exact .inl (List.mem_cons_of_mem _ old)
    · exact .inl member

theorem session_cases {event : SessionTable.Event} {pool : SessionTable.Pool} (timed : timely s.clock event = true)
    (stepped : SessionTable.step s.pool event = some pool) : Stepped s (.session event)
      { s with pool := pool, turn := s.turn + 1, heard := s.hears event, sweeps := s.marks event } := by
  have unchanged (tasks : List (List SessionTable.Action)) : tasks = tasks ++ [] := (List.append_nil _).symm
  cases event with
  | create precondition =>
    cases stepped
    refine same_quiet ?_ ?_ rfl
    all_goals
      unfold SessionTable.createSession
      split
      · rfl
      · dsimp only
        split <;> rfl
  | close id => cases stepped; exact same_quiet rfl rfl rfl
  | disconnect session =>
    dsimp only [SessionTable.step] at stepped
    split at stepped
    · cases stepped; exact same_quiet rfl rfl rfl
    · cases stepped
  | heartbeat id now =>
    cases stepped
    cases of_decide_eq_true timed
    by_cases live : id ∈ s.manager.sessions
    · have heard : s.hears (.heartbeat id s.clock) = Function.update s.heard id (s.heard id ++ [⟨s.turn,s.clock⟩]) := if_pos live
      rw [heard]
      exact .heartbeat live
    · have heard : s.hears (.heartbeat id s.clock) = s.heard := if_neg live
      have refused : s.manager.onSessionHeartbeat id s.clock = s.manager := if_neg live
      rw [heard]
      exact same_quiet (congrArg SessionManager.sessions refused) (congrArg SessionManager.lastHeartbeatAt refused) (unchanged _)
  | sweep aborted now order =>
    cases aborted with
    | true => cases stepped; exact same_quiet rfl rfl (unchanged _)
    | false =>
      dsimp only [SessionTable.step] at stepped
      rw [if_neg Bool.false_ne_true] at stepped
      split at stepped
      · cases stepped
        exact .sweep (of_decide_eq_true timed)
      · cases stepped
  | ensureSweep =>
    cases stepped
    refine same_quiet ?_ ?_ (unchanged _)
    all_goals
      dsimp only [ensureHeartbeatSweepStarted]
      split <;> rfl
  | setOnSessionClose handler => cases stepped; exact same_quiet rfl rfl (unchanged _)
  | goesOn index moment => exact goesOn_quiet stepped

theorem step_cases {event : Event} (stepped : s.step event = some next) : Stepped s event next := by
  cases event with
  | elapse duration => cases stepped; exact .elapsed duration
  | session event =>
    dsimp only [step] at stepped
    split at stepped
    · rename_i timed
      obtain ⟨pool,moved,rfl⟩ := Option.map_eq_some_iff.mp stepped
      exact session_cases timed moved
    · cases stepped

theorem mem_heard {id other : SessionId} {beat : Beat}
    (member : beat ∈ Function.update s.heard id (s.heard id ++ [⟨s.turn,s.clock⟩]) other) :
    beat ∈ s.heard other ∨ (other = id ∧ beat = ⟨s.turn,s.clock⟩) := by
  rw [Function.update_apply] at member
  split at member
  · rename_i same
    subst same
    rcases List.mem_append.mp member with old | new
    · exact .inl old
    · exact .inr ⟨rfl,List.mem_singleton.mp new⟩
  · exact .inl member

theorem sweeping_after {task left : List SessionTable.Action} {since : Nat} (sweeping : s.Sweeping since task)
    (turns : s.turn ≤ next.turn) (clocks : s.clock ≤ next.clock)
    (beats : ∀ id, ∀ beat ∈ next.heard id, beat.turn < since → beat ∈ s.heard id)
    (actions : ∀ action ∈ left, action ∈ task ∨ tame action = true) : next.Sweeping since left := by
  refine ⟨Nat.le_trans sweeping.past turns,?_,?_⟩
  · intro session member
    rcases actions _ member with old | calm
    · exact sweeping.tame session old
    · cases calm
  · intro id member beat heard before
    rcases actions _ member with old | calm
    · have aged := sweeping.listed id old beat (beats id beat heard before) before
      exact Int.lt_of_lt_of_le aged (Int.sub_le_sub_right clocks _)
    · cases calm

theorem snapshot_old (watched : s.Watched) {now : TimePoint} (early : now ≤ s.clock) {order : List SessionId} {id : SessionId}
    (listed : id ∈ s.manager.expiredSessions now order) : ∀ beat ∈ s.heard id, s.Old beat := by
  intro beat member
  obtain ⟨-,expired⟩ := List.mem_filter.mp listed
  obtain ⟨live,aged⟩ := Bool.and_eq_true_iff.mp expired
  obtain ⟨last,found,aged⟩ := (Option.any_eq_true ..).mp aged
  have before := watched.last id last (of_decide_eq_true live) found beat member
  have silent : heartbeatTimeout < now - last := of_decide_eq_true aged
  exact Int.lt_of_lt_of_le silent (Int.sub_le_sub early before)

theorem step_watched {event : Event} (watched : s.Watched) (stepped : Stepped s event next) : next.Watched := by
  cases stepped with
  | elapsed duration =>
    have later : s.clock ≤ s.clock + duration := Int.le_add_of_nonneg_right (Int.natCast_nonneg duration)
    refine ⟨?_,watched.last,?_⟩
    · intro id beat member
      obtain ⟨early,before⟩ := watched.past id beat member
      exact ⟨Int.le_trans early later,before⟩
    · intro index since swept
      obtain ⟨task,listed,sweeping⟩ := watched.sweeps index since swept
      exact ⟨task,listed,sweeping_after sweeping le_rfl later (fun _ _ member _ => member) fun _ member => .inl member⟩
  | quiet fewer beats tasks =>
    refine ⟨?_,?_,?_⟩
    · intro id beat member
      obtain ⟨early,before⟩ := watched.past id beat (fewer id member)
      exact ⟨early,Nat.lt_succ_of_lt before⟩
    · intro id last present found beat member
      rcases beats id present with none_ | ⟨listed,same⟩
      · dsimp only at member
        rw [none_] at member
        cases member
      · exact watched.last id last listed (same.symm.trans found) beat (fewer id member)
    · intro index since swept
      obtain ⟨task,listed,sweeping⟩ := watched.sweeps index since swept
      obtain ⟨left,there,actions⟩ := tasks index task listed sweeping.tame
      exact ⟨left,there,sweeping_after sweeping (Nat.le_succ _) (Int.le_refl _) (fun id beat member _ => fewer id member) actions⟩
  | @heartbeat id live =>
    refine ⟨?_,?_,?_⟩
    · intro other beat member
      rcases mem_heard member with old | ⟨-,rfl⟩
      · obtain ⟨early,before⟩ := watched.past other beat old
        exact ⟨early,Nat.lt_succ_of_lt before⟩
      · exact ⟨Int.le_refl _,Nat.lt_succ_self _⟩
    · intro other last present found beat member
      have written : s.manager.onSessionHeartbeat id s.clock =
          { s.manager with lastHeartbeatAt := AList.insert id s.clock s.manager.lastHeartbeatAt } := if_pos live
      change other ∈ (s.manager.onSessionHeartbeat id s.clock).sessions at present
      change (s.manager.onSessionHeartbeat id s.clock).lastHeartbeatAt.lookup other = some last at found
      rw [written] at present found
      rw [UnorderedMap.lookup_insert_eq] at found
      have early : beat.time ≤ s.clock := by
        rcases mem_heard member with old | ⟨-,rfl⟩
        · exact (watched.past other beat old).1
        · exact Int.le_refl _
      split at found
      · cases found
        exact early
      · rename_i different
        exact watched.last other last present found beat ((mem_heard member).resolve_right fun new => different new.1)
    · intro index since swept
      obtain ⟨task,listed,sweeping⟩ := watched.sweeps index since swept
      refine ⟨task,listed,sweeping_after sweeping (Nat.le_succ _) (Int.le_refl _) ?_ fun _ member => .inl member⟩
      -- The newest beat is no earlier than any snapshot.
      intro other beat member before
      rcases mem_heard member with old | ⟨-,rfl⟩
      · exact old
      · exact absurd sweeping.past (Nat.not_le.mpr before)
  | @sweep now order early =>
    refine ⟨?_,watched.last,?_⟩
    · intro id beat member
      obtain ⟨early,before⟩ := watched.past id beat member
      exact ⟨early,Nat.lt_succ_of_lt before⟩
    · intro index since swept
      dsimp only at swept
      rw [Function.update_apply] at swept
      split at swept
      · rename_i same
        cases swept
        subst same
        refine ⟨_,List.getElem?_concat_length,Nat.le_succ _,?_,?_⟩
        · intro session member
          simp at member
        · intro id member beat heard _
          exact snapshot_old watched early (by simpa using member) beat heard
      · obtain ⟨task,listed,sweeping⟩ := watched.sweeps index since swept
        obtain ⟨inside,_⟩ := List.getElem?_eq_some_iff.mp listed
        refine ⟨task,(List.getElem?_append_left inside).trans listed,?_⟩
        exact sweeping_after sweeping (Nat.le_succ _) (Int.le_refl _) (fun _ _ member _ => member) fun _ member => .inl member

theorem step_unheard {event : Event} (watched : s.Watched) (unheard : s.Unheard) (stepped : Stepped s event next)
    (undisturbed : Undisturbed s event next) : next.Unheard := by
  intro index since task id swept listed closes beat member
  cases stepped with
  | elapsed duration => exact unheard index since task id swept listed closes beat member
  | quiet fewer beats tasks =>
    obtain ⟨before,stands,sweeping⟩ := watched.sweeps index since swept
    obtain ⟨left,there,actions⟩ := tasks index before stands sweeping.tame
    cases there.symm.trans listed
    rcases actions _ closes with old | calm
    · exact unheard index since before id swept stands old beat (fewer id member)
    · cases calm
  | @heartbeat other live =>
    rcases mem_heard member with old | ⟨rfl,-⟩
    · exact unheard index since task id swept listed closes beat old
    · exact (undisturbed id s.clock rfl live index since task swept listed closes).elim
  | sweep early =>
    dsimp only at swept
    rw [Function.update_apply] at swept
    split at swept
    · cases swept
      exact (watched.past id beat member).2
    · obtain ⟨before,stands,_⟩ := watched.sweeps index since swept
      obtain ⟨inside,_⟩ := List.getElem?_eq_some_iff.mp stands
      rw [List.getElem?_append_left inside] at listed
      exact unheard index since task id swept listed closes beat member

theorem closes_sweeping {event : Event} {since : Nat} {id : SessionId} (watched : s.Watched) (closes : s.Closes event since id) :
    ∃ index rest, s.sweeps index = some since ∧ s.pool.2[index]? = some (.closeSession id :: rest) ∧
      s.Sweeping since (.closeSession id :: rest) := by
  obtain ⟨index,_,rest,-,swept,stands,-⟩ := closes
  obtain ⟨task,listed,sweeping⟩ := watched.sweeps index since swept
  cases stands.symm.trans listed
  exact ⟨index,rest,swept,stands,sweeping⟩

theorem silent_since {event : Event} (watched : s.Watched) : Silent s event next ↔ SilentSince s event next := by
  refine ⟨?_,?_⟩
  · intro silent since id closes beat member _
    exact silent since id closes beat member
  · intro silent since id closes beat member
    by_cases before : beat.turn < since
    · obtain ⟨_,_,-,-,sweeping⟩ := closes_sweeping watched closes
      exact sweeping.listed id (List.mem_cons_self ..) beat member before
    · exact silent since id closes beat member (Nat.le_of_not_lt before)

theorem unheard_silent {event : Event} (watched : s.Watched) (unheard : s.Unheard) : SilentSince s event next := by
  intro since id closes beat member late
  obtain ⟨index,rest,swept,stands,-⟩ := closes_sweeping watched closes
  exact absurd (unheard index since _ id swept stands (List.mem_cons_self ..) beat member) (Nat.not_lt.mpr late)

end Steps

def start : Watch := {}

theorem start_watched : start.Watched := ⟨nofun,nofun,nofun⟩

-- Over every interleaving: what matters is only what a session hears between a
-- sweep's snapshot and its close, and nothing goes wrong while it hears nothing then.
theorem silent_exact (events : List Event) :
    (Machine.Every step Silent start events ↔ Machine.Every step SilentSince start events) ∧
      (Machine.Every step Undisturbed start events → Machine.Every step Silent start events) := by
  have kept : ∀ (s : Watch) event next, s.Watched → s.step event = some next → Silent s event next → next.Watched :=
    fun _ _ _ watched stepped _ => step_watched watched (step_cases stepped)
  have exact_at : ∀ (s : Watch) event next, s.Watched → s.step event = some next →
      (Silent s event next ↔ SilentSince s event next) := fun _ _ _ watched _ => silent_since watched
  refine ⟨Machine.every_congr kept exact_at start_watched,?_⟩
  intro undisturbed
  have carried : ∀ (s : Watch) event next, s.Watched ∧ s.Unheard → s.step event = some next → Undisturbed s event next →
      next.Watched ∧ next.Unheard := fun _ _ _ holds stepped guard =>
    ⟨step_watched holds.1 (step_cases stepped),step_unheard holds.1 holds.2 (step_cases stepped) guard⟩
  have silent_at : ∀ (s : Watch) event next, s.Watched ∧ s.Unheard → s.step event = some next →
      (Undisturbed s event next ↔ Undisturbed s event next ∧ Silent s event next) := by
    intro s event next holds _
    refine ⟨fun guard => ⟨guard,?_⟩,And.left⟩
    exact (silent_since holds.1).mpr (unheard_silent holds.1 holds.2)
  have both := (Machine.every_congr carried silent_at ⟨start_watched,nofun⟩).mp undisturbed
  exact Machine.every_mono (fun _ _ _ _ holds => holds.2) both

def lateBeat : List Event := [
  .session (.create true),
  .session (.goesOn 0 ⟨0,false⟩),
  .elapse 31000000000,
  .session (.sweep false 31000000000 [1]),
  .session (.heartbeat 1 31000000000)]

-- A session silent for 31 seconds is listed, is heard again, and is closed all the same.
theorem heard_again_closed : ¬ Machine.Every step Silent start (lateBeat ++ [.session (.goesOn 1 ⟨31000000000,false⟩)]) := by
  intro silent
  have seen : (Machine.run step start lateBeat).bind (fun s => (s.step (.session (.goesOn 1 ⟨31000000000,false⟩))).map fun _ =>
      (s.sweeps 1,s.pool.2[1]?,decide (1 ∈ s.manager.sessions),s.heard 1,s.clock)) =
      some (some 2,some [.closeSession 1,.endSweep],true,[⟨3,31000000000⟩],31000000000) := by decide +kernel
  obtain ⟨s,path,facts⟩ := Option.bind_eq_some_iff.mp seen
  obtain ⟨next,stepped,facts⟩ := Option.map_eq_some_iff.mp facts
  simp only [Prod.mk.injEq,decide_eq_true_eq] at facts
  obtain ⟨swept,stands,live,heard,clock⟩ := facts
  have law := Machine.every_iff.mp silent lateBeat _ [] s next rfl path stepped
  have old := law 2 1 ⟨1,_,_,rfl,swept,stands,live⟩ ⟨3,31000000000⟩ (by rw [heard]; exact List.mem_singleton_self _)
  unfold Old at old
  rw [clock] at old
  exact absurd old (by decide)

end Watch
end GameServer
