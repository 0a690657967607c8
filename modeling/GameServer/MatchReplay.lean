import Mathlib.Data.UInt
import GameServer.MatchCourse

namespace GameServer
open Foundation

namespace RuntimeData

-- All of a match but its clock.
def timeless (rt : RuntimeData) : RuntimeData := { rt with tick := 0 }

theorem timeless_patch (rt : RuntimeData) (cmd : BattleCmd) : rt.timeless.patch cmd = rt.patch cmd :=
  shown_patch ⟨rfl,fun _ _ _ _ => rfl⟩

theorem timeless_accepted (rt : RuntimeData) (cmd : BattleCmd) : rt.timeless.Accepted cmd ↔ rt.Accepted cmd := by
  have same : rt.timeless.validateCmd cmd = rt.validateCmd cmd := shown_validate ⟨rfl,fun _ _ _ _ => rfl⟩
  rw [Accepted,same,Accepted]

theorem timeless_patched {rt next : RuntimeData} {p : Patch} (patched : Patched rt p next) :
    Patched rt.timeless p next.timeless :=
  ⟨⟨patched.course.1,rfl,patched.course.2.2⟩,patched.extent,patched.size,patched.tiles,patched.members,patched.player⟩

end RuntimeData

namespace GameRoom
open RuntimeData

def written (room : GameRoom) : Op → List BattleCmd
  | .processCommand _ cmd =>
    match room.cmdHandler.runtime.validateCmd cmd with
    | .ok true => [cmd]
    | _ => []
  | _ => []

def journal : GameRoom × Heap → List Op → List BattleCmd
  | _,[] => []
  | s,op :: rest => s.1.written op ++ match step s op with
    | some next => journal next rest
    | none => []

def elapsed : Op → UInt64
  | .tick deltaMs => deltaMs
  | _ => 0

-- A battle that has come to where the match of the room is.
structure Follows (b : Battle) (room : GameRoom) : Prop where
  runtime : RuntimeData.Alike b.runtime room.cmdHandler.runtime.timeless
  silent : b.endings = []

section Following
variable {room next : GameRoom} {heap after : Heap} {op : Op} {b : Battle}

theorem written_accepted {iteration : Iteration} {cmd : BattleCmd} (accepted : room.cmdHandler.runtime.Accepted cmd) :
    room.written (.processCommand iteration cmd) = [cmd] := by
  have accepted : room.cmdHandler.runtime.validateCmd cmd = .ok true := accepted
  rw [written,accepted]

theorem written_refused {iteration : Iteration} {cmd : BattleCmd} (refused : ¬ room.cmdHandler.runtime.Accepted cmd) :
    room.written (.processCommand iteration cmd) = [] := by
  unfold written
  dsimp only
  split
  · rename_i accepted
    exact absurd accepted refused
  · rfl

theorem written_other (commands : ∀ iteration cmd, op ≠ .processCommand iteration cmd) : room.written op = [] := by
  cases op with
  | processCommand iteration cmd => exact absurd rfl (commands iteration cmd)
  | _ => rfl

theorem elapsed_other (ticks : ∀ deltaMs, op ≠ .tick deltaMs) : elapsed op = 0 := by
  cases op with
  | tick deltaMs => exact absurd rfl (ticks deltaMs)
  | _ => rfl

theorem follows_calm (calm : room.cmdHandler.runtime.Calm) (follows : Follows b room) : b.runtime.Calm := by
  intro id
  rw [← follows.runtime.player]
  exact calm id

theorem follows_kept (follows : Follows b room) (runtime : next.cmdHandler.runtime = room.cmdHandler.runtime) :
    Follows b next := ⟨by rw [runtime]; exact follows.runtime,follows.silent⟩

theorem follows_played {iteration : Iteration} {cmd : BattleCmd} {played : Battle}
    (calm : room.cmdHandler.runtime.Calm) (follows : Follows b room) (accepted : room.cmdHandler.runtime.Accepted cmd)
    (taken : Taken iteration room.cmdHandler.runtime cmd played) (spared : ¬ Battle.LosesBase room.cmdHandler.runtime cmd)
    (runtime : next.cmdHandler.runtime = played.runtime) (replayed : Iteration) :
    b.runtime.Accepted cmd ∧ ∃ reached, b.step ⟨replayed,cmd⟩ = some reached ∧ Follows reached next := by
  have shows := follows.runtime.shows cmd
  have silent : played.endings = [] := by
    rcases Battle.taken_endings calm accepted taken with ⟨loses,_⟩ | ⟨_,none_⟩
    · exact absurd loses spared
    · exact none_
  refine ⟨?_,?_⟩
  · have same := shown_validate shows
    exact same.symm.trans ((timeless_accepted _ cmd).mpr accepted)
  · obtain ⟨reached,stepped⟩ := Battle.step_total b ⟨replayed,cmd⟩
    obtain ⟨patched,winners⟩ := Battle.step_advanced (follows_calm calm follows) stepped
    have patch_eq : b.runtime.patch cmd = room.cmdHandler.runtime.patch cmd := (shown_patch shows).symm.trans (timeless_patch _ cmd)
    rw [patch_eq] at patched winners
    have mirrored := timeless_patched (taken_patched calm accepted taken)
    refine ⟨reached,stepped,?_,?_⟩
    · rw [runtime]
      exact patched_alike follows.runtime patched mirrored
    · have none_ := taken_notices calm accepted taken
      rw [silent] at none_
      rw [← none_,follows.silent] at winners
      exact List.map_eq_nil_iff.mp winners

theorem step_follows (calm : room.cmdHandler.runtime.Calm) (running : room.info.state = .running) (follows : Follows b room)
    (stepped : step (room,heap) op = some (next,after)) (lasts : ¬ Ends room op) :
    next.cmdHandler.runtime.tick = room.cmdHandler.runtime.tick + elapsed op ∧
      ((room.written op = [] ∧ Follows b next) ∨ ∃ cmd, room.written op = [cmd] ∧ b.runtime.Accepted cmd ∧
        ∀ iteration, ∃ reached, b.step ⟨iteration,cmd⟩ = some reached ∧ Follows reached next) := by
  obtain ⟨result,performed⟩ := step_performed stepped
  cases perform_turn performed with
  | aside starts commands ticks dissolves state runtime =>
    rw [runtime,elapsed_other ticks,UInt64.add_zero]
    exact ⟨rfl,.inl ⟨written_other commands,follows_kept follows runtime⟩⟩
  | started idle => exact absurd running idle
  | stillborn failed state kept =>
    rw [kept running]
    exact ⟨(UInt64.add_zero _).symm,.inl ⟨written_other nofun,follows⟩⟩
  | dissolved => exact absurd rfl lasts
  | spurned refused => exact ⟨(UInt64.add_zero _).symm,.inl ⟨written_refused refused,follows⟩⟩
  | @played iteration cmd _ _ played accepted taken state runtime =>
    refine ⟨?_,.inr ⟨cmd,written_accepted accepted,?_⟩⟩
    · rw [runtime,(taken_patched calm accepted taken).course.2.1]
      exact (UInt64.add_zero _).symm
    · have outcome := follows_played calm follows accepted taken lasts runtime
      exact ⟨(outcome iteration).1,fun replayed => (outcome replayed).2⟩
  | ticked => exact ⟨rfl,.inl ⟨written_other nofun,follows.runtime,follows.silent⟩⟩

theorem replay_follows {last : GameRoom} {ops : List Op} (calm : room.cmdHandler.runtime.Calm)
    (running : room.info.state = .running) (follows : Follows b room)
    (path : Machine.run step (room,heap) ops = some (last,after))
    (lasts : Machine.Every step (fun s op _ => ¬ Ends s.1 op) (room,heap) ops) (commands : List Command)
    (logged : commands.map (·.cmd) = journal (room,heap) ops) :
    last.cmdHandler.runtime.tick = room.cmdHandler.runtime.tick + (ops.map elapsed).sum ∧
      Machine.Every Battle.step (fun b c _ => b.runtime.Accepted c.cmd) b commands ∧
      ∃ reached, Machine.run Battle.step b commands = some reached ∧ Follows reached last := by
  induction ops generalizing room heap b commands with
  | nil =>
    cases path
    rw [List.map_eq_nil_iff.mp logged]
    exact ⟨(UInt64.add_zero _).symm,trivial,b,rfl,follows⟩
  | cons op rest ih =>
    obtain ⟨⟨next,heap'⟩,stepped,path⟩ := Option.bind_eq_some_iff.mp path
    obtain ⟨spared,lasts⟩ := lasts (next,heap') stepped
    obtain ⟨clock,outcome⟩ := step_follows calm running follows stepped spared
    have calm' := step_calm calm stepped
    have running' := (step_running calm stepped).mpr (.inr ⟨running,spared⟩)
    rw [journal,stepped] at logged
    have clocks (total : UInt64) : next.cmdHandler.runtime.tick + total = room.cmdHandler.runtime.tick + (elapsed op + total) := by
      rw [clock,UInt64.add_assoc]
    rw [List.map_cons,List.sum_cons,← clocks]
    rcases outcome with ⟨nothing,follows'⟩ | ⟨cmd,one,accepted,played⟩
    · rw [nothing,List.nil_append] at logged
      exact ih calm' running' follows' path lasts commands logged
    · rw [one,List.singleton_append] at logged
      obtain ⟨c,later,rfl,rfl,logged'⟩ := List.map_eq_cons_iff.mp logged
      obtain ⟨reached,played,follows'⟩ := played c.iteration
      obtain ⟨clock',accepting,last',path',follows''⟩ := ih calm' running' follows' path lasts later logged'
      refine ⟨clock',?_,last',by rw [Machine.run_cons,played,Option.bind_some,path'],follows''⟩
      intro other same
      rw [played] at same
      cases same
      exact ⟨accepted,accepting⟩

end Following

-- While a room runs, its match is the one its last start began with the accepted
-- commands since then played on it, in any order that keeps apart only commands
-- on common tiles. The clock is the time since the start.
theorem running_room_replays (info : GameRoomInfo) (lobby : info.state = .lobby) (heap : Heap) (ops : List Op)
    (room : GameRoom) (after : Heap) (path : Machine.run step (create info,heap) ops = some (room,after))
    (running : room.info.state = .running) :
    ∃ earlier op later before started, ops = earlier ++ op :: later ∧
      Machine.run step (create info,heap) earlier = some before ∧ StartsNow before op ∧ step before op = some started ∧
      room.cmdHandler.runtime.tick = (later.map elapsed).sum ∧
      (∀ commands : List Command, commands.map (·.cmd) = journal started later →
        Machine.Every Battle.step (fun b c _ => b.runtime.Accepted c.cmd) ⟨started.1.cmdHandler.runtime,[]⟩ commands) ∧
      ∀ commands : List Command, Traces.Reordered BattleCmd.Apart (journal started later) (commands.map (·.cmd)) →
        ∃ reached, Machine.run Battle.step ⟨started.1.cmdHandler.runtime,[]⟩ commands = some reached ∧ Follows reached room := by
  obtain ⟨earlier,op,later,before,started,split,path',starts,stepped,lasts⟩ := (running_since lobby path).mp running
  obtain ⟨started,heap'⟩ := started
  have calm : started.cmdHandler.runtime.Calm := step_calm (run_calm path') stepped
  have begun := (step_running (run_calm path') stepped).mpr (.inl starts)
  have clock := started_clock starts stepped
  have follows : Follows ⟨started.cmdHandler.runtime,[]⟩ started := by
    refine ⟨?_,rfl⟩
    have same : started.cmdHandler.runtime.timeless = started.cmdHandler.runtime := by
      rw [timeless,← clock]
    rw [same]
    exact .refl _
  have rest : Machine.run step (started,heap') later = some (room,after) := by
    rw [split,Machine.run_append,path',Option.bind_some,Machine.run_cons,stepped,Option.bind_some] at path
    exact path
  have replays := replay_follows calm begun follows rest lasts
  refine ⟨earlier,op,later,before,(started,heap'),split,path',starts,stepped,?_,?_,?_⟩
  · obtain ⟨clock',_⟩ := replays (Battle.keyed (journal (started,heap') later)) (Battle.keyed_cmds _)
    rw [clock',clock,UInt64.zero_add]
  · intro commands logged
    exact (replays commands logged).2.1
  · intro commands order
    obtain ⟨_,_,reached,played,follows'⟩ :=
      replays (Battle.keyed (journal (started,heap') later)) (Battle.keyed_cmds _)
    have order : Traces.Reordered BattleCmd.Apart ((Battle.keyed (journal (started,heap') later)).map (·.cmd))
        (commands.map (·.cmd)) := by rwa [Battle.keyed_cmds]
    have begin_ : (⟨started.cmdHandler.runtime,[]⟩ : Battle).runtime.Calm := calm
    obtain ⟨_,matched,played',mirrored,same⟩ := Battle.reordered_alike begin_ order
    rw [played] at played'
    cases played'
    refine ⟨matched,mirrored,same.runtime.symm.trans follows'.runtime,?_⟩
    have winners := same.winners
    rw [follows'.silent] at winners
    exact List.map_eq_nil_iff.mp winners

theorem duel_replays : ∃ room after started later,
    Machine.run step (create { ownerId := 1, capacity := 4 },Lobby.noInfos) duelCourse = some (room,after) ∧
    room.cmdHandler.runtime.tick = (later.map elapsed).sum ∧
    ∀ commands : List Command, Traces.Reordered BattleCmd.Apart (journal started later) (commands.map (·.cmd)) →
      ∃ reached, Machine.run Battle.step ⟨started.1.cmdHandler.runtime,[]⟩ commands = some reached ∧ Follows reached room := by
  obtain ⟨⟨room,after⟩,path,running⟩ : ∃ reached : GameRoom × Heap,
    Machine.run step (create { ownerId := 1, capacity := 4 },Lobby.noInfos) duelCourse = some reached ∧
      reached.1.info.state = .running := ⟨_,rfl,rfl⟩
  obtain ⟨_,_,later,_,started,_,_,_,_,clock,_,replays⟩ := running_room_replays _ rfl _ _ _ _ path running
  exact ⟨room,after,started,later,path,clock,replays⟩

end GameRoom
end GameServer
