import GameServer.RunningMatch
import GameServer.TickingState
import GameServer.CommandOrder

namespace GameServer.GameRoom
open Foundation RuntimeData

-- What an operation does to the match of a room. A start that is refused or
-- throws leaves a running match alone.
inductive Turn (room : GameRoom) : Op → Except Thrown RoomReqResult → GameRoom → Prop where
  | aside {op : Op} {result : Except Thrown RoomReqResult} {next : GameRoom}
      (starts : ∀ loadMapData playerId, op ≠ .startGame loadMapData playerId)
      (commands : ∀ iteration cmd, op ≠ .processCommand iteration cmd) (ticks : ∀ deltaMs, op ≠ .tick deltaMs)
      (dissolves : op ≠ .dissolveRoom room.info.ownerId) (state : next.info.state = room.info.state)
      (runtime : next.cmdHandler.runtime = room.cmdHandler.runtime) : Turn room op result next
  | started {loadMapData : StdString → Option MapData} {playerId : UserId} {next : GameRoom}
      (idle : room.info.state ≠ .running) (state : next.info.state = .running) (calm : next.cmdHandler.runtime.Calm)
      (clock : next.cmdHandler.runtime.tick = 0) : Turn room (.startGame loadMapData playerId) (.ok .ok) next
  | stillborn {loadMapData : StdString → Option MapData} {playerId : UserId} {result : Except Thrown RoomReqResult}
      {next : GameRoom} (failed : result ≠ .ok .ok) (state : next.info.state = room.info.state)
      (kept : room.info.state = .running → next = room)
      (calm : room.cmdHandler.runtime.Calm → next.cmdHandler.runtime.Calm) :
      Turn room (.startGame loadMapData playerId) result next
  | dissolved {result : Except Thrown RoomReqResult} {next : GameRoom} (state : next.info.state = .lobby)
      (runtime : next.cmdHandler.runtime = room.cmdHandler.runtime) :
      Turn room (.dissolveRoom room.info.ownerId) result next
  | spurned {iteration : Iteration} {cmd : BattleCmd} {result : Except Thrown RoomReqResult}
      (refused : ¬ room.cmdHandler.runtime.Accepted cmd) : Turn room (.processCommand iteration cmd) result room
  | played {iteration : Iteration} {cmd : BattleCmd} {result : Except Thrown RoomReqResult} {next : GameRoom} {b : Battle}
      (accepted : room.cmdHandler.runtime.Accepted cmd) (taken : Taken iteration room.cmdHandler.runtime cmd b)
      (state : next.info.state = if b.endings = [] then room.info.state else .lobby)
      (runtime : next.cmdHandler.runtime = b.runtime) : Turn room (.processCommand iteration cmd) result next
  | ticked {deltaMs : UInt64} {result : Except Thrown RoomReqResult} :
      Turn room (.tick deltaMs) result { room with cmdHandler := room.cmdHandler.tick deltaMs }

def Ends (room : GameRoom) : Op → Prop
  | .dissolveRoom playerId => playerId = room.info.ownerId
  | .processCommand _ cmd => Battle.LosesBase room.cmdHandler.runtime cmd
  | _ => False

def StartsNow (s : GameRoom × Heap) (op : Op) : Prop :=
  ∃ loadMapData playerId, op = .startGame loadMapData playerId ∧ (s.1.startGame s.2 loadMapData playerId).1 = .ok .ok

section Turns
variable {room next : GameRoom} {heap after : Heap} {op : Op} {result : Except Thrown RoomReqResult}

theorem endings_state (endings : List Ending) : ∀ room : GameRoom,
    (endings.foldl onGameEnd room).cmdHandler.runtime = room.cmdHandler.runtime ∧
      (endings.foldl onGameEnd room).info.state = if endings = [] then room.info.state else .lobby := by
  induction endings with
  | nil => intro room; exact ⟨rfl,rfl⟩
  | cons ending rest ih =>
    intro room
    obtain ⟨runtime,state⟩ := ih (room.onGameEnd ending)
    refine ⟨runtime,state.trans ?_⟩
    rw [if_neg (List.cons_ne_nil ending rest)]
    split <;> rfl

theorem startGame_turn (room : GameRoom) (heap : Heap) (loadMapData : StdString → Option MapData) (playerId : UserId) :
    Turn room (.startGame loadMapData playerId) (room.startGame heap loadMapData playerId).1
      (room.startGame heap loadMapData playerId).2 := by
  have cleared : room.cmdHandler.initGameState.runtime.Calm := fun _ => rfl
  unfold startGame
  split
  · exact .stillborn (fun same => by cases same) rfl (fun _ => rfl) fun calm => calm
  · split
    · exact .stillborn (fun same => by cases same) rfl (fun _ => rfl) fun calm => calm
    · rename_i lobby
      have idle : room.info.state ≠ .running := by simpa [isRunning] using lobby
      split
      · exact .stillborn (fun same => by cases same) rfl (fun _ => rfl) fun calm => calm
      · cases started : room.cmdHandler.initGameState.startGame loadMapData (room.createMatchInfo heap) with
        | mk error handler =>
          have calm := GameCmdHandler.startGame_calm cleared loadMapData (room.createMatchInfo heap)
          rw [started] at calm
          cases error with
          | some error => exact .stillborn (fun same => by cases same) rfl (fun running => absurd running idle) fun _ => calm
          | none =>
            obtain ⟨mapData,_,runtime⟩ := GameCmdHandler.startGame_started started
            refine .started idle rfl ?_ ?_
            · exact (startTicking_runtime handler 50).symm ▸ calm
            · simp only [setRoomState,startTicking_runtime,runtime]

theorem perform_turn (performed : room.perform heap op = some (result,next,after)) : Turn room op result next := by
  cases op with
  | startGame loadMapData playerId => cases performed; exact startGame_turn room heap loadMapData playerId
  | processCommand iteration cmd =>
    obtain ⟨out,played,same⟩ := Option.map_eq_some_iff.mp performed
    cases same
    unfold processCommand at played
    rcases processCommand_cases iteration room.cmdHandler.runtime cmd with ⟨refused,error,outcome⟩ | ⟨accepted,b,outcome,taken⟩
    · rw [outcome] at played
      cases played
      exact .spurned refused
    · rw [outcome] at played
      cases played
      obtain ⟨runtime,state⟩ := endings_state b.endings { room with cmdHandler := { room.cmdHandler with runtime := b.runtime } }
      exact .played accepted taken state runtime
  | tick deltaMs => cases performed; exact .ticked
  | dissolveRoom playerId =>
    cases performed
    unfold dissolveRoom
    split
    · rename_i stranger
      exact .aside nofun nofun nofun (fun same => stranger (by cases same; rfl)) rfl rfl
    · rename_i owner
      rw [not_not.mp owner]
      exact .dissolved rfl rfl
  | _ =>
    cases perform_cases performed <;> exact .aside nofun nofun nofun nofun rfl rfl

theorem turn_calm (calm : room.cmdHandler.runtime.Calm) (turn : Turn room op result next) : next.cmdHandler.runtime.Calm := by
  cases turn with
  | aside _ _ _ _ _ runtime => rwa [runtime]
  | started _ _ calm => exact calm
  | stillborn _ _ _ kept => exact kept calm
  | dissolved _ runtime => rwa [runtime]
  | spurned => exact calm
  | played accepted taken _ runtime =>
    rw [runtime]
    exact Battle.taken_calm calm taken
  | ticked => exact calm

theorem step_performed (stepped : step (room,heap) op = some (next,after)) :
    ∃ result, room.perform heap op = some (result,next,after) := by
  obtain ⟨⟨result,out⟩,performed,rfl⟩ := Option.map_eq_some_iff.mp stepped
  exact ⟨result,performed⟩

theorem step_running (calm : room.cmdHandler.runtime.Calm) (stepped : step (room,heap) op = some (next,after)) :
    next.info.state = .running ↔ StartsNow (room,heap) op ∨ (room.info.state = .running ∧ ¬ Ends room op) := by
  obtain ⟨result,performed⟩ := step_performed stepped
  have others (starts : ∀ loadMapData playerId, op ≠ .startGame loadMapData playerId) : ¬ StartsNow (room,heap) op := by
    rintro ⟨loadMapData,playerId,same,_⟩
    exact starts loadMapData playerId same
  cases perform_turn performed with
  | aside starts commands ticks dissolves state runtime =>
    have lasts : ¬ Ends room op := by
      intro ends
      cases op with
      | dissolveRoom playerId => exact dissolves (congrArg Op.dissolveRoom ends)
      | processCommand iteration cmd => exact commands iteration cmd rfl
      | _ => exact ends
    rw [state,or_iff_right (others starts),and_iff_left lasts]
  | started _ state =>
    have answer := congrArg Prod.fst (Option.some.inj performed)
    exact iff_of_true state (.inl ⟨_,_,rfl,answer⟩)
  | @stillborn loadMapData playerId _ _ failed state =>
    have answer := congrArg Prod.fst (Option.some.inj performed)
    have lasts : ¬ StartsNow (room,heap) (.startGame loadMapData playerId) := by
      rintro ⟨_,_,same,ok⟩
      cases same
      exact failed (answer.symm.trans ok)
    rw [or_iff_right lasts,state]
    exact (and_iff_left fun ends => ends).symm
  | dissolved state =>
    refine iff_of_false (by rw [state]; decide) ?_
    rintro (starts | ⟨_,lasts⟩)
    · exact others nofun starts
    · exact lasts rfl
  | spurned refused =>
    rw [or_iff_right (others nofun),and_iff_left fun ends => refused ends.1]
  | played accepted taken state =>
    rw [or_iff_right (others nofun),state]
    rcases Battle.taken_endings calm accepted taken with ⟨loses,endings⟩ | ⟨keeps,endings⟩
    · rw [endings]
      exact iff_of_false (by simp) fun lasts => lasts.2 loses
    · rw [endings,if_pos rfl]
      exact (and_iff_left keeps).symm
  | ticked => exact ((or_iff_right (others nofun)).trans (and_iff_left fun ends => ends)).symm

theorem step_calm (calm : room.cmdHandler.runtime.Calm) (stepped : step (room,heap) op = some (next,after)) :
    next.cmdHandler.runtime.Calm := by
  obtain ⟨result,performed⟩ := step_performed stepped
  exact turn_calm calm (perform_turn performed)

theorem started_clock (starts : StartsNow (room,heap) op) (stepped : step (room,heap) op = some (next,after)) :
    next.cmdHandler.runtime.tick = 0 := by
  obtain ⟨loadMapData,playerId,rfl,ok⟩ := starts
  have ok : (room.startGame heap loadMapData playerId).1 = .ok .ok := ok
  have turn := startGame_turn room heap loadMapData playerId
  rw [ok] at turn
  obtain rfl : (room.startGame heap loadMapData playerId).2 = next := congrArg Prod.fst (Option.some.inj stepped)
  generalize (room.startGame heap loadMapData playerId).2 = next at turn
  cases turn with
  | aside starts => exact absurd rfl (starts _ _)
  | started _ _ _ clock => exact clock
  | stillborn failed => exact absurd rfl failed

theorem running_since {info : GameRoomInfo} (lobby : info.state = .lobby) {start : Heap} {ops : List Op}
    (path : Machine.run step (create info,start) ops = some (room,after)) :
    room.info.state = .running ↔ ∃ earlier op later before started, ops = earlier ++ op :: later ∧
      Machine.run step (create info,start) earlier = some before ∧ StartsNow before op ∧ step before op = some started ∧
      Machine.Every step (fun s op _ => ¬ Ends s.1 op) started later := by
  have kept : ∀ (s : GameRoom × Heap) op next, s.1.cmdHandler.runtime.Calm → step s op = some next →
      next.1.cmdHandler.runtime.Calm := fun _ _ _ calm stepped => step_calm calm stepped
  have flips : ∀ (s : GameRoom × Heap) op next, s.1.cmdHandler.runtime.Calm → step s op = some next →
      (next.1.info.state = .running ↔ StartsNow s op ∨ (s.1.info.state = .running ∧ ¬ Ends s.1 op)) :=
    fun _ _ _ calm stepped => step_running calm stepped
  have calm : (create info,start).1.cmdHandler.runtime.Calm := fun _ => rfl
  have idle : (create info,start).1.info.state ≠ .running := by
    change info.state ≠ .running
    rw [lobby]
    decide
  exact (Machine.latched_iff kept flips calm path).trans (or_iff_right fun before => idle before.1)

theorem run_calm {info : GameRoomInfo} {start : Heap} {ops : List Op}
    (path : Machine.run step (create info,start) ops = some (room,after)) : room.cmdHandler.runtime.Calm := by
  have kept : ∀ (s : GameRoom × Heap) op next, s.1.cmdHandler.runtime.Calm → step s op = some next →
      next.1.cmdHandler.runtime.Calm := fun _ _ _ calm stepped => step_calm calm stepped
  have calm : (create info,start).1.cmdHandler.runtime.Calm := fun _ => rfl
  exact Machine.run_preserves kept calm path

end Turns

-- A room is in its match exactly from an accepted start on, for as long as no
-- base has been lost in it and its owner has not dissolved the room.
theorem match_lifetime (info : GameRoomInfo) (lobby : info.state = .lobby) (heap : Heap) (ops : List Op)
    (room : GameRoom) (after : Heap) (path : Machine.run step (create info,heap) ops = some (room,after)) :
    (room.info.state = .running ↔ room.cmdHandler.ticking = true) ∧
      (room.info.state = .running ↔ ∃ earlier op later before started, ops = earlier ++ op :: later ∧
        Machine.run step (create info,heap) earlier = some before ∧ StartsNow before op ∧ step before op = some started ∧
        Machine.Every step (fun s op _ => ¬ Ends s.1 op) started later) := by
  refine ⟨?_,running_since lobby path⟩
  have start : (create info).Together := by
    refine iff_of_false ?_ (by decide : ¬ false = true)
    change ¬ info.state = .running
    rw [lobby]
    decide
  have kept : ∀ (s : GameRoom × Heap) op next, s.1.Together → step s op = some next → next.1.Together :=
    fun _ _ _ together stepped => step_together together stepped
  exact Machine.run_preserves kept start path

def duelCourse : List Op := [.joinRoom (some ⟨0,1⟩),.joinRoom (some ⟨1,2⟩),.startGame (fun _ => some Battle.duelMap) 1,
  .processCommand Battle.keyOrder ⟨1,.grow,0,3⟩,.tick 50]

theorem duel_runs : ∃ room after, Machine.run step (create { ownerId := 1, capacity := 4 },Lobby.noInfos) duelCourse =
    some (room,after) ∧ (room.info.state = .running ↔ room.cmdHandler.ticking = true) := by
  obtain ⟨⟨room,after⟩,path⟩ : ∃ reached, Machine.run step (create { ownerId := 1, capacity := 4 },Lobby.noInfos) duelCourse =
    some reached := ⟨_,rfl⟩
  exact ⟨room,after,path,(match_lifetime _ rfl _ _ _ _ path).1⟩

end GameServer.GameRoom
