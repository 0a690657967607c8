import GameServer.TickingState
import GameServer.RunningMatch

namespace GameServer.GameRoom
open Foundation RuntimeData

-- The room plays the map it has selected, with its members for the players.
structure Playing (room next : GameRoom) (loadMapData : StdString → Option MapData) : Prop where
  state : next.info.state = .running
  ticking : next.cmdHandler.ticking = true
  named : next.cmdHandler.runtime.mapName = room.info.selectedMapPath
  loaded : loadMapData room.info.selectedMapPath = some next.cmdHandler.runtime.mapData
  players : ∀ id, id ∈ next.cmdHandler.runtime.players ↔ id ∈ room.memberIds
  members : next.group = room.group

structure Untouched (room next : GameRoom) : Prop where
  state : next.info.state = room.info.state
  ticking : next.cmdHandler.ticking = room.cmdHandler.ticking
  runtime : next.cmdHandler.runtime = room.cmdHandler.runtime

def LacksMap (room : GameRoom) (loadMapData : StdString → Option MapData) (playerId : UserId) : Prop :=
  playerId = room.info.ownerId ∧ room.isRunning = false ∧ 2 ≤ room.group.getMemberCount ∧
    loadMapData room.info.selectedMapPath = none

inductive Starting (room : GameRoom) (loadMapData : StdString → Option MapData) (playerId : UserId) :
    Except Thrown RoomReqResult × GameRoom → Prop where
  | refused {result : RoomReqResult} (able : ¬ room.LacksMap loadMapData playerId) (not_ok : result ≠ .ok) :
      Starting room loadMapData playerId (.ok result,room)
  | thrown {error : Thrown} {next : GameRoom} (lacks : room.LacksMap loadMapData playerId) :
      Starting room loadMapData playerId (.error error,next)
  | started {next : GameRoom} (able : ¬ room.LacksMap loadMapData playerId) (playing : Playing room next loadMapData) :
      Starting room loadMapData playerId (.ok .ok,next)

section Starts
variable {room : GameRoom}

theorem startGame_starting (room : GameRoom) (heap : Heap) (loadMapData : StdString → Option MapData) (playerId : UserId) :
    Starting room loadMapData playerId (room.startGame heap loadMapData playerId) := by
  unfold startGame
  by_cases stranger : playerId ≠ room.info.ownerId
  · rw [if_pos stranger]
    exact .refused (fun lacks => stranger lacks.1) nofun
  · rw [if_neg stranger]
    by_cases running : room.isRunning = true
    · rw [if_pos running]
      exact .refused (fun lacks => by simp [lacks.2.1] at running) nofun
    · rw [if_neg running]
      by_cases few : room.group.getMemberCount < 2
      · rw [if_pos few]
        exact .refused (fun lacks => Nat.not_lt.mpr lacks.2.2.1 few) nofun
      · rw [if_neg few]
        unfold GameCmdHandler.startGame
        have path : (room.createMatchInfo heap).selectedMapPath = room.info.selectedMapPath := rfl
        cases loaded : loadMapData room.info.selectedMapPath with
        | none =>
          rw [path,loaded]
          exact .thrown ⟨not_not.mp stranger,by simpa using running,Nat.not_lt.mp few,loaded⟩
        | some mapData =>
          rw [path,loaded]
          refine .started (fun lacks => by simp [lacks.2.2.2] at loaded) ⟨rfl,startTicking_ticking _ 50,?_,?_,?_,rfl⟩
          · simp only [setRoomState,startTicking_runtime]
          · simp only [setRoomState,startTicking_runtime]
            exact loaded
          · intro id
            simp only [setRoomState,startTicking_runtime]
            have emptied : room.cmdHandler.initGameState.runtime.players = ∅ := rfl
            rw [emptied,seatPlayers_keys,← matchInfo_ids room heap]
            rfl

end Starts
end GameServer.GameRoom

namespace GameServer.Lobby
open Foundation

-- The call answers, and either the match is on or the room is as it was.
def AllOrNothing (w : Lobby) (roomId : RoomId) (playerId : UserId) (loadMapData : StdString → Option MapData) : Prop :=
  ∃ result next, w.startGame roomId playerId loadMapData = some (.ok result,next) ∧
    (result = .ok → ∃ room changed, w.getRoom roomId = some room ∧ next.getRoom roomId = some changed ∧
      GameRoom.Playing room changed loadMapData) ∧
    (result ≠ .ok → ∀ room, w.getRoom roomId = some room →
      ∃ changed, next.getRoom roomId = some changed ∧ GameRoom.Untouched room changed)

section Starts
variable {w : Lobby} {roomId : RoomId} {room : GameRoom}

theorem startGame_listed (found : w.getRoom roomId = some room) (playerId : UserId) (loadMapData : StdString → Option MapData) :
    ∃ next, w.startGame roomId playerId loadMapData = some ((room.startGame w.heap loadMapData playerId).1,next) ∧
      next.getRoom roomId = some (room.startGame w.heap loadMapData playerId).2 := by
  unfold startGame withRoom
  rw [found]
  refine ⟨_,rfl,?_⟩
  have listed : w.manager.rooms.lookup roomId = some room := found
  unfold getRoom
  rw [UnorderedMap.lookup_modify,if_pos rfl,listed]
  rfl

theorem startGame_lacks {playerId : UserId} {loadMapData : StdString → Option MapData}
    (found : w.getRoom roomId = some room) (lacks : room.LacksMap loadMapData playerId) :
    ¬ w.AllOrNothing roomId playerId loadMapData := by
  rintro ⟨result,next,answered,-⟩
  obtain ⟨_,called,-⟩ := startGame_listed found playerId loadMapData
  rw [called] at answered
  obtain ⟨same,-⟩ := Prod.mk.inj (Option.some.inj answered)
  have starting := GameRoom.startGame_starting room w.heap loadMapData playerId
  cases starting_ : room.startGame w.heap loadMapData playerId with
  | mk answer changed =>
    rw [starting_] at starting same
    cases starting with
    | refused able not_ok => exact able lacks
    | thrown _ => cases same
    | started able playing => exact able lacks

end Starts

-- For every lobby, room, caller and map source: only a missing map breaks it.
theorem startGame_atomic_exact (w : Lobby) (roomId : RoomId) (playerId : UserId) (loadMapData : StdString → Option MapData) :
    w.AllOrNothing roomId playerId loadMapData ↔ ∀ room, w.getRoom roomId = some room → ¬ room.LacksMap loadMapData playerId := by
  refine ⟨fun atomic room found lacks => startGame_lacks found lacks atomic,?_⟩
  intro able
  cases found : w.getRoom roomId with
  | none =>
    refine ⟨.notFound,w,?_,nofun,?_⟩
    · unfold startGame withRoom
      rw [found]
    · intro _ room listed
      rw [found] at listed
      cases listed
  | some room =>
    obtain ⟨next,called,listed⟩ := startGame_listed found playerId loadMapData
    have starting := GameRoom.startGame_starting room w.heap loadMapData playerId
    generalize room.startGame w.heap loadMapData playerId = out at starting called listed
    cases starting with
    | @refused result _ not_ok =>
      refine ⟨result,next,called,fun ok => (not_ok ok).elim,?_⟩
      intro _ another listed_
      cases found.symm.trans listed_
      exact ⟨room,listed,rfl,rfl,rfl⟩
    | thrown lacks => exact (able room found lacks).elim
    | @started changed _ playing =>
      exact ⟨.ok,next,called,fun _ => ⟨room,changed,found,listed,playing⟩,fun refused => (refused rfl).elim⟩

def pairWaiting : List Event := [
  .setPlayerManager true,
  .userLogin ⟨.success,1,1,[]⟩,
  .userLogin ⟨.success,2,2,[]⟩,
  .createRoom { ownerId := 1, capacity := 4 } zeros,
  .joinRoom 1 2]

-- The owner of a room of two starts the game while the map file is missing.
theorem missing_map_thrown : ∃ w, Machine.run step (opened noInfos) pairWaiting = some w ∧ ¬ w.AllOrNothing 1 1 (fun _ => none) := by
  have seen : ((Machine.run step (opened noInfos) pairWaiting).bind fun w => (w.getRoom 1).map fun room =>
      (room.info.ownerId,room.isRunning,room.group.getMemberCount)) = some (1,false,2) := by decide +kernel
  obtain ⟨w,path,looked⟩ := Option.bind_eq_some_iff.mp seen
  obtain ⟨room,found,facts⟩ := Option.map_eq_some_iff.mp looked
  obtain ⟨owner,rest⟩ := Prod.mk.inj facts
  obtain ⟨idle,two⟩ := Prod.mk.inj rest
  exact ⟨w,path,startGame_lacks found ⟨owner.symm,idle,Nat.le_of_eq two.symm,rfl⟩⟩

end GameServer.Lobby
