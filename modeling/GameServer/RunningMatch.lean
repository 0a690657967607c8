import GameServer.LobbySteps

namespace GameServer.GameRoom
open Foundation RuntimeData

-- A running match has the room's members for its players, at least two, and one
-- of them has the turn.
def Matched (room : GameRoom) : Prop := room.isRunning = true →
  (∀ id, id ∈ room.cmdHandler.runtime.players ↔ id ∈ room.memberIds) ∧ 2 ≤ room.memberIds.length ∧
    room.cmdHandler.runtime.currentPlayerId ∈ room.memberIds

def Starts (room : GameRoom) (loadMapData : StdString → Option MapData) (playerId : UserId) : Prop :=
  playerId = room.info.ownerId ∧ room.isRunning = false ∧ 2 ≤ room.memberIds.length ∧
    (loadMapData room.info.selectedMapPath).isSome = true

section Matches
variable {room next : GameRoom} {heap after : Heap}

theorem startGame_cases (room : GameRoom) (heap : Heap) (loadMapData : StdString → Option MapData) (playerId : UserId) :
    (room.Starts loadMapData playerId ∧ (room.startGame heap loadMapData playerId).2.isRunning = true ∧
      (room.startGame heap loadMapData playerId).2.cmdHandler.runtime.players =
        seatPlayers ∅ 0 (room.createMatchInfo heap).players ∧
      (room.startGame heap loadMapData playerId).2.cmdHandler.runtime.currentPlayerId = room.info.ownerId) ∨
    (¬ room.Starts loadMapData playerId ∧ (room.startGame heap loadMapData playerId).2.isRunning = room.isRunning ∧
      (room.isRunning = true → (room.startGame heap loadMapData playerId).2 = room)) := by
  unfold startGame
  split
  · rename_i stranger
    exact Or.inr ⟨fun starts => stranger starts.1,rfl,fun _ => rfl⟩
  · rename_i owner
    split
    · rename_i running
      exact Or.inr ⟨fun starts => by simp [starts.2.1] at running,rfl,fun _ => rfl⟩
    · rename_i lobby
      have idle : room.isRunning = false := by simpa using lobby
      split
      · rename_i few
        refine Or.inr ⟨?_,rfl,fun _ => rfl⟩
        intro starts
        have enough := starts.2.2.1
        rw [memberIds,List.length_map] at enough
        exact absurd few (Nat.not_lt.mpr enough)
      · rename_i enough
        unfold GameCmdHandler.startGame
        have path : (room.createMatchInfo heap).selectedMapPath = room.info.selectedMapPath := rfl
        cases loaded : loadMapData room.info.selectedMapPath with
        | none =>
          rw [path,loaded]
          refine Or.inr ⟨?_,rfl,fun running => absurd running (by simp [idle])⟩
          intro starts
          have found := starts.2.2.2
          rw [loaded] at found
          cases found
        | some mapData =>
          rw [path,loaded]
          refine Or.inl ⟨⟨not_not.mp owner,idle,?_,by rw [loaded]; rfl⟩,rfl,?_,?_⟩
          · rw [memberIds,List.length_map]
            exact Nat.not_lt.mp enough
          · simp only [setRoomState,startTicking_runtime]
            rfl
          · simp only [setRoomState,startTicking_runtime]
            rfl

theorem startGame_matched {loadMapData : StdString → Option MapData} {playerId : UserId} (matched : room.Matched) :
    (room.startGame heap loadMapData playerId).2.Matched ↔ (room.Starts loadMapData playerId → playerId ∈ room.memberIds) := by
  have ids : (room.startGame heap loadMapData playerId).2.memberIds = room.memberIds := by
    rw [memberIds,(startGame_group heap loadMapData playerId).1,memberIds]
  rcases startGame_cases room heap loadMapData playerId with ⟨starts,running,players,current⟩ | ⟨refused,state,same⟩
  · unfold Matched
    rw [ids,players,current]
    have keys : ∀ id, id ∈ seatPlayers ∅ 0 (room.createMatchInfo heap).players ↔ id ∈ room.memberIds := by
      intro id
      rw [seatPlayers_keys,← matchInfo_ids room heap]
      rfl
    refine ⟨?_,?_⟩
    · intro holds _
      rw [starts.1]
      exact (holds running).2.2
    · intro member _
      exact ⟨keys,starts.2.2.1,starts.1 ▸ member starts⟩
  · refine iff_of_true ?_ (fun starts => (refused starts).elim)
    intro running
    have before : room.isRunning = true := state.symm.trans running
    rw [same before]
    exact matched before

theorem perform_quiet {op : Op} {result : Except Thrown RoomReqResult}
    (starts : ∀ loadMapData playerId, op ≠ .startGame loadMapData playerId)
    (commands : ∀ iteration cmd, op ≠ .processCommand iteration cmd)
    (performed : room.perform heap op = some (result,next,after)) :
    (next.isRunning = true → room.isRunning = true) ∧
      next.cmdHandler.runtime.players = room.cmdHandler.runtime.players ∧
      next.cmdHandler.runtime.currentPlayerId = room.cmdHandler.runtime.currentPlayerId := by
  cases perform_cases performed with
  | started info group ticking => exact (starts _ _ rfl).elim
  | thrown info group ticking => exact (starts _ _ rfl).elim
  | played => exact (commands _ _ rfl).elim
  | misplayed => exact (commands _ _ rfl).elim
  | dissolved owner =>
    refine ⟨?_,rfl,rfl⟩
    intro running
    simp [isRunning] at running
  | _ => exact ⟨id,rfl,rfl⟩

-- While a match runs nobody is admitted and nobody is kicked.
theorem running_roster {op : Op} (running : room.isRunning = true)
    (leaves : ∀ playerId, op = .leaveRoom playerId → playerId ∉ room.memberIds)
    (listed : ∀ playerId, op ≠ .dissolveRoom playerId) : room.roster op = room.memberIds := by
  cases op with
  | joinRoom player =>
    cases player with
    | none => rfl
    | some player => rw [roster_joinRoom,if_neg (fun admits => by simp [admits.1.1] at running)]
  | leaveRoom playerId => exact List.erase_of_not_mem (leaves playerId rfl)
  | kickPlayer playerId targetId => rw [roster_kickPlayer,if_neg (fun expels => by simp [expels.2.1] at running)]
  | dissolveRoom playerId => exact (listed playerId rfl).elim
  | _ => rfl

theorem perform_matched {op : Op} {result : Except Thrown RoomReqResult} (seated : room.Seated) (matched : room.Matched)
    (commands : ∀ iteration cmd, op ≠ .processCommand iteration cmd) (listed : ∀ playerId, op ≠ .dissolveRoom playerId)
    (performed : room.perform heap op = some (result,next,after)) :
    next.Matched ↔ (∀ playerId, op = .leaveRoom playerId → room.isRunning = true → playerId ∉ room.memberIds) ∧
      ∀ loadMapData playerId, op = .startGame loadMapData playerId → room.Starts loadMapData playerId → playerId ∈ room.memberIds := by
  by_cases start : ∃ loadMapData playerId, op = .startGame loadMapData playerId
  · obtain ⟨loadMapData,playerId,rfl⟩ := start
    cases performed
    rw [startGame_matched matched]
    refine ⟨?_,?_⟩
    · intro owner
      refine ⟨nofun,?_⟩
      intro _ _ same
      cases same
      exact owner
    · intro guards
      exact guards.2 loadMapData playerId rfl
  · have others : ∀ loadMapData playerId, op ≠ .startGame loadMapData playerId :=
      fun loadMapData playerId same => start ⟨loadMapData,playerId,same⟩
    obtain ⟨state,players,current⟩ := perform_quiet others commands performed
    have ids := perform_roster performed
    have distinct : room.memberIds.Nodup := seated.keyed
    refine ⟨?_,?_⟩
    · intro after
      refine ⟨?_,fun loadMapData playerId same => (others loadMapData playerId same).elim⟩
      intro playerId same running member
      subst same
      have still : next.isRunning = true := by
        cases performed
        unfold leaveRoom
        dsimp only
        split <;> exact running
      have keys := (after still).1 playerId
      rw [ids,players,(matched running).1,roster_leaveRoom,distinct.mem_erase_iff] at keys
      exact (keys.mp member).1 rfl
    · rintro ⟨leaves,-⟩ still
      have running := state still
      rw [ids,players,current,running_roster running (fun playerId same => leaves playerId same running) listed]
      exact matched running

end Matches
end GameServer.GameRoom

namespace GameServer.Lobby
open Foundation

def Event.peaceful : Event → Bool
  | .roomCall _ (.processCommand _ _) => false
  | event => event.managed

def MatchesRooms (w : Lobby) : Prop := ∀ roomId room, w.getRoom roomId = some room → room.Matched

-- Nobody leaves a room whose match is running, and an owner who starts one is a
-- member of the room.
structure KeepsMatches (w : Lobby) (event : Event) : Prop where
  leaves : ∀ roomId playerId room, w.call event = some (roomId,.leaveRoom playerId) → w.getRoom roomId = some room →
    room.isRunning = true → playerId ∉ room.memberIds
  starts : ∀ roomId loadMapData playerId room, w.call event = some (roomId,.startGame loadMapData playerId) →
    w.getRoom roomId = some room → room.Starts loadMapData playerId → playerId ∈ room.memberIds

section Matches
variable {w next : Lobby} {event : Event} {roomId : RoomId} {changed : GameRoom}

theorem peaceful_managed (event : Event) (peaceful : event.peaceful = true) : event.managed = true := by
  unfold Event.peaceful at peaceful
  split at peaceful
  · cases peaceful
  · exact peaceful

theorem call_commands {iteration : Iteration} {cmd : BattleCmd} (peaceful : event.peaceful = true) :
    w.call event ≠ some (roomId,.processCommand iteration cmd) := by
  intro asked
  cases event with
  | joinRoom target id =>
    obtain ⟨-,known,found,same⟩ := call_joinRoom.mp asked
    cases same
  | roomCall target op => cases asked; cases peaceful
  | _ => cases asked

theorem replaced_matches (holds : w.MatchesRooms)
    (rooms : ∀ other, next.getRoom other = if other = roomId then some changed else w.getRoom other) :
    next.MatchesRooms ↔ changed.Matched := by
  refine ⟨?_,?_⟩
  · intro after
    exact after roomId changed ((rooms roomId).trans (if_pos rfl))
  · intro matched other another found
    rw [rooms] at found
    split at found
    · cases found; exact matched
    · exact holds other another found

theorem moves_matches (sound : w.Sound) (holds : w.MatchesRooms) (peaceful : event.peaceful = true) (moves : Moves w event next) :
    next.MatchesRooms ↔ KeepsMatches w event := by
  have fewer (listed : ∀ other room, next.getRoom other = some room → w.getRoom other = some room) : next.MatchesRooms :=
    fun other room found => holds other room (listed other room found)
  cases moves with
  | @calls roomId op room changed result asked called =>
    have commands : ∀ iteration cmd, op ≠ .processCommand iteration cmd := by
      rintro iteration cmd rfl
      exact call_commands peaceful asked
    have listed : ∀ playerId, op ≠ .dissolveRoom playerId := by
      rintro playerId rfl
      exact call_dissolves (peaceful_managed event peaceful) asked
    rw [replaced_matches holds called.rooms,GameRoom.perform_matched (sound.seated roomId room called.found)
      (holds roomId room called.found) commands listed called.performed]
    refine ⟨?_,?_⟩
    · rintro ⟨leaves,starts⟩
      refine ⟨?_,?_⟩
      · intro _ playerId _ again found
        cases asked.symm.trans again
        cases called.found.symm.trans found
        exact leaves playerId rfl
      · intro _ loadMapData playerId _ again found
        cases asked.symm.trans again
        cases called.found.symm.trans found
        exact starts loadMapData playerId rfl
    · rintro ⟨leaves,starts⟩
      refine ⟨?_,?_⟩
      · rintro playerId rfl
        exact leaves roomId playerId room asked called.found
      · rintro loadMapData playerId rfl
        exact starts roomId loadMapData playerId room asked called.found
  | @enters roomInfo dist player creation registers owner rooms heap players =>
    subst creation
    refine iff_of_true ((replaced_matches holds rooms).mpr ?_) ⟨nofun,nofun⟩
    intro running
    have state : ((w.newRoom roomInfo dist).seat player).info.state = roomInfo.state := rfl
    unfold GameRoom.isRunning at running
    rw [state,registers.lobby] at running
    cases running
  | bars creation barred owner rooms heap players =>
    subst creation
    exact iff_of_true (fewer fun other room found => (rooms other).symm.trans found) ⟨nofun,nofun⟩
  | dissolves dissolution found owner rooms heap players =>
    subst dissolution
    refine iff_of_true (fewer ?_) ⟨nofun,nofun⟩
    intro other another listed
    rw [rooms] at listed
    split at listed
    · cases listed
    · exact listed
  | rests idle =>
    refine iff_of_true (fewer fun other room found => (idle.rooms other).symm.trans found) ⟨?_,?_⟩
    · intro roomId playerId room asked found
      cases (idle.asks roomId _ asked).symm.trans found
    · intro roomId loadMapData playerId room asked found
      cases (idle.asks roomId _ asked).symm.trans found

end Matches

-- Over whole runs without battle commands, whether maps load or not.
theorem running_matches_exact (heap : Heap) (events : List { event : Event // event.peaceful = true }) :
    Machine.Always (among Event.peaceful) MatchesRooms (opened heap) events ↔
      Machine.Every (among Event.peaceful) (fun w event _ => KeepsMatches w event.1) (opened heap) events :=
  always_guarded peaceful_managed (fun _ _ _ sound peaceful holds moves => moves_matches sound holds peaceful moves) nofun events

def leftInMatch : List Event := [
  .setPlayerManager true,
  .userLogin ⟨.success,1,1,[]⟩,
  .userLogin ⟨.success,2,2,[]⟩,
  .createRoom { ownerId := 1, capacity := 4 } zeros,
  .joinRoom 1 2,
  .startGame 1 1 (fun _ => some Battle.duelMap),
  .leaveRoom 1 2]

-- A member leaves during the match and goes on playing in it.
theorem leaver_plays_on :
    ¬ Machine.Always (among Event.peaceful) MatchesRooms (opened noInfos) (only Event.peaceful leftInMatch) := by
  intro always
  have seen : ((Machine.run (among Event.peaceful) (opened noInfos) (only Event.peaceful leftInMatch)).bind fun w =>
      (w.getRoom 1).map fun room => (room.isRunning,room.memberIds)) = some (true,[1]) := by decide +kernel
  obtain ⟨w,path,looked⟩ := Option.bind_eq_some_iff.mp seen
  obtain ⟨room,listed,facts⟩ := Option.map_eq_some_iff.mp looked
  obtain ⟨running,ids⟩ := Prod.mk.inj facts
  obtain ⟨-,two,-⟩ := always (only Event.peaceful leftInMatch) [] w (List.append_nil _).symm path 1 room listed running
  rw [ids] at two
  exact absurd two (by decide)

end GameServer.Lobby
