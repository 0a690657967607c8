import GameServer.Foyer
import GameServer.ServedRooms

namespace GameServer
open Foundation

def GameRoom.table (room : GameRoom) : Table := ⟨room.info.roomCode,room.info.roomName,room.info.password,room.memberIds⟩

namespace Lobby

def foyer (w : Lobby) : Foyer where
  tables := fun roomId => (w.getRoom roomId).map GameRoom.table
  codes := w.roomCodeToId
  nextRoomId := w.manager.nextRoomId
  known := fun userId => (w.getPlayer userId).isSome

-- A listed room nobody has started, with its owner first.
structure Waiting (roomId : RoomId) (room : GameRoom) : Prop where
  named : room.info.roomId = roomId
  lobby : room.info.state = .lobby
  still : room.cmdHandler.ticking = false
  owner : room.memberIds.head? = some room.info.ownerId
  counted : room.info.playerCount = UInt64.ofNat room.memberIds.length

structure Open (w : Lobby) : Prop where
  served : w.Served
  nobody : w.getPlayer 0 = none
  rooms : ∀ roomId room, w.getRoom roomId = some room → Waiting roomId room

section Opening
variable {w next : Lobby} {roomId : RoomId} {room : GameRoom} {player : GamePlayer} {userId : UserId}

theorem foyer_table (listed : w.getRoom roomId = some room) : w.foyer.tables roomId = some room.table := by
  change (w.getRoom roomId).map GameRoom.table = _
  rw [listed]
  rfl

theorem foyer_known : w.foyer.known userId = true ↔ ∃ player, w.getPlayer userId = some player :=
  Option.isSome_iff_exists

theorem known_real (open_ : w.Open) (known : w.getPlayer userId = some player) : player.userId = userId ∧ userId ≠ 0 := by
  refine ⟨open_.served.registry.named _ _ known,?_⟩
  rintro rfl
  rw [open_.nobody] at known
  cases known

theorem members_length : room.memberIds.length = room.group.members.length := List.length_map _

theorem seat_ids : (room.seat player).memberIds = room.memberIds ++ [player.userId] := List.map_append

theorem seat_waiting (waiting : Waiting roomId room) (some_ : room.memberIds ≠ []) : Waiting roomId (room.seat player) := by
  refine ⟨waiting.named,waiting.lobby,waiting.still,?_,?_⟩
  · rw [seat_ids,List.head?_append_of_ne_nil _ some_]
    exact waiting.owner
  · rw [seat_ids,List.length_append,List.length_singleton]
    have counted : (room.seat player).info.playerCount = room.info.playerCount + 1 := rfl
    rw [counted,waiting.counted]
    exact (UInt64.ofNat_add _ _).symm

theorem waiting_some (waiting : Waiting roomId room) : room.memberIds ≠ [] := by
  intro nobody
  have owner := waiting.owner
  rw [nobody] at owner
  cases owner

theorem new_waiting {roomInfo : GameRoomInfo} {dist : Fin 6 → Fin 36} (lobby : roomInfo.state = .lobby)
    (empty : roomInfo.playerCount = 0) (owner : player.userId = roomInfo.ownerId) :
    Waiting w.manager.nextRoomId ((w.newRoom roomInfo dist).seat player) := by
  refine ⟨rfl,lobby,rfl,?_,?_⟩
  · exact congrArg some owner
  · have counted : ((w.newRoom roomInfo dist).seat player).info.playerCount = roomInfo.playerCount + 1 := rfl
    rw [counted,empty]
    rfl

theorem enters_iff (open_ : w.Open) (listed : w.getRoom roomId = some room) :
    (∃ player, w.Enters roomId userId room player) ↔
      w.foyer.known userId = true ∧ userId ∉ room.table.guests ∧ room.table.guests.length < 4 := by
  have capacity := (open_.served.rooms _ _ listed).capacity
  have idle : room.isRunning = false := by simp [GameRoom.isRunning,(open_.rooms _ _ listed).lobby]
  refine ⟨?_,?_⟩
  · rintro ⟨player,_,known,receives,fresh,few⟩
    rw [(known_real open_ known).1] at fresh
    refine ⟨foyer_known.mpr ⟨player,known⟩,fresh,?_⟩
    rwa [capacity,← members_length] at few
  · rintro ⟨known,fresh,few⟩
    obtain ⟨player,known⟩ := foyer_known.mp known
    obtain ⟨same,real⟩ := known_real open_ known
    refine ⟨player,listed,known,⟨idle,by rw [same]; exact real⟩,by rw [same]; exact fresh,?_⟩
    rw [capacity,← members_length]
    exact few

theorem numbered_open (open_ : w.Open) : w.numbered.Open :=
  ⟨numbered_served open_.served,open_.nobody,open_.rooms⟩

theorem numbered_foyer : w.numbered.foyer = { w.foyer with nextRoomId := w.foyer.nextRoomId + 1 } := rfl

theorem rehoused_open (open_ : w.Open) {changed : GameRoom} {heap : Heap} (listed : w.getRoom roomId = some room)
    (served : (w.rehoused roomId changed heap).Served) (waiting : Waiting roomId changed) : (w.rehoused roomId changed heap).Open := by
  refine ⟨served,open_.nobody,?_⟩
  intro other another found
  rw [rehoused_getRoom listed] at found
  split at found
  · rename_i here
    cases found
    rw [here]
    exact waiting
  · exact open_.rooms other another found

theorem rehoused_foyer {changed : GameRoom} {heap : Heap} (listed : w.getRoom roomId = some room) :
    (w.rehoused roomId changed heap).foyer = { w.foyer with tables := Function.update w.foyer.tables roomId (some changed.table) } := by
  have tables : (w.rehoused roomId changed heap).foyer.tables = Function.update w.foyer.tables roomId (some changed.table) := by
    funext other
    change ((w.rehoused roomId changed heap).getRoom other).map GameRoom.table = _
    rw [rehoused_getRoom listed,Function.update_apply]
    split <;> rfl
  rw [← tables]
  rfl

theorem createRoom_open {roomInfo : GameRoomInfo} {dist : Fin 6 → Fin 36} (asked : Asked roomInfo)
    (empty : roomInfo.playerCount = 0) (open_ : w.Open) :
    (w.createRoom roomInfo dist).lobby.Open ∧ (w.createRoom roomInfo dist).lobby.foyer =
      w.foyer.serve (.create roomInfo.ownerId roomInfo.roomName roomInfo.password (RoomUtils.genRoomCode dist)) := by
  have creating := createRoom_creating asked open_.served.managed dist
  generalize w.createRoom roomInfo dist = created at creating
  unfold Foyer.serve
  dsimp only
  cases creating with
  | refused unregistered failed =>
    refine ⟨numbered_open open_,?_⟩
    rw [if_neg,numbered_foyer]
    intro known
    obtain ⟨player,known⟩ := foyer_known.mp known
    obtain ⟨same,real⟩ := known_real open_ known
    exact unregistered ⟨open_.served.managed,⟨player,known,by rw [same]; exact real⟩,asked.lobby,by rw [asked.capacity]; decide⟩
  | @registered player registers owner admits =>
    have own := (known_real open_ owner).1
    refine ⟨⟨withNew_served open_.served asked owner admits,open_.nobody,?_⟩,?_⟩
    · intro other another found
      rw [withNew_getRoom] at found
      split at found
      · rename_i here
        cases found
        rw [here]
        exact new_waiting asked.lobby empty own
      · exact open_.rooms other another found
    · rw [if_pos (foyer_known.mpr ⟨player,owner⟩)]
      have tables : (w.withNew roomInfo dist player).foyer.tables = Function.update w.foyer.tables w.manager.nextRoomId
          (some ⟨RoomUtils.genRoomCode dist,roomInfo.roomName,roomInfo.password,[roomInfo.ownerId]⟩) := by
        funext other
        change ((w.withNew roomInfo dist player).getRoom other).map GameRoom.table = _
        rw [withNew_getRoom,Function.update_apply]
        split
        · rw [Option.map_some,← own]
          rfl
        · rfl
      have codes : (w.withNew roomInfo dist player).foyer.codes = Function.update w.foyer.codes (RoomUtils.genRoomCode dist)
          (some ((w.foyer.codes (RoomUtils.genRoomCode dist)).getD w.manager.nextRoomId)) := by
        funext other
        rw [Function.update_apply]
        exact withNew_code roomInfo dist player other
      change Foyer.mk (w.withNew roomInfo dist player).foyer.tables (w.withNew roomInfo dist player).foyer.codes _ _ = _
      rw [tables,codes]
      rfl

theorem joinRoom_open (open_ : w.Open) (roomId : RoomId) (userId : UserId) :
    ∃ result lobby, w.joinRoom roomId userId = some (.ok result,lobby) ∧ lobby.Open ∧ lobby.foyer = w.foyer.joinAt roomId userId := by
  have entering := joinRoom_entering open_.served.managed roomId userId
  -- Where nobody enters, the table lets nobody in either.
  have stays (kept : ∀ room player, ¬ w.Enters roomId userId room player) : w.foyer.joinAt roomId userId = w.foyer := by
    rcases Foyer.joinAt_cases w.foyer roomId userId with same | ⟨table,found,known,fresh,few,_⟩
    · exact same
    · obtain ⟨room,listed,rfl⟩ := Option.map_eq_some_iff.mp found
      obtain ⟨player,enters⟩ := (enters_iff open_ listed).mpr ⟨known,fresh,few⟩
      exact absurd enters (kept room player)
  generalize answered : w.joinRoom roomId userId = answer at entering
  cases entering with
  | @refused result failed kept => exact ⟨result,w,rfl,open_,(stays kept).symm⟩
  | @turned result room heap failed kept listed names =>
    refine ⟨result,_,rfl,rehoused_open open_ listed ?_ (open_.rooms _ _ listed),?_⟩
    · exact rehoused_served open_.served listed (open_.served.rooms _ _ listed) names
    · rw [rehoused_foyer listed,stays kept,← foyer_table listed,Function.update_eq_self]
  | @entered room player enters =>
    have made := open_.served.registry.made _ _ enters.known
    have housed := seat_housed (open_.served.rooms _ _ enters.listed) enters.admits made
    have waiting := open_.rooms _ _ enters.listed
    obtain ⟨known,fresh,few⟩ := (enters_iff open_ enters.listed).mp ⟨player,enters⟩
    refine ⟨.ok,_,rfl,rehoused_open open_ enters.listed ?_ (seat_waiting waiting (waiting_some waiting)),?_⟩
    · exact rehoused_served open_.served enters.listed housed (enterRoom_name _ w.heap _)
    · rw [rehoused_foyer enters.listed,Foyer.joinAt,foyer_table enters.listed]
      dsimp only
      rw [if_pos ⟨known,fresh,few⟩]
      have table : (room.seat player).table = { room.table with guests := room.table.guests ++ [userId] } := by
        rw [← (known_real open_ enters.known).1]
        exact congrArg (Table.mk _ _ _) seat_ids
      rw [table]

theorem userLogin_open (open_ : w.Open) (info : UserLoginInfo) (success : info.result = .success) :
    (w.onUserLogin info).Open ∧ (w.onUserLogin info).foyer = w.foyer.serve (.login info.userId) := by
  have served := userLogin_served info open_.served
  have manager := userLogin_manager (w := w) info
  have rooms : ∀ roomId, (w.onUserLogin info).getRoom roomId = w.getRoom roomId := by
    intro roomId
    rw [getRoom,manager,getRoom]
  unfold Foyer.serve
  dsimp only
  by_cases nobody : info.userId = 0
  · have same : w.onUserLogin info = w := by simp [onUserLogin,nobody]
    rw [same,if_pos nobody]
    exact ⟨open_,rfl⟩
  · have players : ∀ other, ((w.onUserLogin info).getPlayer other).isSome =
        if other = info.userId then true else (w.getPlayer other).isSome := by
      intro other
      have looked : (w.onUserLogin info).getPlayer other = (w.createPlayer info.userId).2.getPlayer other := by
        unfold onUserLogin
        rw [if_neg (by simp [success,nobody])]
        rfl
      rw [looked]
      cases known : w.getPlayer info.userId with
      | some player =>
        rw [createPlayer_known known]
        split
        · rename_i same
          rw [same,known]
          rfl
        · rfl
      | none =>
        rw [createPlayer_getPlayer _ _ known]
        split <;> rfl
    rw [if_neg nobody]
    refine ⟨⟨served,?_,?_⟩,?_⟩
    · have zero := players 0
      rw [if_neg (Ne.symm nobody),open_.nobody] at zero
      exact Option.isNone_iff_eq_none.mp (Option.isSome_eq_false_iff.mp zero)
    · intro roomId room found
      rw [rooms] at found
      exact open_.rooms roomId room found
    · have known : (w.onUserLogin info).foyer.known = Function.update w.foyer.known info.userId true := by
        funext other
        rw [Function.update_apply]
        exact players other
      have tables : (w.onUserLogin info).foyer.tables = w.foyer.tables := by
        funext roomId
        exact congrArg (Option.map GameRoom.table) (rooms roomId)
      have codes : (w.onUserLogin info).foyer.codes = w.foyer.codes := by
        funext code
        change (w.onUserLogin info).manager.roomCodeMap.lookup code = _
        rw [manager]
        rfl
      have number : (w.onUserLogin info).foyer.nextRoomId = w.foyer.nextRoomId := by
        change (w.onUserLogin info).manager.nextRoomId = _
        rw [manager]
        rfl
      change Foyer.mk (w.onUserLogin info).foyer.tables (w.onUserLogin info).foyer.codes
        (w.onUserLogin info).foyer.nextRoomId (w.onUserLogin info).foyer.known = _
      rw [known,tables,codes,number]

theorem opened_open (heap : Heap) : Open { heap, manager := { hasPlayerManager := true } } :=
  ⟨opened_served heap,rfl,nofun⟩

end Opening
end Lobby
end GameServer
