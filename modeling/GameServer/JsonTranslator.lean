import GameServer.Foundation.Json
import GameServer.RoomIndex

namespace GameServer
open Foundation

structure RoomInListInfo where
  roomCode : StdString
  roomName : StdString
  capacity : Nat
  playerCount : UInt64
  state : RoomState
deriving DecidableEq

namespace GameRoom

def getAllInfo (room : GameRoom) (heap : Heap) : GameRoomInfo := { room.info with
  capacity := room.group.capacity
  playerCount := UInt64.ofNat room.group.getMemberCount
  players := room.group.members.map (·.getInfo heap) }

def getInListInfo (room : GameRoom) : RoomInListInfo :=
  ⟨room.info.roomCode,room.info.roomName,room.group.capacity,UInt64.ofNat room.group.getMemberCount,room.info.state⟩

end GameRoom

def RoomReqResult.code : RoomReqResult → UInt8
  | .ok => 0
  | .full => 1
  | .notFound => 2
  | .alreadyInRoom => 3
  | .notInRoom => 4
  | .notOwner => 5
  | .invalidCapacity => 6
  | .alreadyRunning => 7
  | .notReady => 8
  | .gameRunning => 9
  | .genRoomCodeFailed => 10
  | .illegalOperation => 11
  | .emptyReq => 12
  | .notAuthorized => 13
  | .unknownError => 14

def RoomState.code : RoomState → UInt64
  | .lobby => 0
  | .running => 1

namespace JSONTranslator

def gameDataRoomList : UInt64 := 50
def gameDataPlayerInRoom : UInt64 := 51

def roomInList (room : RoomInListInfo) : Json := .object [
  (stdString "room_code",.string room.roomCode),
  (stdString "room_name",.string room.roomName),
  (stdString "capacity",.number (UInt64.ofNat room.capacity)),
  (stdString "player_count",.number room.playerCount),
  (stdString "state",.number room.state.code)]

def roomList (rooms : List RoomInListInfo) : Json := .object [
  (stdString "cmd_type",.number gameDataRoomList),
  (stdString "rooms",.array (rooms.map roomInList))]

def playerInRoom (player : GamePlayerInfo) : Json := .object [
  (stdString "user_id",.number player.bInfo.userId.toUInt64),
  (stdString "user_name",.string player.bInfo.userName),
  (stdString "seat_index",.number player.seatIndex.toUInt64),
  (stdString "color",.number player.color.toUInt64),
  (stdString "position",.number player.position.toUInt64)]

def roomInfo (info : GameRoomInfo) : Json := .object [
  (stdString "cmd_type",.number gameDataPlayerInRoom),
  (stdString "players",.array (info.players.map playerInRoom)),
  (stdString "state",.number info.state.code),
  (stdString "room_code",.string info.roomCode),
  (stdString "room_name",.string info.roomName),
  (stdString "password",.string info.password),
  (stdString "capacity",.number (UInt64.ofNat info.capacity)),
  (stdString "player_count",.number info.playerCount),
  (stdString "selected_map_path",.string info.selectedMapPath),
  (stdString "owner_id",.number info.ownerId.toUInt64),
  (stdString "seat_index",.number (info.playerCount - 1))]

def createRoomResult (roomCode : StdString) (res : RoomReqResult) : Json := .object [
  (stdString "room_code",.string roomCode),
  (stdString "result",.number res.code.toUInt64)]

variable (library : JsonLibrary)

def serializeRoomList (rooms : List RoomInListInfo) : Option StdString := library.dump (roomList rooms)
def serializeRoomInfo (info : GameRoomInfo) : Option StdString := library.dump (roomInfo info)
def serializeCreateRoomResult (roomCode : StdString) (res : RoomReqResult) : Option StdString :=
  library.dump (createRoomResult roomCode res)

open Json

theorem stdString_valid (text : String) : ValidText (stdString text) := validText_utf8 text

theorem stdString_length (text : String) : (stdString text).length ≤ 4 * text.length := utf8_length text

theorem empty_valid : ValidText [] := ByteArray.isValidUTF8_empty

theorem roomList_spoken {rooms : List RoomInListInfo} :
    (roomList rooms).spoken = true ↔ ∀ room ∈ rooms, ValidText room.roomCode ∧ ValidText room.roomName := by
  have each (room : RoomInListInfo) : (roomInList room).spoken = true ↔ ValidText room.roomCode ∧ ValidText room.roomName := by
    simp [roomInList,spoken,spokenFields,stdString_valid]
  simp [roomList,spoken,spokenFields,stdString_valid,spokenItems_iff,each]

theorem roomInfo_spoken {info : GameRoomInfo} : (roomInfo info).spoken = true ↔
    (∀ player ∈ info.players, ValidText player.bInfo.userName) ∧ ValidText info.roomCode ∧ ValidText info.roomName ∧
      ValidText info.password ∧ ValidText info.selectedMapPath := by
  have each (player : GamePlayerInfo) : (playerInRoom player).spoken = true ↔ ValidText player.bInfo.userName := by
    simp [playerInRoom,spoken,spokenFields,stdString_valid]
  simp [roomInfo,spoken,spokenFields,stdString_valid,spokenItems_iff,each]

theorem createRoomResult_spoken {roomCode : StdString} {res : RoomReqResult} :
    (createRoomResult roomCode res).spoken = true ↔ ValidText roomCode := by
  simp [createRoomResult,spoken,spokenFields,stdString_valid]

theorem key_length {text : String} (short : text.length ≤ 20) : (stdString text).length ≤ 80 := by
  have bound := stdString_length text
  omega

theorem playerInRoom_bulk {player : GamePlayerInfo} {bound : Nat} (name : player.bInfo.userName.length ≤ bound) :
    (playerInRoom player).bulk ≤ 6 * bound + 2600 := by
  unfold playerInRoom
  apply object_bulk (b := 80)
  · simp only [List.forall_mem_cons,List.not_mem_nil,false_imp_iff,implies_true,and_true]
    refine ⟨?_,?_,?_,?_,?_⟩ <;> exact key_length (by decide)
  · simp only [List.length_cons,List.length_nil,List.map_cons,List.map_nil,List.sum_cons,List.sum_nil,bulk]
    omega

-- Only the number of players and the lengths of the strings make the text long.
theorem roomInfo_bulk {info : GameRoomInfo} {count bound : Nat} (few : info.players.length ≤ count)
    (names : ∀ player ∈ info.players, player.bInfo.userName.length ≤ bound) (code : info.roomCode.length ≤ bound)
    (name : info.roomName.length ≤ bound) (password : info.password.length ≤ bound)
    (path : info.selectedMapPath.length ≤ bound) : (roomInfo info).bulk ≤ count * (6 * bound + 2601) + (24 * bound + 16000) := by
  have members : bulkItems (info.players.map playerInRoom) ≤ (info.players.map playerInRoom).length * (6 * bound + 2600 + 1) := by
    apply bulkItems_le
    intro item member
    obtain ⟨player,inside,rfl⟩ := List.mem_map.mp member
    exact playerInRoom_bulk (names player inside)
  rw [List.length_map] at members
  have all := Nat.le_trans members (Nat.mul_le_mul_right (6 * bound + 2601) few)
  unfold roomInfo
  apply object_bulk (b := 80)
  · simp only [List.forall_mem_cons,List.not_mem_nil,false_imp_iff,implies_true,and_true]
    refine ⟨?_,?_,?_,?_,?_,?_,?_,?_,?_,?_,?_⟩ <;> exact key_length (by decide)
  · simp only [List.length_cons,List.length_nil,List.map_cons,List.map_nil,List.sum_cons,List.sum_nil,bulk]
    omega

theorem createRoomResult_bulk {roomCode : StdString} {res : RoomReqResult} :
    (createRoomResult roomCode res).bulk ≤ 6 * roomCode.length + 1100 := by
  unfold createRoomResult
  apply object_bulk (b := 80)
  · simp only [List.forall_mem_cons,List.not_mem_nil,false_imp_iff,implies_true,and_true]
    refine ⟨?_,?_⟩ <;> exact key_length (by decide)
  · simp only [List.length_cons,List.length_nil,List.map_cons,List.map_nil,List.sum_cons,List.sum_nil,bulk]
    omega

end JSONTranslator

end GameServer
