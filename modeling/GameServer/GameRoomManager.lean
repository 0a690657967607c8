import GameServer.GameRoom

namespace GameServer
open Foundation

namespace RoomUtils

def chars : StdString := stdString "0123456789ABCDEFGHIJKLMNOPQRSTUVWXYZ"

-- Six draws of the distribution over the characters.
def genRoomCode (dist : Fin 6 → Fin 36) : StdString := (List.finRange 6).map fun i => chars.getD (dist i) 0

end RoomUtils

structure GamePlayerManager where
  players : UnorderedMap UserId GamePlayer := ∅

-- `hasPlayerManager` tells whether the weak pointer to the player manager locks.
structure GameRoomManager where
  rooms : UnorderedMap RoomId GameRoom := ∅
  roomCodeMap : UnorderedMap StdString RoomId := ∅
  nextRoomId : RoomId := 1
  hasPlayerManager : Bool := false

-- The managers together with the player objects they and the rooms share.
structure Lobby where
  manager : GameRoomManager := {}
  playerManager : GamePlayerManager := {}
  heap : Heap
  nextObject : Nat := 0

namespace Lobby

def createPlayer (w : Lobby) (playerId : UserId) : GamePlayer × Lobby :=
  match w.playerManager.players.lookup playerId with
  | some player => (player,w)
  | none =>
    let player : GamePlayer := ⟨w.nextObject,playerId⟩
    let info : GamePlayerInfo :=
      ⟨⟨playerId,0,stdString "player_" ++ stdString (toString playerId.toNat),0,false⟩,0,0,0,false⟩
    (player,{ w with
      playerManager := ⟨AList.insert playerId player w.playerManager.players⟩
      heap := Function.update w.heap w.nextObject info
      nextObject := w.nextObject + 1 })

def getPlayer (w : Lobby) (playerId : UserId) : Option GamePlayer := w.playerManager.players.lookup playerId

def removePlayer (w : Lobby) (playerId : UserId) : Lobby :=
  { w with playerManager := ⟨AList.erase playerId w.playerManager.players⟩ }

def onUserLogin (w : Lobby) (info : UserLoginInfo) : Lobby :=
  if info.result ≠ .success ∨ info.userId = 0 then w
  else
    let (player,w) := w.createPlayer info.userId
    let heap := player.setSession w.heap info.sessionId
    { w with heap := player.setOnline heap true }

def onUserLogout (w : Lobby) (info : UserLoginInfo) : Lobby :=
  if info.userId = 0 then w
  else
    let w := match w.getPlayer info.userId with
      | some player => { w with heap := player.setOnline w.heap false }
      | none => w
    w.removePlayer info.userId

def setPlayerRoom (w : Lobby) (playerId : UserId) (roomId : RoomId) : Lobby :=
  match w.getPlayer playerId with
  | some player => { w with heap := player.enterRoom w.heap roomId }
  | none => w

def getRoom (w : Lobby) (roomId : RoomId) : Option GameRoom := w.manager.rooms.lookup roomId

def roomCodeToId (w : Lobby) (roomCode : StdString) : Option RoomId := w.manager.roomCodeMap.lookup roomCode

-- The three things a creation comes back with: the answer, the code it wrote
-- to its out parameter, if any, and what it leaves.
structure Created where
  result : RoomReqResult
  outRoomCode : Option StdString
  lobby : Lobby

def createRoom (w : Lobby) (roomInfo : GameRoomInfo) (dist : Fin 6 → Fin 36) : Created :=
  let newRoomId := w.manager.nextRoomId
  let w := { w with manager := { w.manager with nextRoomId := newRoomId + 1 } }
  let generatedCode := RoomUtils.genRoomCode dist
  let roomInfo := { roomInfo with roomId := newRoomId, roomCode := generatedCode }
  let newRoom := GameRoom.create roomInfo
  if !w.manager.hasPlayerManager then ⟨.unknownError,none,w⟩
  else match w.getPlayer roomInfo.ownerId with
    | none => ⟨.notAuthorized,none,w⟩
    | some ownerPlayer =>
      let joined := newRoom.joinRoom w.heap (some ownerPlayer)
      let w := { w with heap := joined.2.2 }
      if joined.1 ≠ .ok then ⟨joined.1,none,w⟩
      else ⟨.ok,some generatedCode,{ w with manager := { w.manager with
        roomCodeMap := w.manager.roomCodeMap.insertNew generatedCode newRoomId
        rooms := AList.insert newRoomId joined.2.1 w.manager.rooms } }⟩

def withRoom (w : Lobby) (roomId : RoomId) (op : GameRoom.Op) : Option (Except Thrown RoomReqResult × Lobby) :=
  match w.getRoom roomId with
  | none => some (.ok .notFound,w)
  | some room => (room.perform w.heap op).map fun out => (out.1,{ w with
      manager := { w.manager with rooms := w.manager.rooms.modify roomId fun _ => out.2.1 }
      heap := out.2.2 })

def joinRoom (w : Lobby) (roomId : RoomId) (playerId : UserId) : Option (Except Thrown RoomReqResult × Lobby) :=
  match w.getRoom roomId with
  | none => some (.ok .notFound,w)
  | some _ =>
    if !w.manager.hasPlayerManager then some (.ok .unknownError,w)
    else match w.getPlayer playerId with
      | none => some (.ok .notAuthorized,w)
      | some player => w.withRoom roomId (.joinRoom (some player))

def leaveRoom (w : Lobby) (roomId : RoomId) (playerId : UserId) : Option (Except Thrown RoomReqResult × Lobby) :=
  w.withRoom roomId (.leaveRoom playerId)

def setReady (w : Lobby) (roomId : RoomId) (playerId : UserId) (ready : Bool) :
    Option (Except Thrown RoomReqResult × Lobby) := w.withRoom roomId (.setReady playerId ready)

def startGame (w : Lobby) (roomId : RoomId) (playerId : UserId) (loadMapData : StdString → Option MapData) :
    Option (Except Thrown RoomReqResult × Lobby) := w.withRoom roomId (.startGame loadMapData playerId)

def changeMap (w : Lobby) (roomId : RoomId) (playerId : UserId) (mapPath : StdString) :
    Option (Except Thrown RoomReqResult × Lobby) := w.withRoom roomId (.changeMap playerId mapPath)

def changeRoomName (w : Lobby) (roomId : RoomId) (playerId : UserId) (newName : StdString) :
    Option (Except Thrown RoomReqResult × Lobby) := w.withRoom roomId (.changeRoomName playerId newName)

def changePassword (w : Lobby) (roomId : RoomId) (playerId : UserId) (newPassword : StdString) :
    Option (Except Thrown RoomReqResult × Lobby) := w.withRoom roomId (.changePassword playerId newPassword)

def kickPlayer (w : Lobby) (roomId : RoomId) (playerId targetId : UserId) :
    Option (Except Thrown RoomReqResult × Lobby) := w.withRoom roomId (.kickPlayer playerId targetId)

def changeCapacity (w : Lobby) (roomId : RoomId) (playerId : UserId) (newCapacity : Nat) :
    Option (Except Thrown RoomReqResult × Lobby) := w.withRoom roomId (.changeCapacity playerId newCapacity)

def dissolveRoom (w : Lobby) (roomId : RoomId) (playerId : UserId) : RoomReqResult × Lobby :=
  match w.getRoom roomId with
  | none => (.notFound,w)
  | some room =>
    let dissolved := room.dissolveRoom playerId
    if dissolved.1 ≠ .ok then
      (dissolved.1,{ w with manager := { w.manager with rooms := w.manager.rooms.modify roomId fun _ => dissolved.2 } })
    else (.ok,{ w with manager := { w.manager with
      roomCodeMap := AList.erase dissolved.2.info.roomCode w.manager.roomCodeMap
      rooms := AList.erase roomId w.manager.rooms } })

inductive Event where
  | createRoom (roomInfo : GameRoomInfo) (dist : Fin 6 → Fin 36)
  | joinRoom (roomId : RoomId) (playerId : UserId)
  | leaveRoom (roomId : RoomId) (playerId : UserId)
  | setReady (roomId : RoomId) (playerId : UserId) (ready : Bool)
  | startGame (roomId : RoomId) (playerId : UserId) (loadMapData : StdString → Option MapData)
  | changeMap (roomId : RoomId) (playerId : UserId) (mapPath : StdString)
  | changeRoomName (roomId : RoomId) (playerId : UserId) (newName : StdString)
  | changePassword (roomId : RoomId) (playerId : UserId) (newPassword : StdString)
  | kickPlayer (roomId : RoomId) (playerId targetId : UserId)
  | changeCapacity (roomId : RoomId) (playerId : UserId) (newCapacity : Nat)
  | dissolveRoom (roomId : RoomId) (playerId : UserId)
  | roomCall (roomId : RoomId) (op : GameRoom.Op)
  | userLogin (info : UserLoginInfo)
  | userLogout (info : UserLoginInfo)
  | setPlayerRoom (playerId : UserId) (roomId : RoomId)
  | setPlayerManager (alive : Bool)

-- `roomCall` is a call through the pointer GetRoom hands out, timers and battle
-- commands included.
def step (w : Lobby) : Event → Option Lobby
  | .createRoom roomInfo dist => some (w.createRoom roomInfo dist).lobby
  | .joinRoom roomId playerId => (w.joinRoom roomId playerId).map (·.2)
  | .leaveRoom roomId playerId => (w.leaveRoom roomId playerId).map (·.2)
  | .setReady roomId playerId ready => (w.setReady roomId playerId ready).map (·.2)
  | .startGame roomId playerId loadMapData => (w.startGame roomId playerId loadMapData).map (·.2)
  | .changeMap roomId playerId mapPath => (w.changeMap roomId playerId mapPath).map (·.2)
  | .changeRoomName roomId playerId newName => (w.changeRoomName roomId playerId newName).map (·.2)
  | .changePassword roomId playerId newPassword => (w.changePassword roomId playerId newPassword).map (·.2)
  | .kickPlayer roomId playerId targetId => (w.kickPlayer roomId playerId targetId).map (·.2)
  | .changeCapacity roomId playerId newCapacity => (w.changeCapacity roomId playerId newCapacity).map (·.2)
  | .dissolveRoom roomId playerId => some (w.dissolveRoom roomId playerId).2
  | .roomCall roomId op => (w.withRoom roomId op).map (·.2)
  | .userLogin info => some (w.onUserLogin info)
  | .userLogout info => some (w.onUserLogout info)
  | .setPlayerRoom playerId roomId => some (w.setPlayerRoom playerId roomId)
  | .setPlayerManager alive => some { w with manager := { w.manager with hasPlayerManager := alive } }

def opened (heap : Heap) : Lobby := { heap }

end Lobby
end GameServer
