import GameServer.ClientSession
import GameServer.JsonTranslator
import GameServer.LobbySteps
import GameServer.RequestPayload
import GameServer.UserSessionMap

namespace GameServer
open Foundation JSONTranslator RequestPayload

namespace MsgType
def heartbeat : UInt8 := 0
def chatMsg : UInt8 := 1
def roomReq : UInt8 := 4
def roomRsp : UInt8 := 5
def loginReq : UInt8 := 6
end MsgType

namespace RoomReqType
def createRoom : UInt8 := 1
def joinRoom : UInt8 := 2
def leaveRoom : UInt8 := 3
def listRooms : UInt8 := 4
end RoomReqType

-- The order in which a loop over rooms_ meets its keys.
structure RoomOrder where
  order : UnorderedMap RoomId GameRoom → List RoomId
  complete : ∀ rooms, (order rooms).Perm rooms.keys

-- What one handler run depends on besides the state: the memory behind the
-- payload, the draws for a room code and the order of rooms_.
structure Turn where
  past : Nat → UInt8
  dist : Fin 6 → Fin 36
  rooms : RoomOrder

-- A message handed to the connection of a session, as it was numbered and encoded.
structure Delivery where
  sessionId : SessionId
  msg : EncodeMessage
  bytes : List UInt8
deriving DecidableEq

-- The network and business objects as main wires them. A strand is the queue of
-- the packs posted to it. `ended` tells that the process is gone.
structure Server where
  sessions : UnorderedMap SessionId ClientSession := ∅
  nextSessionId : SessionId := 1
  users : UserSessionMap := .empty
  lobby : Lobby
  nextMsgId : MsgId := 1
  loginStrand : List MsgPack := []
  roomStrand : List MsgPack := []
  ended : Bool := false

namespace Server

def maxConnectionNum : Nat := 1000

def createSession (s : Server) : Server :=
  let id := s.nextSessionId
  let s := { s with nextSessionId := id + 1 }
  if id = 0 then s
  else if s.sessions.keys.length ≥ maxConnectionNum then s
  else if id ∈ s.sessions then s
  else { s with sessions := AList.insert id (ClientSession.create id) s.sessions }

def closeSession (s : Server) (id : SessionId) : Server := { s with sessions := AList.erase id s.sessions }

-- The message comes back numbered: SendMessage takes it by reference.
structure Sent where
  server : Server
  msg : EncodeMessage
  deliveries : List Delivery := []

def sendMessageToSession (s : Server) (id : SessionId) (msg : EncodeMessage) : Sent :=
  match s.sessions.lookup id with
  | none => ⟨s,msg,[]⟩
  | some session =>
    let result := session.sendMessage s.nextMsgId msg
    ⟨{ s with nextMsgId := result.nextMsgId },result.msg,(result.payload.map fun bytes => ⟨id,result.msg,bytes⟩).toList⟩

def sendMessageToUser (s : Server) (id : UserId) (msg : EncodeMessage) : Sent :=
  match s.users.sendTarget id with
  | none => ⟨s,msg,[]⟩
  | some sessionId => s.sendMessageToSession sessionId msg

def broadcast (s : Server) (msg : EncodeMessage) : List UserId → Sent
  | [] => ⟨s,msg,[]⟩
  | id :: rest =>
    let first := s.sendMessageToUser id msg
    let others := first.server.broadcast first.msg rest
    { others with deliveries := first.deliveries ++ others.deliveries }

def roomBroadCast (s : Server) (roomId : RoomId) (msg : EncodeMessage) : Sent :=
  match s.lobby.getRoom roomId with
  | none => ⟨s,msg,[]⟩
  | some room => s.broadcast msg room.memberIds

-- How a handler run ends: the state it leaves, the reply it has handed to the
-- gateway, what has been delivered, and whether it has ended the process, by an
-- exception or by a read through a null pointer.
structure Outcome where
  server : Server
  reply : Option EncodeMessage := none
  deliveries : List Delivery := []
  thrown : Bool := false

-- A payload without a byte was never allocated: its data() is null, and a handler
-- that reads from it takes the process down.
def crash (s : Server) : Outcome := { server := s, thrown := true }

def replyToUser (s : Server) (pack : MsgPack) (msg : EncodeMessage) : Outcome :=
  let sent := s.sendMessageToUser pack.senderId msg
  ⟨sent.server,some msg,sent.deliveries,false⟩

def replyToSession (s : Server) (pack : MsgPack) (msg : EncodeMessage) : Outcome :=
  let sent := s.sendMessageToSession pack.senderSessionId msg
  ⟨sent.server,some msg,sent.deliveries,false⟩

variable (library : JsonLibrary)

-- The text of GetRoomInfo(RoomCodeToId(code).value()), empty where there is no
-- such room. No text is an exception: a code of no room, or one of the library's.
def describe (s : Server) (roomCode : StdString) : Option StdString :=
  match s.lobby.roomCodeToId roomCode with
  | none => none
  | some roomId =>
    match s.lobby.getRoom roomId with
    | none => some []
    | some room => serializeRoomInfo library (room.getAllInfo s.lobby.heap)

def requestedRoom (request : Reading) (senderId : UserId) : GameRoomInfo :=
  { roomName := request.first
    password := request.second
    ownerId := senderId
    capacity := 4
    selectedMapPath := stdString "default_map.json"
    state := .lobby }

def handleRoomCreateRequest (s : Server) (turn : Turn) (pack : MsgPack) : Outcome :=
  if pack.msg.payload = [] then s.crash
  else
    let request := readPair turn.past pack.msg.payload
    let created := s.lobby.createRoom (requestedRoom request pack.senderId) turn.dist
    let outRoomCode := created.outRoomCode.getD []
    let s := { s with lobby := created.lobby }
    let text := if created.result ≠ .ok then serializeCreateRoomResult library outRoomCode created.result
      else s.describe library outRoomCode
    match text with
    | none => { server := s, thrown := true }
    | some text => s.replyToUser pack ⟨pack.msg.msgId,ProtoType.data,MsgType.roomRsp,RoomReqType.createRoom,text⟩

def handleRoomJoinRequest (s : Server) (turn : Turn) (pack : MsgPack) : Outcome :=
  if pack.msg.payload = [] then s.crash
  else
    let roomCode := (readJoin turn.past pack.msg.payload).first
    let reply (payload : List UInt8) : EncodeMessage :=
      ⟨pack.msg.msgId,ProtoType.control,MsgType.roomRsp,RoomReqType.joinRoom,payload⟩
    match s.lobby.roomCodeToId roomCode with
    | none => s.replyToUser pack (reply [RoomReqResult.notFound.code])
    | some roomId =>
      match s.lobby.joinRoom roomId pack.senderId with
      | some (.ok .ok,lobby) =>
        let s := { s with lobby }
        match s.describe library roomCode with
        | none => { server := s, thrown := true }
        | some text =>
          let replied := s.replyToUser pack (reply text)
          let told := replied.server.roomBroadCast roomId ⟨0,ProtoType.control,MsgType.chatMsg,0,stdString "NewPlayer Joined Room"⟩
          { replied with server := told.server, deliveries := replied.deliveries ++ told.deliveries }
      | some (.ok result,lobby) => { s with lobby }.replyToUser pack (reply [result.code])
      -- JoinRoom always comes back with a result.
      | _ => { server := s, thrown := true }

def handleRoomLeaveRequest (s : Server) (_ : Turn) (pack : MsgPack) : Outcome :=
  if pack.msg.payload = [] then s.crash
  else
    match s.lobby.roomCodeToId readLeave.first with
    | none => { server := s }
    | some roomId =>
      match s.lobby.leaveRoom roomId pack.senderId with
      | some (.ok result,lobby) => { s with lobby }.replyToUser pack
          ⟨pack.senderId.toUInt64,ProtoType.control,MsgType.roomRsp,RoomReqType.leaveRoom,[result.code]⟩
      | _ => { server := s, thrown := true }

def getRoomList (s : Server) (rooms : RoomOrder) : List RoomInListInfo :=
  ((rooms.order s.lobby.manager.rooms).filterMap s.lobby.getRoom).map GameRoom.getInListInfo

def handleRoomListRequest (s : Server) (turn : Turn) (pack : MsgPack) : Outcome :=
  match serializeRoomList library (s.getRoomList turn.rooms) with
  | none => { server := s, thrown := true }
  | some text => s.replyToSession pack ⟨pack.msg.msgId,ProtoType.control,MsgType.roomRsp,RoomReqType.listRooms,text⟩

-- The database is a stub that accepts everyone.
def validateLogin (userName : StdString) : UserId × StdString :=
  (123 + UInt32.ofNat userName.length,stdString "Player" ++ userName)

def handleLoginRequest (s : Server) (turn : Turn) (pack : MsgPack) : Outcome :=
  if pack.msg.payload = [] then s.crash
  else
    let rsp := validateLogin (readPair turn.past pack.msg.payload).first
    let info : UserLoginInfo := ⟨.success,rsp.1,pack.senderSessionId,[]⟩
    let s := { s with users := s.users.onUserLogin info, lobby := s.lobby.onUserLogin info }
    let payload := BigEndian.toBytes 4 rsp.1.toNat ++ UInt8.ofNat rsp.2.length :: rsp.2
    s.replyToSession pack ⟨pack.msg.msgId,ProtoType.control,MsgType.loginReq,0,payload⟩

def handleRoom (s : Server) (turn : Turn) (pack : MsgPack) : Outcome :=
  if pack.msg.subType = RoomReqType.createRoom then s.handleRoomCreateRequest library turn pack
  else if pack.msg.subType = RoomReqType.joinRoom then s.handleRoomJoinRequest library turn pack
  else if pack.msg.subType = RoomReqType.leaveRoom then s.handleRoomLeaveRequest turn pack
  else s.handleRoomListRequest library turn pack

-- A logout request does nothing.
def handleLogin (s : Server) (turn : Turn) (pack : MsgPack) : Outcome :=
  if pack.msg.subType = 0 then s.handleLoginRequest turn pack else { server := s }

def onMsgReceive (s : Server) (pack : MsgPack) : Server :=
  let pack := { pack with senderId := s.users.getUserId pack.senderSessionId }
  if pack.msg.mainType = MsgType.heartbeat then
    (s.sendMessageToSession pack.senderSessionId ⟨pack.msg.msgId,ProtoType.heartBeat,0,0,[]⟩).server
  else if pack.msg.mainType = MsgType.loginReq then
    if pack.msg.subType ≤ 1 then { s with loginStrand := s.loginStrand ++ [pack] } else s
  else if pack.msg.mainType = MsgType.roomReq then
    if 1 ≤ pack.msg.subType ∧ pack.msg.subType ≤ 4 then { s with roomStrand := s.roomStrand ++ [pack] } else s
  else s

def runLogin (s : Server) (turn : Turn) : Option Outcome :=
  match s.loginStrand with
  | [] => none
  | pack :: rest => some ({ s with loginStrand := rest }.handleLogin turn pack)

def runRoom (s : Server) (turn : Turn) : Option Outcome :=
  match s.roomStrand with
  | [] => none
  | pack :: rest => some ({ s with roomStrand := rest }.handleRoom library turn pack)

def Outcome.after (out : Outcome) : Server := { out.server with ended := out.thrown }

inductive Event where
  | connect
  | close (sessionId : SessionId)
  | receive (sessionId : SessionId) (msg : DecodedMessage)
  | runLogin (turn : Turn)
  | runRoom (turn : Turn)

def step (s : Server) (event : Event) : Option Server :=
  if s.ended then none
  else match event with
    | .connect => some s.createSession
    | .close sessionId => some (s.closeSession sessionId)
    | .receive sessionId msg =>
      if sessionId ∈ s.sessions then some (s.onMsgReceive (ClientSession.pack sessionId msg)) else none
    | .runLogin turn => (s.runLogin turn).map Outcome.after
    | .runRoom turn => (s.runRoom library turn).map Outcome.after

def start (heap : Heap) : Server := { lobby := { heap, manager := { hasPlayerManager := true } } }

def keyOrder : RoomOrder := ⟨fun rooms => rooms.keys,fun _ => List.Perm.refl _⟩

def blankTurn : Turn := ⟨fun _ => 0,Lobby.zeros,keyOrder⟩

end Server
end GameServer
