import GameServer.Foundation.Linearization
import GameServer.FoyerRuns

namespace GameServer
open Foundation JSONTranslator RequestPayload

-- The two strands that handle requests at the same time, on threads of their own.
-- Of what the managers hold they share the registered players and their infos.
namespace Handlers

inductive Request where
  | login (turn : Turn) (pack : MsgPack)
  | room (turn : Turn) (pack : MsgPack)

def Request.logs : Request → Bool
  | .login .. => true
  | .room .. => false

inductive LoginTask where
  | idle
  | called (turn : Turn) (pack : MsgPack)
  | binding (info : UserLoginInfo) (player : GamePlayer)
  | marking (player : GamePlayer)

-- Where the room strand stands. In CreateRoom it looks the owner up, lets it join
-- the new room and enters the room into the tables; in JoinRoom it looks room and
-- player up and lets the one join the other; the reply then reads the players one
-- by one, and behind the reply to a join the room is looked up for its notice.
inductive RoomTask where
  | idle
  | called (turn : Turn) (pack : MsgPack)
  | owning (turn : Turn) (pack : MsgPack) (newRoom : GameRoom)
  | housing (turn : Turn) (pack : MsgPack) (newRoom : GameRoom) (ownerPlayer : GamePlayer)
  | entering (turn : Turn) (pack : MsgPack) (newRoom : GameRoom)
  | finding (turn : Turn) (pack : MsgPack) (roomId : RoomId)
  | meeting (turn : Turn) (pack : MsgPack) (roomId : RoomId)
  | seating (turn : Turn) (pack : MsgPack) (roomId : RoomId) (player : GamePlayer)
  | leaving (turn : Turn) (pack : MsgPack) (roomId : RoomId)
  | describing (turn : Turn) (pack : MsgPack)
  | fetching (turn : Turn) (pack : MsgPack) (roomId : RoomId)
  | reading (turn : Turn) (pack : MsgPack) (room : GameRoom) (infos : List GamePlayerInfo) (rest : List GamePlayer)
  | telling

-- What a run of the room handler comes to for its client: the message it hands to
-- the gateway, and whether it has ended the process.
structure Answer where
  reply : Option EncodeMessage
  thrown : Bool
deriving DecidableEq

def createReply (pack : MsgPack) (text : StdString) : EncodeMessage :=
  ⟨pack.msg.msgId,ProtoType.data,MsgType.roomRsp,RoomReqType.createRoom,text⟩

def joinReply (pack : MsgPack) (payload : List UInt8) : EncodeMessage :=
  ⟨pack.msg.msgId,ProtoType.control,MsgType.roomRsp,RoomReqType.joinRoom,payload⟩

def leaveReply (pack : MsgPack) (result : RoomReqResult) : EncodeMessage :=
  ⟨pack.senderId.toUInt64,ProtoType.control,MsgType.roomRsp,RoomReqType.leaveRoom,[result.code]⟩

def listReply (pack : MsgPack) (text : StdString) : EncodeMessage :=
  ⟨pack.msg.msgId,ProtoType.control,MsgType.roomRsp,RoomReqType.listRooms,text⟩

def told (reply : StdString → EncodeMessage) (text : Option StdString) : Answer := ⟨text.map reply,text.isNone⟩

def described (pack : MsgPack) : Option StdString → Answer :=
  told (if pack.msg.subType = RoomReqType.createRoom then createReply pack else joinReply pack)

def sought (turn : Turn) (pack : MsgPack) : StdString :=
  if pack.msg.subType = RoomReqType.createRoom then RoomUtils.genRoomCode turn.dist
  else (readJoin turn.past pack.msg.payload).first

def insertRoom (w : Lobby) (room : GameRoom) : Lobby := { w with
  manager := { w.manager with
    roomCodeMap := w.manager.roomCodeMap.insertNew room.info.roomCode room.info.roomId
    rooms := AList.insert room.info.roomId room w.manager.rooms } }

def loginInfo (turn : Turn) (pack : MsgPack) : UserLoginInfo :=
  ⟨.success,(Server.validateLogin (readPair turn.past pack.msg.payload).first).1,pack.senderSessionId,[]⟩

def loginStep (w : Lobby) : LoginTask → Option (Lobby × LoginTask)
  | .idle => none
  | .called turn pack =>
    if Server.LogsIn pack then
      let info := loginInfo turn pack
      if info.result ≠ .success ∨ info.userId = 0 then some (w,.idle)
      else
        let created := w.createPlayer info.userId
        some (created.2,.binding info created.1)
    else some (w,.idle)
  | .binding info player => some ({ w with heap := player.setSession w.heap info.sessionId },.marking player)
  | .marking player => some ({ w with heap := player.setOnline w.heap true },.idle)

def replied (pack : MsgPack) (text : Option StdString) : RoomTask :=
  if pack.msg.subType = RoomReqType.joinRoom ∧ text.isSome = true then .telling else .idle

variable (library : JsonLibrary)

def refusal (pack : MsgPack) (result : RoomReqResult) : Answer :=
  told (createReply pack) (serializeCreateRoomResult library [] result)

def roomStep (w : Lobby) : RoomTask → Option (Lobby × RoomTask × List Answer)
  | .idle => none
  | .called turn pack =>
    if Server.Reads pack ∧ pack.msg.payload = [] then some (w,.idle,[⟨none,true⟩])
    else if pack.msg.subType = RoomReqType.createRoom then
      let newRoom := w.newRoom (Server.requestedRoom (readPair turn.past pack.msg.payload) pack.senderId) turn.dist
      some (w.numbered,.owning turn pack newRoom,[])
    else if pack.msg.subType = RoomReqType.joinRoom then
      match w.roomCodeToId (sought turn pack) with
      | none => some (w,.idle,[⟨some (joinReply pack [RoomReqResult.notFound.code]),false⟩])
      | some roomId => some (w,.finding turn pack roomId,[])
    else if pack.msg.subType = RoomReqType.leaveRoom then
      match w.roomCodeToId readLeave.first with
      | none => some (w,.idle,[⟨none,false⟩])
      | some roomId => some (w,.leaving turn pack roomId,[])
    else some (w,.idle,[told (listReply pack)
      (serializeRoomList library (Server.getRoomList { lobby := w } turn.rooms))])
  | .owning turn pack newRoom =>
    if !w.manager.hasPlayerManager then some (w,.idle,[refusal library pack .unknownError])
    else match w.getPlayer newRoom.info.ownerId with
      | none => some (w,.idle,[refusal library pack .notAuthorized])
      | some ownerPlayer => some (w,.housing turn pack newRoom ownerPlayer,[])
  | .housing turn pack newRoom ownerPlayer =>
    let joined := newRoom.joinRoom w.heap (some ownerPlayer)
    if joined.1 ≠ .ok then some ({ w with heap := joined.2.2 },.idle,[refusal library pack joined.1])
    else some ({ w with heap := joined.2.2 },.entering turn pack joined.2.1,[])
  | .entering turn pack newRoom => some (insertRoom w newRoom,.describing turn pack,[])
  | .finding turn pack roomId =>
    match w.getRoom roomId with
    | none => some (w,.idle,[⟨some (joinReply pack [RoomReqResult.notFound.code]),false⟩])
    | some _ => some (w,.meeting turn pack roomId,[])
  | .meeting turn pack roomId =>
    if !w.manager.hasPlayerManager then some (w,.idle,[⟨some (joinReply pack [RoomReqResult.unknownError.code]),false⟩])
    else match w.getPlayer pack.senderId with
      | none => some (w,.idle,[⟨some (joinReply pack [RoomReqResult.notAuthorized.code]),false⟩])
      | some player => some (w,.seating turn pack roomId player,[])
  | .seating turn pack roomId player =>
    -- The room that was found: no other strand puts one in its place.
    match w.withRoom roomId (.joinRoom (some player)) with
    | some (.ok .ok,lobby) => some (lobby,.describing turn pack,[])
    | some (.ok result,lobby) => some (lobby,.idle,[⟨some (joinReply pack [result.code]),false⟩])
    -- JoinRoom always comes back with a result.
    | _ => some (w,.idle,[⟨none,true⟩])
  | .leaving _ pack roomId =>
    match w.leaveRoom roomId pack.senderId with
    | some (.ok result,lobby) => some (lobby,.idle,[⟨some (leaveReply pack result),false⟩])
    | _ => some (w,.idle,[⟨none,true⟩])
  | .describing turn pack =>
    match w.roomCodeToId (sought turn pack) with
    | none => some (w,.idle,[described pack none])
    | some roomId => some (w,.fetching turn pack roomId,[])
  | .fetching turn pack roomId =>
    match w.getRoom roomId with
    | none => some (w,replied pack (some []),[described pack (some [])])
    | some room => some (w,.reading turn pack room [] room.group.members,[])
  | .reading turn pack room infos (player :: rest) =>
    some (w,.reading turn pack room (infos ++ [player.getInfo w.heap]) rest,[])
  | .reading _ pack room infos [] =>
    let text := serializeRoomInfo library { room.getAllInfo w.heap with players := infos }
    some (w,replied pack text,[described pack text])
  -- RoomBroadCast of a joined room: the room is found, and its members are sent the notice.
  | .telling => some (w,.idle,[])

-- An exception and an empty payload end the process: what would come after them is
-- covered all the same.
structure State where
  lobby : Lobby
  login : LoginTask := .idle
  room : RoomTask := .idle
  answers : List Answer := []

inductive Action where
  | call (request : Request)
  | login
  | room

def step (s : State) : Action → Option State
  | .call (.login turn pack) => match s.login with
    | .idle => some { s with login := .called turn pack }
    | _ => none
  | .call (.room turn pack) => match s.room with
    | .idle => some { s with room := .called turn pack }
    | _ => none
  | .login => (loginStep s.lobby s.login).map fun out => { s with lobby := out.1, login := out.2 }
  | .room => (roomStep library s.lobby s.room).map fun out =>
      { s with lobby := out.1, room := out.2.1, answers := s.answers ++ out.2.2 }

def LoginTask.waiting : LoginTask → Option Request
  | .called turn pack => some (.login turn pack)
  | _ => none

def RoomTask.waiting : RoomTask → Option Request
  | .called turn pack => some (.room turn pack)
  | .owning turn pack _ => some (.room turn pack)
  | .finding turn pack _ => some (.room turn pack)
  | .meeting turn pack _ => some (.room turn pack)
  | .leaving turn pack _ => some (.room turn pack)
  | _ => none

-- A request takes effect with the step after which it no longer waits.
def passes (before after : Option Request) : Option Request := if after.isNone then before else none

def commits (s : State) : Action → Option Request
  | .call _ => none
  | .login => (loginStep s.lobby s.login).bind fun out => passes s.login.waiting out.2.waiting
  | .room => (roomStep library s.lobby s.room).bind fun out => passes s.room.waiting out.2.1.waiting

def serve (t : Lobby × List Answer) : Request → Lobby × List Answer
  | .login turn pack => ((Server.handleLogin { lobby := t.1 } turn pack).server.lobby,t.2)
  | .room turn pack =>
    let out := Server.handleRoom library { lobby := t.1 } turn pack
    (out.server.lobby,t.2 ++ [⟨out.reply,out.thrown⟩])

-- What the login strand has still to write once its user is known.
def LoginTask.writes : LoginTask → Heap → Heap
  | .binding info player,heap => player.setOnline (player.setSession heap info.sessionId) true
  | .marking player,heap => player.setOnline heap true
  | _,heap => heap

-- What a request of the room strand comes to once it has taken effect. Until then
-- it comes to nothing: a number it has drawn goes back.
def RoomTask.finish (t : Lobby × List Answer) : RoomTask → Lobby × List Answer
  | .owning _ _ newRoom => ({ t.1 with manager := { t.1.manager with nextRoomId := newRoom.info.roomId } },t.2)
  | .housing turn pack newRoom ownerPlayer =>
    let joined := newRoom.joinRoom t.1.heap (some ownerPlayer)
    let after : Lobby := { t.1 with heap := joined.2.2 }
    if joined.1 ≠ .ok then (after,t.2 ++ [refusal library pack joined.1])
    else (insertRoom after joined.2.1,
      t.2 ++ [described pack (Server.describe library { lobby := insertRoom after joined.2.1 } (sought turn pack))])
  | .entering turn pack newRoom => (insertRoom t.1 newRoom,
      t.2 ++ [described pack (Server.describe library { lobby := insertRoom t.1 newRoom } (sought turn pack))])
  | .seating turn pack roomId player =>
    match t.1.withRoom roomId (.joinRoom (some player)) with
    | some (.ok .ok,lobby) => (lobby,t.2 ++ [described pack (Server.describe library { lobby := lobby } (sought turn pack))])
    | some (.ok result,lobby) => (lobby,t.2 ++ [⟨some (joinReply pack [result.code]),false⟩])
    | _ => (t.1,t.2 ++ [⟨none,true⟩])
  | .describing turn pack => (t.1,t.2 ++ [described pack (Server.describe library { lobby := t.1 } (sought turn pack))])
  | .fetching _ pack roomId => (t.1,t.2 ++ [described pack (match t.1.getRoom roomId with
    | none => some []
    | some room => serializeRoomInfo library (room.getAllInfo t.1.heap))])
  | .reading _ pack room infos rest => (t.1,t.2 ++ [described pack
      (serializeRoomInfo library { room.getAllInfo t.1.heap with players := infos ++ rest.map (·.getInfo t.1.heap) })])
  | _ => t

-- The state the strands come to when each ends what has taken effect.
def settle (s : State) : Lobby × List Answer :=
  s.room.finish library ({ s.lobby with heap := s.login.writes s.lobby.heap },s.answers)

section Replied
variable {pack : MsgPack} {text : Option StdString}

@[simp] theorem replied_waiting : (replied pack text).waiting = none := by
  unfold replied
  split <;> rfl

@[simp] theorem replied_finish (t : Lobby × List Answer) : (replied pack text).finish library t = t := by
  unfold replied
  split <;> rfl

end Replied

end Handlers
end GameServer
