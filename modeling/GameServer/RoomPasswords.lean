import GameServer.ManagedRuns

namespace GameServer.Server
open Foundation JSONTranslator RequestPayload

-- A join request with the code of a listed room and without the password it has by
-- now, from somebody who is no member.
structure Uninvited (s : Server) (roomId : RoomId) (room : GameRoom) (pack : MsgPack) : Prop where
  kind : pack.msg.subType = RoomReqType.joinRoom
  listed : s.lobby.getRoom roomId = some room
  locked : room.info.password ≠ []
  long : 6 ≤ pack.msg.payload.length
  code : pack.msg.payload.take 6 = room.info.roomCode
  wrong : pack.msg.payload.drop 6 ≠ room.info.password
  outside : pack.senderId ∉ room.memberIds

def Tells (library : JsonLibrary) (w : Lobby) (roomId : RoomId) (text : StdString) : Prop :=
  ∃ room, w.getRoom roomId = some room ∧ serializeRoomInfo library (room.getAllInfo w.heap) = some text

-- What may be sent over a refusal: a result, or, where the code leads to another
-- room, what a join of that one tells.
def Withholds (library : JsonLibrary) (s : Server) (roomId : RoomId) (room : GameRoom) (out : Outcome) (text : StdString) : Prop :=
  text.length = 1 ∨ ∃ other ≠ roomId, s.lobby.roomCodeToId room.info.roomCode = some other ∧
    (text = stdString "NewPlayer Joined Room" ∨ Tells library out.server.lobby other text)

structure Repelled (library : JsonLibrary) (s : Server) (roomId : RoomId) (room : GameRoom) (pack : MsgPack) (out : Outcome) :
    Prop where
  outside : ∀ after, out.server.lobby.getRoom roomId = some after → pack.senderId ∉ after.memberIds
  told : ∀ delivery ∈ out.deliveries, Withholds library s roomId room out delivery.msg.payload

def Protected (library : JsonLibrary) (s : Server) (turn : Turn) (pack : MsgPack) : Prop :=
  ∀ roomId room, Uninvited s roomId room pack →
    Repelled library s roomId room pack (s.handleRoom library turn pack)

-- The room takes the sender whatever the password.
structure LetsIn (s : Server) (roomId : RoomId) (room : GameRoom) (pack : MsgPack) : Prop where
  found : s.lobby.roomCodeToId room.info.roomCode = some roomId
  managed : s.lobby.manager.hasPlayerManager = true
  admits : ∃ player, s.lobby.getPlayer pack.senderId = some player ∧ room.Admits player

section Passwords
variable {library : JsonLibrary} {s : Server} {turn : Turn} {pack : MsgPack} {roomId : RoomId} {room : GameRoom}

theorem refused_repelled {lobby : Lobby} {result : RoomReqResult} {kind : UInt8}
    (rooms : ∀ other, lobby.getRoom other = s.lobby.getRoom other) (uninvited : Uninvited s roomId room pack) :
    Repelled library s roomId room pack ({ s with lobby := lobby }.replyToUser pack
      ⟨pack.msg.msgId,ProtoType.control,MsgType.roomRsp,kind,[result.code]⟩) := by
  refine ⟨?_,?_⟩
  · intro after found
    rw [replyToUser_lobby,rooms] at found
    cases uninvited.listed.symm.trans found
    exact uninvited.outside
  · intro delivery member
    have sent := ((sendMessageToUser_numbered _ _ _).2 delivery member).payload
    exact .inl (by rw [sent]; rfl)

section Joining
variable {other : RoomId} {lobby : Lobby} (filled : pack.msg.payload ≠ [])
  (code : s.lobby.roomCodeToId (readJoin turn.past pack.msg.payload).first = some other)
include filled code

theorem join_refused {result : RoomReqResult} (failed : result ≠ .ok)
    (joined : s.lobby.joinRoom other pack.senderId = some (.ok result,lobby)) :
    s.handleRoomJoinRequest library turn pack = { s with lobby := lobby }.replyToUser pack
      ⟨pack.msg.msgId,ProtoType.control,MsgType.roomRsp,RoomReqType.joinRoom,[result.code]⟩ := by
  unfold handleRoomJoinRequest
  rw [if_neg filled]
  dsimp only
  rw [code]
  dsimp only
  rw [joined]
  cases result with
  | ok => exact (failed rfl).elim
  | _ => rfl

theorem join_lobby (joined : s.lobby.joinRoom other pack.senderId = some (.ok .ok,lobby)) :
    (s.handleRoomJoinRequest library turn pack).server.lobby = lobby := by
  unfold handleRoomJoinRequest
  rw [if_neg filled]
  dsimp only
  rw [code]
  dsimp only
  rw [joined]
  dsimp only
  split
  · rfl
  · rw [roomBroadCast_lobby,replyToUser_lobby]

theorem join_tells (joined : s.lobby.joinRoom other pack.senderId = some (.ok .ok,lobby))
    (listed : ∃ room, lobby.getRoom other = some room)
    (same : lobby.roomCodeToId (readJoin turn.past pack.msg.payload).first = some other) :
    ∀ delivery ∈ (s.handleRoomJoinRequest library turn pack).deliveries,
      delivery.msg.payload = stdString "NewPlayer Joined Room" ∨ Tells library lobby other delivery.msg.payload := by
  obtain ⟨room,listed⟩ := listed
  intro delivery member
  unfold handleRoomJoinRequest at member
  rw [if_neg filled] at member
  dsimp only at member
  rw [code] at member
  dsimp only at member
  rw [joined] at member
  dsimp only at member
  split at member
  · cases member
  · rename_i text described
    unfold describe at described
    dsimp only at described
    rw [same] at described
    dsimp only at described
    rw [listed] at described
    rcases List.mem_append.mp member with own | others
    · have sent := ((sendMessageToUser_numbered _ _ _).2 delivery own).payload
      exact .inr ⟨room,listed,by rw [sent]; exact described⟩
    · exact .inl ((roomBroadCast_server _ _ _).2 delivery others).payload

end Joining

theorem uninvited_filled (uninvited : Uninvited s roomId room pack) : pack.msg.payload ≠ [] := by
  intro empty
  have long := uninvited.long
  rw [empty] at long
  exact absurd long (by decide)

theorem entered_repelled (registry : s.lobby.Registry) (uninvited : Uninvited s roomId room pack) {other : RoomId}
    (found : s.lobby.roomCodeToId room.info.roomCode = some other) (managed : s.lobby.manager.hasPlayerManager = true)
    {joined : GameRoom} {player : GamePlayer} (enters : s.lobby.Enters other pack.senderId joined player) {out : Outcome}
    (lobby : out.server.lobby = s.lobby.rehoused other (joined.seat player) (player.enterRoom s.lobby.heap joined.info.roomId))
    (tells : ∀ delivery ∈ out.deliveries, delivery.msg.payload = stdString "NewPlayer Joined Room" ∨
      Tells library out.server.lobby other delivery.msg.payload) :
    Repelled library s roomId room pack out ↔ ¬ LetsIn s roomId room pack := by
  by_cases here : other = roomId
  · subst here
    cases uninvited.listed.symm.trans enters.listed
    refine iff_of_false ?_ (fun kept => kept ⟨found,managed,player,enters.known,enters.admits⟩)
    intro repelled
    apply repelled.outside (room.seat player)
    · rw [lobby,Lobby.rehoused_getRoom enters.listed,if_pos rfl]
    · rw [← registry.named _ _ enters.known]
      simp [GameRoom.memberIds,GameRoom.seat]
  · refine iff_of_true ⟨?_,fun delivery member => .inr ⟨other,here,found,tells delivery member⟩⟩ ?_
    · intro after listed
      rw [lobby,Lobby.rehoused_getRoom enters.listed,if_neg (Ne.symm here),uninvited.listed] at listed
      cases listed
      exact uninvited.outside
    · intro letsIn
      exact here (Option.some.inj (found.symm.trans letsIn.found))

theorem join_repelled (registry : s.lobby.Registry) (uninvited : Uninvited s roomId room pack) :
    Repelled library s roomId room pack (s.handleRoomJoinRequest library turn pack) ↔ ¬ LetsIn s roomId room pack := by
  have filled := uninvited_filled uninvited
  have code : (readJoin turn.past pack.msg.payload).first = room.info.roomCode :=
    (readJoin_code turn.past uninvited.long).trans uninvited.code
  cases found : s.lobby.roomCodeToId room.info.roomCode with
  | none =>
    unfold handleRoomJoinRequest
    rw [if_neg filled]
    dsimp only
    rw [code,found]
    refine iff_of_true (refused_repelled (fun _ => rfl) uninvited) ?_
    intro letsIn
    cases found.symm.trans letsIn.found
  | some other =>
    have led : s.lobby.roomCodeToId (readJoin turn.past pack.msg.payload).first = some other := code ▸ found
    cases managed : s.lobby.manager.hasPlayerManager with
    | false =>
      obtain ⟨result,failed,joined⟩ := Lobby.joinRoom_unmanaged managed other pack.senderId
      rw [join_refused filled led failed joined]
      refine iff_of_true (refused_repelled (fun _ => rfl) uninvited) ?_
      intro letsIn
      cases managed.symm.trans letsIn.managed
    | true =>
      have shut (kept : ∀ another player, ¬ s.lobby.Enters other pack.senderId another player) :
          ¬ LetsIn s roomId room pack := by
        intro letsIn
        obtain ⟨player,known,admits⟩ := letsIn.admits
        cases found.symm.trans letsIn.found
        exact kept room player ⟨uninvited.listed,known,admits⟩
      have entering := Lobby.joinRoom_entering managed other pack.senderId
      generalize joined : s.lobby.joinRoom other pack.senderId = answer at entering
      cases entering with
      | refused failed kept =>
        rw [join_refused filled led failed joined]
        exact iff_of_true (refused_repelled (fun _ => rfl) uninvited) (shut kept)
      | turned failed kept listed names =>
        rw [join_refused filled led failed joined]
        exact iff_of_true (refused_repelled (Lobby.rehoused_same listed) uninvited) (shut kept)
      | @entered joiner player enters =>
        have lobby : (s.handleRoomJoinRequest library turn pack).server.lobby = _ := join_lobby filled led joined
        refine entered_repelled registry uninvited found managed enters lobby ?_
        rw [lobby]
        exact join_tells filled led joined ⟨_,(Lobby.rehoused_getRoom enters.listed other).trans (if_pos rfl)⟩ led

theorem protected_exact (registry : s.lobby.Registry) : Protected library s turn pack ↔
    ∀ roomId room, Uninvited s roomId room pack → ¬ LetsIn s roomId room pack := by
  refine forall₂_congr fun roomId room => forall_congr' fun uninvited => ?_
  have handled : s.handleRoom library turn pack = s.handleRoomJoinRequest library turn pack := by
    unfold handleRoom
    rw [uninvited.kind,if_neg (by decide),if_pos rfl]
  rw [handled]
  exact join_repelled registry uninvited

end Passwords

theorem passwords_exact (library : JsonLibrary) (heap : Heap) (moves : List Act) :
    Machine.Every (act library) (Upheld (Protected library)) (start heap) moves ↔
      Machine.Every (act library) (Upheld fun s _ pack => ∀ roomId room, Uninvited s roomId room pack →
        ¬ LetsIn s roomId room pack) (start heap) moves := by
  refine every_upheld (fun _ _ _ registry managed stepped => Lobby.step_registry registry managed stepped) ?_
    (start_live heap).served.registry
  intro s turn pack registry
  exact protected_exact registry

def lockedMsg : DecodedMessage := ⟨2,ProtoType.data,MsgType.roomReq,RoomReqType.createRoom,spelled [65] [66]⟩
def otherLoginMsg : DecodedMessage := ⟨1,ProtoType.data,MsgType.loginReq,0,spelled [65,65] []⟩
def joinMsg : DecodedMessage := ⟨2,ProtoType.data,MsgType.roomReq,RoomReqType.joinRoom,stdString "000000"⟩

def locksRoom : List Act := [Event.connect,.connect,.receive 1 loginMsg,.runLogin blankTurn,.receive 2 otherLoginMsg,
  .runLogin blankTurn,.receive 1 lockedMsg,.runRoom blankTurn,.receive 2 joinMsg].map .network

theorem lock_passed : ¬ Machine.Every (act Json.compact) (Upheld (Protected Json.compact)) (start Lobby.noInfos)
    (locksRoom ++ [.network (.runRoom blankTurn)]) := by
  intro every
  have seen : ((Machine.run (act Json.compact) (start Lobby.noInfos) locksRoom).bind fun reached =>
      (act Json.compact reached (.network (.runRoom blankTurn))).bind fun _ =>
        (Act.taken reached (.network (.runRoom blankTurn))).map fun took => (
          decide (took.2.2 = ⟨125,2,0,joinMsg⟩),
          decide ((took.1.lobby.getRoom 1).map (·.info.password) = some [66]),
          decide ((took.1.lobby.getRoom 1).map (·.info.roomCode) = some (stdString "000000")),
          decide ((took.1.lobby.getRoom 1).map GameRoom.memberIds = some [124]),
          decide (((took.1.handleRoom Json.compact took.2.1 took.2.2).server.lobby.getRoom 1).map GameRoom.memberIds =
            some [124,125]))) = some (true,true,true,true,true) := by decide +kernel
  obtain ⟨at_,turn,pack,upheld,shown⟩ := upheld_seen every seen
  simp only [Prod.mk.injEq,decide_eq_true_eq] at shown
  obtain ⟨rfl,password,code,members,ids⟩ := shown
  obtain ⟨room,listed,locked⟩ := Option.map_eq_some_iff.mp password
  obtain ⟨after,found,joined⟩ := Option.map_eq_some_iff.mp ids
  rw [listed] at code members
  have named : room.info.roomCode = stdString "000000" := Option.some.inj code
  have alone : room.memberIds = [124] := Option.some.inj members
  have uninvited : Uninvited at_ 1 room ⟨125,2,0,joinMsg⟩ := by
    refine ⟨rfl,listed,?_,by decide +kernel,?_,?_,?_⟩
    · rw [locked]
      decide
    · rw [named]
      decide +kernel
    · rw [locked]
      decide +kernel
    · rw [alone]
      decide
  have outside := (upheld 1 room uninvited).outside after found
  rw [joined] at outside
  exact outside (by decide)

end GameServer.Server
