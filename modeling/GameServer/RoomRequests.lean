import GameServer.Server
import GameServer.ServedRooms

namespace GameServer.Server
open Foundation Json JSONTranslator RequestPayload MTcpCodec

-- What holds of the server between two handler runs.
structure Live (s : Server) : Prop where
  served : s.lobby.Served
  sessions : ∀ id session, s.sessions.lookup id = some session → id ≠ 0 ∧ session.hasConnection = true
  packs : ∀ pack ∈ s.roomStrand, 1 ≤ pack.msg.subType ∧ pack.msg.subType ≤ 4

structure Replies (pack : MsgPack) (msg : EncodeMessage) : Prop where
  msgId : msg.msgId = pack.msg.msgId
  mainType : msg.mainType = MsgType.roomRsp
  subType : msg.subType = pack.msg.subType
  business : msg.protoType ≠ ProtoType.heartBeat
  nonempty : 1 ≤ msg.payload.length

structure Numbered (msg sent : EncodeMessage) : Prop where
  known : msg.msgId ≠ 0 → sent.msgId = msg.msgId
  protoType : sent.protoType = msg.protoType
  mainType : sent.mainType = msg.mainType
  subType : sent.subType = msg.subType
  payload : sent.payload = msg.payload

section Sending
variable {s : Server} {msg : EncodeMessage}

theorem live_kept {next : Server} (live : s.Live) (lobby : next.lobby = s.lobby) (sessions : next.sessions = s.sessions)
    (packs : next.roomStrand = s.roomStrand) : next.Live :=
  ⟨lobby ▸ live.served,sessions ▸ live.sessions,packs ▸ live.packs⟩

theorem sendMessageToSession_server (s : Server) (id : SessionId) (msg : EncodeMessage) :
    ∃ n, (s.sendMessageToSession id msg).server = { s with nextMsgId := n } := by
  unfold sendMessageToSession
  split
  · exact ⟨s.nextMsgId,rfl⟩
  · exact ⟨_,rfl⟩

theorem sendMessageToUser_server (s : Server) (id : UserId) (msg : EncodeMessage) :
    ∃ n, (s.sendMessageToUser id msg).server = { s with nextMsgId := n } := by
  unfold sendMessageToUser
  split
  · exact ⟨s.nextMsgId,rfl⟩
  · exact sendMessageToSession_server s _ msg

theorem numbered_refl (msg : EncodeMessage) : Numbered msg msg := ⟨fun _ => rfl,rfl,rfl,rfl,rfl⟩

theorem numbered_trans {sent later : EncodeMessage} (one : Numbered msg sent) (two : Numbered sent later) : Numbered msg later := by
  refine ⟨?_,two.protoType.trans one.protoType,two.mainType.trans one.mainType,two.subType.trans one.subType,
    two.payload.trans one.payload⟩
  intro known
  have kept := one.known known
  exact (two.known (kept ▸ known)).trans kept

theorem sendMessage_numbered (session : ClientSession) (nextMsgId : MsgId) (msg : EncodeMessage) :
    Numbered msg (session.sendMessage nextMsgId msg).msg := by
  have sent : (session.sendMessage nextMsgId msg).msg = if msg.msgId = 0 then { msg with msgId := nextMsgId } else msg := by
    unfold ClientSession.sendMessage
    dsimp only
    split <;> split <;> rfl
  rw [sent]
  split
  · rename_i fresh
    exact ⟨fun known => (known fresh).elim,rfl,rfl,rfl,rfl⟩
  · exact numbered_refl msg

theorem sendMessageToSession_numbered (s : Server) (id : SessionId) (msg : EncodeMessage) :
    Numbered msg (s.sendMessageToSession id msg).msg ∧
      ∀ delivery ∈ (s.sendMessageToSession id msg).deliveries, Numbered msg delivery.msg := by
  unfold sendMessageToSession
  split
  · exact ⟨numbered_refl msg,fun _ member => (List.not_mem_nil member).elim⟩
  · rename_i session found
    refine ⟨sendMessage_numbered session _ msg,?_⟩
    intro delivery member
    obtain ⟨bytes,-,rfl⟩ := Option.map_eq_some_iff.mp (Option.mem_toList.mp member)
    exact sendMessage_numbered session _ msg

theorem sendMessageToUser_numbered (s : Server) (id : UserId) (msg : EncodeMessage) :
    Numbered msg (s.sendMessageToUser id msg).msg ∧
      ∀ delivery ∈ (s.sendMessageToUser id msg).deliveries, Numbered msg delivery.msg := by
  unfold sendMessageToUser
  split
  · exact ⟨numbered_refl msg,fun _ member => (List.not_mem_nil member).elim⟩
  · exact sendMessageToSession_numbered s _ msg

theorem broadcast_server (msg : EncodeMessage) (ids : List UserId) (s : Server) :
    (∃ n, (s.broadcast msg ids).server = { s with nextMsgId := n }) ∧
      ∀ delivery ∈ (s.broadcast msg ids).deliveries, Numbered msg delivery.msg := by
  induction ids generalizing s msg with
  | nil => exact ⟨⟨s.nextMsgId,rfl⟩,fun _ member => (List.not_mem_nil member).elim⟩
  | cons id rest ih =>
    obtain ⟨n,first⟩ := sendMessageToUser_server s id msg
    obtain ⟨kept,own⟩ := sendMessageToUser_numbered s id msg
    obtain ⟨⟨m,others⟩,later⟩ := ih (s.sendMessageToUser id msg).msg (s.sendMessageToUser id msg).server
    refine ⟨⟨m,?_⟩,?_⟩
    · rw [broadcast]
      dsimp only
      rw [others,first]
    · intro delivery member
      rw [broadcast] at member
      rcases List.mem_append.mp member with now | after
      · exact own delivery now
      · exact numbered_trans kept (later delivery after)

theorem roomBroadCast_server (s : Server) (roomId : RoomId) (msg : EncodeMessage) :
    (∃ n, (s.roomBroadCast roomId msg).server = { s with nextMsgId := n }) ∧
      ∀ delivery ∈ (s.roomBroadCast roomId msg).deliveries, Numbered msg delivery.msg := by
  unfold roomBroadCast
  split
  · exact ⟨⟨s.nextMsgId,rfl⟩,fun _ member => (List.not_mem_nil member).elim⟩
  · exact broadcast_server msg _ s

theorem frames_filled (encodable : Encodable msg) : (frames msg).flatten ≠ [] := by
  have each : ∀ other ∈ [msg], Encodable other := fun other member => by rw [List.mem_singleton.mp member]; exact encodable
  have long := stream_long each (List.cons_ne_nil _ _)
  rw [stream_frames each,List.flatMap_singleton] at long
  intro empty
  rw [empty] at long
  exact absurd long (by decide)

theorem deliveries_session (live : s.Live) (fresh : msg.msgId ≠ 0) (encodable : Encodable msg) (id : SessionId) :
    (s.sendMessageToSession id msg).deliveries = if id ∈ s.sessions then [⟨id,msg,(frames msg).flatten⟩] else [] := by
  unfold sendMessageToSession
  cases found : s.sessions.lookup id with
  | none =>
    rw [if_neg (AList.lookup_eq_none.mp found)]
  | some session =>
    have connected := (live.sessions _ _ found).2
    have filled : (frames msg).flatten.isEmpty = false := by
      rw [List.isEmpty_eq_false_iff]
      exact frames_filled encodable
    rw [if_pos (UnorderedMap.mem_of_lookup found)]
    simp [ClientSession.sendMessage,fresh,encodeSync_encodable encodable,ClientSession.writeEncodedPayload,connected,filled]

theorem deliveries_oversized (unencodable : ¬ Encodable msg) (fresh : msg.msgId ≠ 0) (id : SessionId) :
    (s.sendMessageToSession id msg).deliveries = [] := by
  unfold sendMessageToSession
  split
  · rfl
  · have refused : (encodeSync msg).success = false := by
      rw [Bool.eq_false_iff]
      exact fun accepted => unencodable (encodeSync_success.mp accepted)
    simp [ClientSession.sendMessage,fresh,refused]

theorem deliveries_user (live : s.Live) (fresh : msg.msgId ≠ 0) (encodable : Encodable msg) (id : UserId) :
    (s.sendMessageToUser id msg).deliveries = if s.users.getSessionId id ∈ s.sessions
      then [⟨s.users.getSessionId id,msg,(frames msg).flatten⟩] else [] := by
  unfold sendMessageToUser UserSessionMap.sendTarget
  dsimp only
  by_cases nobody : s.users.getSessionId id = 0
  · have absent : (0 : SessionId) ∉ s.sessions := by
      intro member
      obtain ⟨session,found⟩ := UnorderedMap.mem_iff_lookup.mp member
      exact (live.sessions _ _ found).1 rfl
    rw [if_pos nobody,nobody,if_neg absent]
  · rw [if_neg nobody]
    exact deliveries_session live fresh encodable _

end Sending

variable (library : JsonLibrary)

-- The request whose room's name and password, or whose rooms' names, a reply
-- would have to write down can be written down.
structure Speaks (s : Server) (turn : Turn) (pack : MsgPack) : Prop where
  creates : pack.msg.subType = RoomReqType.createRoom →
    s.lobby.Registers (requestedRoom (readPair turn.past pack.msg.payload) pack.senderId) →
    Lobby.Spoken (s.lobby.announced (requestedRoom (readPair turn.past pack.msg.payload) pack.senderId) turn.dist)
  joins : pack.msg.subType = RoomReqType.joinRoom → ∀ roomId room player,
    s.lobby.roomCodeToId (readJoin turn.past pack.msg.payload).first = some roomId →
    s.lobby.Enters roomId pack.senderId room player → Lobby.Spoken room
  lists : pack.msg.subType = RoomReqType.listRooms → ∀ roomId room, s.lobby.getRoom roomId = some room →
    ValidText room.info.roomName

def ReportsOk (out : Outcome) : Prop :=
  ∃ msg info, out.reply = some msg ∧ serializeRoomInfo library info = some msg.payload

def Reads (pack : MsgPack) : Prop := pack.msg.subType = RoomReqType.createRoom ∨ pack.msg.subType = RoomReqType.joinRoom ∨
  pack.msg.subType = RoomReqType.leaveRoom

instance (pack : MsgPack) : Decidable (Reads pack) := inferInstanceAs (Decidable (_ ∨ _ ∨ _))

-- All that a run of the room handler can do: tell the user, tell the session,
-- nothing, end with an exception, or crash on an empty payload.
inductive RoomRun (s : Server) (turn : Turn) (pack : MsgPack) : Outcome → Prop where
  | user {lobby : Lobby} {msg : EncodeMessage} {more : List Delivery} {n : MsgId}
      (kind : pack.msg.subType = RoomReqType.createRoom ∨ pack.msg.subType = RoomReqType.joinRoom)
      (speaks : s.Speaks turn pack) (served : lobby.Served) (replies : Replies pack msg)
      (small : msg.payload.length ≤ maxDataSize)
      (reports : pack.msg.subType = RoomReqType.createRoom → (∃ info, serializeRoomInfo library info = some msg.payload) ∨
        ∀ roomId, lobby.getRoom roomId = s.lobby.getRoom roomId)
      (aside : ∀ delivery ∈ more, delivery.msg.mainType ≠ MsgType.roomRsp) :
      RoomRun s turn pack ⟨{ s with lobby := lobby, nextMsgId := n },some msg,
        ({ s with lobby := lobby }.sendMessageToUser pack.senderId msg).deliveries ++ more,false⟩
  | session {msg : EncodeMessage} (kind : pack.msg.subType = RoomReqType.listRooms) (speaks : s.Speaks turn pack)
      (replies : Replies pack msg) (text : serializeRoomList library (s.getRoomList turn.rooms) = some msg.payload) :
      RoomRun s turn pack (s.replyToSession pack msg)
  | idle (kind : pack.msg.subType = RoomReqType.leaveRoom) : RoomRun s turn pack { server := s }
  | throws {lobby : Lobby} (mute : ¬ s.Speaks turn pack) (served : lobby.Served) :
      RoomRun s turn pack { server := { s with lobby := lobby }, thrown := true }
  | crashes (reads : Reads pack) (empty : pack.msg.payload = []) : RoomRun s turn pack s.crash

section Handling
variable {s : Server} {turn : Turn} {pack : MsgPack}

theorem written {value : Json} (spoken : value.spoken = true) {bound : Nat} (small : value.bulk ≤ bound) :
    ∃ text, library.dump value = some text ∧ 1 ≤ text.length ∧ text.length ≤ bound := by
  cases dumped : library.dump value with
  | none =>
    have silent := (library.throws value).mp dumped
    rw [spoken] at silent
    cases silent
  | some text =>
    obtain ⟨filled,short⟩ := library.bounded value text dumped
    exact ⟨text,rfl,List.length_pos_of_ne_nil filled,Nat.le_trans short small⟩

theorem unwritten {value : Json} (mute : ¬ value.spoken = true) : library.dump value = none := by
  rw [library.throws]
  exact Bool.eq_false_iff.mpr mute

theorem describe_text {roomCode : StdString} {roomId : RoomId} {room : GameRoom} (served : s.lobby.Served)
    (code : s.lobby.roomCodeToId roomCode = some roomId) (listed : s.lobby.getRoom roomId = some room) :
    (Lobby.Spoken room ∧ ∃ text info, s.describe library roomCode = some text ∧ serializeRoomInfo library info = some text ∧
      1 ≤ text.length ∧ text.length ≤ maxDataSize) ∨ (¬ Lobby.Spoken room ∧ s.describe library roomCode = none) := by
  obtain ⟨plain,bulk⟩ := Lobby.roomInfo_plain served listed
  have text : s.describe library roomCode = serializeRoomInfo library (room.getAllInfo s.lobby.heap) := by
    unfold describe
    rw [code]
    dsimp only
    rw [listed]
  by_cases spoken : Lobby.Spoken room
  · obtain ⟨text_,dumped,filled,short⟩ := written library (plain.mpr spoken) bulk
    refine Or.inl ⟨spoken,text_,_,text.trans dumped,dumped,filled,Nat.le_trans short ?_⟩
    decide
  · exact Or.inr ⟨spoken,text.trans (unwritten library fun held => spoken (plain.mp held))⟩

theorem requestedRoom_asked (past : Nat → UInt8) (payload : List UInt8) (senderId : UserId) :
    Lobby.Asked (requestedRoom (readPair past payload) senderId) :=
  ⟨rfl,rfl,rfl,(readPair_short past payload).1,(readPair_short past payload).2⟩

theorem replyToUser_run {lobby : Lobby} {msg : EncodeMessage}
    (kind : pack.msg.subType = RoomReqType.createRoom ∨ pack.msg.subType = RoomReqType.joinRoom)
    (speaks : s.Speaks turn pack) (served : lobby.Served) (replies : Replies pack msg) (small : msg.payload.length ≤ maxDataSize)
    (reports : pack.msg.subType = RoomReqType.createRoom → (∃ info, serializeRoomInfo library info = some msg.payload) ∨
      ∀ roomId, lobby.getRoom roomId = s.lobby.getRoom roomId) :
    RoomRun library s turn pack ({ s with lobby := lobby }.replyToUser pack msg) ∧
      ∀ roomId chat, chat.mainType ≠ MsgType.roomRsp →
        RoomRun library s turn pack
          (let replied := { s with lobby := lobby }.replyToUser pack msg
          let told := replied.server.roomBroadCast roomId chat
          { replied with server := told.server, deliveries := replied.deliveries ++ told.deliveries }) := by
  obtain ⟨n,sent⟩ := sendMessageToUser_server { s with lobby := lobby } pack.senderId msg
  unfold replyToUser
  dsimp only
  rw [sent]
  refine ⟨?_,?_⟩
  · have none_aside : ∀ delivery ∈ ([] : List Delivery), delivery.msg.mainType ≠ MsgType.roomRsp :=
      fun _ member => (List.not_mem_nil member).elim
    have run := RoomRun.user (n := n) kind speaks served replies small reports none_aside
    rw [List.append_nil] at run
    exact run
  · intro roomId chat aside
    obtain ⟨⟨m,last⟩,numbered⟩ := roomBroadCast_server { s with lobby := lobby, nextMsgId := n } roomId chat
    rw [last]
    refine .user kind speaks served replies small reports ?_
    intro delivery member
    rw [(numbered delivery member).mainType]
    exact aside

theorem data_business : ProtoType.data ≠ ProtoType.heartBeat := by decide

theorem control_business : ProtoType.control ≠ ProtoType.heartBeat := by decide

theorem create_runs (live : s.Live) (kind : pack.msg.subType = RoomReqType.createRoom) :
    RoomRun library s turn pack (s.handleRoomCreateRequest library turn pack) := by
  have asked := requestedRoom_asked turn.past pack.msg.payload pack.senderId
  have creating := Lobby.createRoom_creating asked live.served.managed turn.dist
  have replies {text : StdString} (filled : 1 ≤ text.length) :
      Replies pack ⟨pack.msg.msgId,ProtoType.data,MsgType.roomRsp,RoomReqType.createRoom,text⟩ :=
    ⟨rfl,rfl,kind.symm,data_business,filled⟩
  have other : pack.msg.subType ≠ RoomReqType.joinRoom ∧ pack.msg.subType ≠ RoomReqType.listRooms := by
    rw [kind]
    decide
  unfold handleRoomCreateRequest
  split
  · rename_i empty
    exact .crashes (.inl kind) empty
  dsimp only
  generalize s.lobby.createRoom _ turn.dist = created at creating
  cases creating with
  | @refused result unregistered failed =>
    have spoken : (createRoomResult [] result).spoken = true := createRoomResult_spoken.mpr empty_valid
    obtain ⟨text,dumped,filled,short⟩ := written library spoken createRoomResult_bulk
    have said : serializeCreateRoomResult library [] result = some text := dumped
    dsimp only [Option.getD_none]
    rw [if_pos failed,said]
    refine (replyToUser_run library (Or.inl kind) ?_ (Lobby.numbered_served live.served) (replies filled)
      (Nat.le_trans short (by decide)) (fun _ => Or.inr fun _ => rfl)).1
    exact ⟨fun _ registers => (unregistered registers).elim,fun join => (other.1 join).elim,fun list => (other.2 list).elim⟩
  | @registered player registers owner admits =>
    have served := Lobby.withNew_served live.served asked owner admits
    obtain ⟨roomId,room,code,listed,announced⟩ := Lobby.withNew_announced player live.served
    dsimp only [Option.getD_some]
    rw [if_neg (fun wrong => wrong rfl)]
    rcases describe_text library (s := { s with lobby := s.lobby.withNew _ turn.dist player }) served code listed with
      ⟨spoken,text,info,said,dumped,filled,short⟩ | ⟨mute,silent⟩
    · rw [said]
      refine (replyToUser_run library (Or.inl kind) ?_ served (replies filled) short (fun _ => Or.inl ⟨info,dumped⟩)).1
      exact ⟨fun _ _ => announced.mp spoken,fun join => (other.1 join).elim,fun list => (other.2 list).elim⟩
    · rw [silent]
      exact .throws (fun speaks => mute (announced.mpr (speaks.creates kind registers))) served

section Joining
variable (kind : pack.msg.subType = RoomReqType.joinRoom)
include kind

theorem join_else : pack.msg.subType ≠ RoomReqType.createRoom ∧ pack.msg.subType ≠ RoomReqType.listRooms := by
  rw [kind]
  decide

theorem join_replies {text : StdString} (filled : 1 ≤ text.length) :
    Replies pack ⟨pack.msg.msgId,ProtoType.control,MsgType.roomRsp,RoomReqType.joinRoom,text⟩ :=
  ⟨rfl,rfl,kind.symm,control_business,filled⟩

theorem join_speaks (joins : ∀ roomId room player,
    s.lobby.roomCodeToId (readJoin turn.past pack.msg.payload).first = some roomId →
    s.lobby.Enters roomId pack.senderId room player → Lobby.Spoken room) : s.Speaks turn pack :=
  ⟨fun create => ((join_else kind).1 create).elim,fun _ => joins,fun list => ((join_else kind).2 list).elim⟩

theorem refusal_run {lobby : Lobby} (served : lobby.Served) (result : RoomReqResult)
    (kept : ∀ roomId room player, s.lobby.roomCodeToId (readJoin turn.past pack.msg.payload).first = some roomId →
      ¬ s.lobby.Enters roomId pack.senderId room player) :
    RoomRun library s turn pack ({ s with lobby := lobby }.replyToUser pack
      ⟨pack.msg.msgId,ProtoType.control,MsgType.roomRsp,RoomReqType.joinRoom,[result.code]⟩) := by
  have speaks : s.Speaks turn pack :=
    join_speaks kind fun roomId room player code enters => (kept roomId room player code enters).elim
  have filled : 1 ≤ [result.code].length := Nat.le_refl 1
  have small : [result.code].length ≤ maxDataSize := (by decide : 1 ≤ maxDataSize)
  exact (replyToUser_run library (Or.inr kind) speaks served (join_replies kind filled) small
    (fun create => ((join_else kind).1 create).elim)).1

theorem join_runs (live : s.Live) : RoomRun library s turn pack (s.handleRoomJoinRequest library turn pack) := by
  unfold handleRoomJoinRequest
  split
  · rename_i empty
    exact .crashes (.inr (.inl kind)) empty
  dsimp only
  cases code : s.lobby.roomCodeToId (readJoin turn.past pack.msg.payload).first with
  | none => exact refusal_run library kind live.served .notFound (fun _ _ _ found => by cases code.symm.trans found)
  | some roomId =>
    have entering := Lobby.joinRoom_entering live.served.managed roomId pack.senderId
    have outside (kept : ∀ room player, ¬ s.lobby.Enters roomId pack.senderId room player) : ∀ other room player,
        s.lobby.roomCodeToId (readJoin turn.past pack.msg.payload).first = some other →
          ¬ s.lobby.Enters other pack.senderId room player := by
      intro other room player found
      cases code.symm.trans found
      exact kept room player
    dsimp only
    generalize s.lobby.joinRoom roomId pack.senderId = joined at entering
    cases entering with
    | @refused result failed kept =>
      cases result with
      | ok => exact (failed rfl).elim
      | _ => exact refusal_run library kind live.served _ (outside kept)
    | @turned result room heap failed kept listed names =>
      have served := Lobby.rehoused_served live.served listed (live.served.rooms _ _ listed) names
      cases result with
      | ok => exact (failed rfl).elim
      | _ => exact refusal_run library kind served _ (outside kept)
    | @entered room player enters =>
      have served := Lobby.entering_served live.served (Lobby.Entering.entered enters)
      have seated : (s.lobby.rehoused roomId (room.seat player) (player.enterRoom s.lobby.heap room.info.roomId)).getRoom roomId =
          some (room.seat player) := (Lobby.rehoused_getRoom enters.listed roomId).trans (if_pos rfl)
      dsimp only
      rcases describe_text library (s := { s with lobby := s.lobby.rehoused roomId _ _ }) served code seated with
        ⟨spoken,text,info,said,dumped,filled,short⟩ | ⟨mute,silent⟩
      · have speaks : s.Speaks turn pack := by
          apply join_speaks kind
          intro other another joiner found joined
          cases code.symm.trans found
          cases enters.listed.symm.trans joined.listed
          exact spoken
        rw [said]
        exact (replyToUser_run library (Or.inr kind) speaks served (join_replies kind filled) short
          (fun create => ((join_else kind).1 create).elim)).2 roomId _ (by decide)
      · rw [silent]
        exact .throws (fun speaks => mute (speaks.joins kind roomId room player code enters)) served

end Joining

-- No code is the empty one, so there is never a room to leave.
theorem leave_runs (live : s.Live) (kind : pack.msg.subType = RoomReqType.leaveRoom) :
    RoomRun library s turn pack (s.handleRoomLeaveRequest turn pack) := by
  unfold handleRoomLeaveRequest
  split
  · rename_i empty
    exact .crashes (.inr (.inr kind)) empty
  cases code : s.lobby.roomCodeToId readLeave.first with
  | none => exact .idle kind
  | some roomId => exact absurd (live.served.codes _ _ code).1 (by decide)

theorem getRoomList_spoken (live : s.Live) (rooms : RoomOrder) : (roomList (s.getRoomList rooms)).spoken = true ↔
    ∀ roomId room, s.lobby.getRoom roomId = some room → ValidText room.info.roomName := by
  have listing (item : RoomInListInfo) : item ∈ s.getRoomList rooms ↔
      ∃ roomId room, s.lobby.getRoom roomId = some room ∧ room.getInListInfo = item := by
    rw [getRoomList,List.mem_map]
    refine ⟨?_,?_⟩
    · rintro ⟨room,member,same⟩
      obtain ⟨roomId,-,found⟩ := List.mem_filterMap.mp member
      exact ⟨roomId,room,found,same⟩
    · rintro ⟨roomId,room,found,same⟩
      have key : roomId ∈ rooms.order s.lobby.manager.rooms :=
        (rooms.complete _).mem_iff.mpr (AList.mem_keys.mpr (UnorderedMap.mem_of_lookup found))
      exact ⟨room,List.mem_filterMap.mpr ⟨roomId,key,found⟩,same⟩
  rw [roomList_spoken]
  refine ⟨?_,?_⟩
  · intro all roomId room found
    exact (all _ ((listing _).mpr ⟨roomId,room,found,rfl⟩)).2
  · intro names item member
    obtain ⟨roomId,room,found,rfl⟩ := (listing item).mp member
    exact ⟨(live.served.rooms _ _ found).code.1,names roomId room found⟩

theorem list_runs (live : s.Live) (kind : pack.msg.subType = RoomReqType.listRooms) :
    RoomRun library s turn pack (s.handleRoomListRequest library turn pack) := by
  have other : pack.msg.subType ≠ RoomReqType.createRoom ∧ pack.msg.subType ≠ RoomReqType.joinRoom := by
    rw [kind]
    decide
  have spoken := getRoomList_spoken live turn.rooms
  unfold handleRoomListRequest
  cases said : serializeRoomList library (s.getRoomList turn.rooms) with
  | none =>
    have silent := (library.throws _).mp said
    refine .throws (fun speaks => ?_) live.served
    rw [spoken.mpr (speaks.lists kind)] at silent
    cases silent
  | some text =>
    have filled := List.length_pos_of_ne_nil (library.bounded _ text said).1
    refine .session kind ?_ ⟨rfl,rfl,kind.symm,control_business,filled⟩ said
    refine ⟨fun create => (other.1 create).elim,fun join => (other.2 join).elim,fun _ => spoken.mp ?_⟩
    by_contra mute
    cases said.symm.trans (unwritten library mute)

theorem last_type {subType : UInt8} (low : 1 ≤ subType) (high : subType ≤ 4) (one : subType ≠ 1) (two : subType ≠ 2)
    (three : subType ≠ 3) : subType = 4 := by
  grind

theorem handleRoom_runs (live : s.Live) (known : 1 ≤ pack.msg.subType ∧ pack.msg.subType ≤ 4) :
    RoomRun library s turn pack (s.handleRoom library turn pack) := by
  unfold handleRoom
  split
  · rename_i create
    exact create_runs library live create
  · rename_i one
    split
    · rename_i join
      exact join_runs library join live
    · rename_i two
      split
      · rename_i leave
        exact leave_runs library live leave
      · rename_i three
        exact list_runs library live (last_type known.1 known.2 one two three)

theorem roomRun_live {out : Outcome} (live : s.Live) (run : RoomRun library s turn pack out) : out.after.Live := by
  cases run with
  | user kind speaks served replies small reports aside => exact ⟨served,live.sessions,live.packs⟩
  | session kind speaks replies text =>
    obtain ⟨n,sent⟩ := sendMessageToSession_server s pack.senderSessionId _
    unfold Outcome.after replyToSession
    dsimp only
    rw [sent]
    exact live_kept live rfl rfl rfl
  | idle kind => exact live_kept live rfl rfl rfl
  | throws mute served => exact ⟨served,live.sessions,live.packs⟩
  | crashes reads empty => exact live_kept live rfl rfl rfl

end Handling
end GameServer.Server
