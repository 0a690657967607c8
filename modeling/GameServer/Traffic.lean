import GameServer.Foundation.Budgets
import GameServer.FoyerRuns
import GameServer.Pipeline

namespace GameServer.Server
open Foundation RequestPayload

def output (library : JsonLibrary) (s : Server) : Event → List Delivery
  | .receive sessionId msg =>
    if msg.mainType = MsgType.heartbeat then (s.handleHeartbeat (ClientSession.pack sessionId msg)).deliveries else []
  | .runLogin turn => ((s.runLogin turn).map Outcome.deliveries).getD []
  | .runRoom turn => ((s.runRoom library turn).map Outcome.deliveries).getD []
  | _ => []

-- A reply to a request: of the type replies have, under the request's sub type, and
-- under its id where it has one.
structure Answers (kind : UInt8) (pack : MsgPack) (msg : EncodeMessage) : Prop where
  msgId : pack.msg.msgId ≠ 0 → msg.msgId = pack.msg.msgId
  mainType : msg.mainType = kind
  subType : msg.subType = pack.msg.subType

def joinNotice : EncodeMessage := ⟨0,ProtoType.control,MsgType.chatMsg,0,stdString "NewPlayer Joined Room"⟩

-- How a handler run answers the request it takes: not at all, on the session the
-- request came in on, to the user it was put down to, and, where that user has
-- joined a room, to everybody in it.
inductive Answering (kind : UInt8) (s : Server) (pack : MsgPack) (out : Outcome) : Prop where
  | mute (silent : out.deliveries = [])
  | session {at_ : Server} {reply : EncodeMessage} (answers : Answers kind pack reply)
      (deliveries : out.deliveries = (at_.sendMessageToSession pack.senderSessionId reply).deliveries)
  | user {at_ : Server} {reply : EncodeMessage} (users : at_.users = s.users) (answers : Answers kind pack reply)
      (deliveries : out.deliveries = (at_.sendMessageToUser pack.senderId reply).deliveries)
  | joined {at_ behind : Server} {reply : EncodeMessage} {roomId : RoomId} {room : GameRoom}
      (joins : pack.msg.subType = RoomReqType.joinRoom) (users : at_.users = s.users) (after : behind.users = s.users)
      (listed : out.server.lobby.getRoom roomId = some room) (inside : pack.senderId ∈ room.memberIds)
      (answers : Answers kind pack reply)
      (deliveries : out.deliveries = (at_.sendMessageToUser pack.senderId reply).deliveries ++
        (behind.broadcast joinNotice room.memberIds).deliveries)

section Answers
variable {library : JsonLibrary} {s next : Server} {turn : Turn} {pack : MsgPack}

theorem sendMessageToSession_own (s : Server) (id : SessionId) (msg : EncodeMessage) :
    (s.sendMessageToSession id msg).deliveries.length ≤ 1 ∧
      ∀ delivery ∈ (s.sendMessageToSession id msg).deliveries, delivery.sessionId = id := by
  unfold sendMessageToSession
  split
  · exact ⟨Nat.zero_le 1,fun _ member => (List.not_mem_nil member).elim⟩
  · rename_i session _
    dsimp only
    cases (session.sendMessage s.nextMsgId msg).payload <;> simp

theorem sendMessageToUser_bound (s : Server) (id : UserId) (msg : EncodeMessage) :
    (s.sendMessageToUser id msg).deliveries.length ≤ 1 ∧
      ∀ delivery ∈ (s.sendMessageToUser id msg).deliveries, s.users.sendTarget id = some delivery.sessionId := by
  unfold sendMessageToUser
  split
  · exact ⟨Nat.zero_le 1,fun _ member => (List.not_mem_nil member).elim⟩
  · rename_i sessionId bound
    obtain ⟨few,own⟩ := sendMessageToSession_own s sessionId msg
    refine ⟨few,?_⟩
    intro delivery member
    rw [bound,own delivery member]

theorem broadcast_bound (ids : List UserId) (s : Server) (msg : EncodeMessage) :
    (s.broadcast msg ids).deliveries.length ≤ ids.length ∧
      ∀ delivery ∈ (s.broadcast msg ids).deliveries, ∃ id ∈ ids, s.users.sendTarget id = some delivery.sessionId := by
  induction ids generalizing s msg with
  | nil => exact ⟨Nat.le_refl 0,fun _ member => (List.not_mem_nil member).elim⟩
  | cons id rest ih =>
    obtain ⟨one,bound⟩ := sendMessageToUser_bound s id msg
    obtain ⟨few,others⟩ := ih (s.sendMessageToUser id msg).server (s.sendMessageToUser id msg).msg
    obtain ⟨n,sent⟩ := sendMessageToUser_server s id msg
    have users : (s.sendMessageToUser id msg).server.users = s.users := by rw [sent]
    have parts : (s.broadcast msg (id :: rest)).deliveries = (s.sendMessageToUser id msg).deliveries ++
        ((s.sendMessageToUser id msg).server.broadcast (s.sendMessageToUser id msg).msg rest).deliveries := rfl
    rw [parts,List.length_append,List.length_cons]
    refine ⟨by omega,?_⟩
    intro delivery member
    rcases List.mem_append.mp member with first | later
    · exact ⟨id,by simp,bound delivery first⟩
    · obtain ⟨other,inside,told⟩ := others delivery later
      rw [users] at told
      exact ⟨other,by simp [inside],told⟩

theorem replyToUser_answering {kind : UInt8} {at_ : Server} {reply : EncodeMessage} (users : at_.users = s.users)
    (answers : Answers kind pack reply) : Answering kind s pack (at_.replyToUser pack reply) := .user users answers rfl

theorem create_answering (creates : pack.msg.subType = RoomReqType.createRoom) :
    Answering MsgType.roomRsp s pack (s.handleRoomCreateRequest library turn pack) := by
  unfold handleRoomCreateRequest
  split
  · exact .mute rfl
  dsimp only
  split
  · exact .mute rfl
  · exact replyToUser_answering rfl ⟨fun _ => rfl,rfl,creates.symm⟩

theorem joined_inside (open_ : s.lobby.Open) {roomId : RoomId} {lobby : Lobby}
    (joined : s.lobby.joinRoom roomId pack.senderId = some (.ok .ok,lobby)) :
    ∃ room, lobby.getRoom roomId = some room ∧ pack.senderId ∈ room.memberIds := by
  have entering := Lobby.joinRoom_entering open_.served.managed roomId pack.senderId
  rw [joined] at entering
  cases entering with
  | refused failed => exact absurd rfl failed
  | turned failed => exact absurd rfl failed
  | @entered room player enters =>
    refine ⟨room.seat player,?_,?_⟩
    · rw [Lobby.rehoused_getRoom enters.listed,if_pos rfl]
    · rw [Lobby.seat_ids,← (Lobby.known_real open_ enters.known).1]
      exact List.mem_append_right _ (List.mem_singleton_self _)

theorem told_answering {at_ : Server} {reply : EncodeMessage} {roomId : RoomId} {room : GameRoom}
    (joins : pack.msg.subType = RoomReqType.joinRoom) (users : at_.users = s.users)
    (listed : at_.lobby.getRoom roomId = some room) (inside : pack.senderId ∈ room.memberIds)
    (answers : Answers MsgType.roomRsp pack reply) :
    let replied := at_.replyToUser pack reply
    let told := replied.server.roomBroadCast roomId joinNotice
    Answering MsgType.roomRsp s pack { replied with server := told.server, deliveries := replied.deliveries ++ told.deliveries } := by
  obtain ⟨n,sent⟩ := sendMessageToUser_server at_ pack.senderId reply
  have replied : (at_.replyToUser pack reply).server = { at_ with nextMsgId := n } := sent
  have after : ({ at_ with nextMsgId := n } : Server).users = s.users := users
  have still : ((at_.replyToUser pack reply).server.roomBroadCast roomId joinNotice).server.lobby.getRoom roomId = some room := by
    rw [roomBroadCast_lobby,replied]
    exact listed
  have told : ((at_.replyToUser pack reply).server.roomBroadCast roomId joinNotice).deliveries =
      (({ at_ with nextMsgId := n } : Server).broadcast joinNotice room.memberIds).deliveries := by
    have found : ({ at_ with nextMsgId := n } : Server).lobby.getRoom roomId = some room := listed
    rw [replied,roomBroadCast,found]
  exact .joined joins users after still inside answers (congrArg _ told)

theorem join_answering (open_ : s.lobby.Open) (joins : pack.msg.subType = RoomReqType.joinRoom) :
    Answering MsgType.roomRsp s pack (s.handleRoomJoinRequest library turn pack) := by
  have answers (text : StdString) : Answers MsgType.roomRsp pack
      ⟨pack.msg.msgId,ProtoType.control,MsgType.roomRsp,RoomReqType.joinRoom,text⟩ := ⟨fun _ => rfl,rfl,joins.symm⟩
  unfold handleRoomJoinRequest
  split
  · exact .mute rfl
  dsimp only
  cases code : s.lobby.roomCodeToId (readJoin turn.past pack.msg.payload).first with
  | none => exact replyToUser_answering rfl (answers _)
  | some roomId =>
    obtain ⟨result,lobby,joined,-,-⟩ := Lobby.joinRoom_open open_ roomId pack.senderId
    dsimp only
    rw [joined]
    cases result with
    | ok =>
      obtain ⟨room,listed,inside⟩ := joined_inside open_ joined
      dsimp only
      split
      · exact .mute rfl
      · have found : ({ s with lobby } : Server).lobby.getRoom roomId = some room := listed
        exact told_answering joins rfl found inside (answers _)
    | _ => exact replyToUser_answering rfl (answers _)

-- No room has the code a leave request is read to hold.
theorem leave_answering (open_ : s.lobby.Open) : Answering MsgType.roomRsp s pack (s.handleRoomLeaveRequest turn pack) := by
  unfold handleRoomLeaveRequest
  split
  · exact .mute rfl
  cases code : s.lobby.roomCodeToId readLeave.first with
  | none => exact .mute rfl
  | some roomId => exact absurd (open_.served.codes _ _ code).1 (by decide)

theorem list_answering (lists : pack.msg.subType = RoomReqType.listRooms) :
    Answering MsgType.roomRsp s pack (s.handleRoomListRequest library turn pack) := by
  unfold handleRoomListRequest
  split
  · exact .mute rfl
  · exact .session ⟨fun _ => rfl,rfl,lists.symm⟩ rfl

theorem handleRoom_answering (open_ : s.lobby.Open) (known : 1 ≤ pack.msg.subType ∧ pack.msg.subType ≤ 4) :
    Answering MsgType.roomRsp s pack (s.handleRoom library turn pack) := by
  unfold handleRoom
  split
  · rename_i creates
    exact create_answering creates
  · rename_i one
    split
    · rename_i joins
      exact join_answering open_ joins
    · rename_i two
      split
      · exact leave_answering open_
      · rename_i three
        exact list_answering (last_type known.1 known.2 one two three)

end Answers

-- The deliveries a request may come to: one, or with a join one to each of four.
def share (msg : DecodedMessage) : Nat := if msg.subType = RoomReqType.joinRoom then 5 else 1

def owed (s : Server) : Nat := s.loginStrand.length + (s.roomStrand.map fun pack => share pack.msg).sum

def paid : Event → Nat
  | .receive _ msg => if msg.mainType = MsgType.roomReq then share msg else 1
  | _ => 0

-- What the server keeps in order, as far as its traffic goes.
structure Trafficking (s : Server) : Prop where
  opened : s.lobby.Open
  seated : s.lobby.foyer.Seated
  live : s.Live

section Amounts
variable {library : JsonLibrary} {s next : Server} {turn : Turn} {pack : MsgPack} {event : Event}

theorem step_trafficking (good : s.Trafficking) (stepped : step library s event = some next) : next.Trafficking := by
  obtain ⟨opened,foyer⟩ := step_foyer good.opened stepped
  refine ⟨opened,?_,step_live good.live stepped⟩
  rw [foyer]
  exact Foyer.serve_seated good.seated _

theorem start_trafficking (heap : Heap) : (start heap).Trafficking :=
  ⟨Lobby.opened_open heap,Foyer.empty_seated,start_live heap⟩

theorem share_pos (msg : DecodedMessage) : 1 ≤ share msg := by
  unfold share
  split <;> decide

theorem answering_few {kind : UInt8} {out : Outcome} (answering : Answering kind s pack out) (seated : out.server.lobby.foyer.Seated) :
    out.deliveries.length ≤ share pack.msg := by
  have one := share_pos pack.msg
  cases answering with
  | mute silent =>
    rw [silent]
    exact Nat.zero_le _
  | session answers deliveries =>
    rw [deliveries]
    exact (sendMessageToSession_own _ _ _).1.trans one
  | user users answers deliveries =>
    rw [deliveries]
    exact (sendMessageToUser_bound _ _ _).1.trans one
  | @joined at_ behind reply roomId room joins users after listed inside answers deliveries =>
    have few : room.memberIds.length ≤ 4 := (seated.tables roomId _ (Lobby.foyer_table listed)).2.1
    have reply := (sendMessageToUser_bound at_ pack.senderId reply).1
    have told := (broadcast_bound room.memberIds behind joinNotice).1
    rw [deliveries,List.length_append,share,if_pos joins]
    omega

theorem handleLogin_few (s : Server) (turn : Turn) (pack : MsgPack) : (s.handleLogin turn pack).deliveries.length ≤ 1 := by
  unfold handleLogin
  split
  · unfold handleLoginRequest
    split
    · exact Nat.zero_le 1
    · exact (sendMessageToSession_own _ _ _).1
  · exact Nat.zero_le 1

theorem receive_pays {sessionId : SessionId} {msg : DecodedMessage} (stepped : step library s (.receive sessionId msg) = some next) :
    (output library s (.receive sessionId msg)).length + owed next ≤ owed s + paid (.receive sessionId msg) := by
  rw [Pipeline.receive_heard stepped]
  unfold onMsgReceive output paid ClientSession.pack
  dsimp only
  by_cases beat : msg.mainType = MsgType.heartbeat
  · have other : msg.mainType ≠ MsgType.roomReq := by rw [beat]; decide
    obtain ⟨n,sent⟩ := sendMessageToSession_server s sessionId ⟨msg.msgId,ProtoType.heartBeat,0,0,[]⟩
    have few := (sendMessageToSession_own s sessionId ⟨msg.msgId,ProtoType.heartBeat,0,0,[]⟩).1
    rw [if_pos beat,if_pos beat,if_neg other,sent,handleHeartbeat,Nat.add_comm]
    exact Nat.add_le_add_left few _
  · rw [if_neg beat,if_neg beat,List.length_nil,Nat.zero_add]
    by_cases login : msg.mainType = MsgType.loginReq
    · have other : msg.mainType ≠ MsgType.roomReq := by rw [login]; decide
      rw [if_pos login,if_neg other]
      split
      · simp only [owed,List.length_append,List.length_singleton]
        omega
      · exact Nat.le_add_right _ _
    · rw [if_neg login]
      split
      · split
        · simp only [owed,List.map_append,List.map_singleton,List.sum_append,List.sum_singleton]
          omega
        · exact Nat.le_add_right _ _
      · exact Nat.le_add_right _ _

theorem step_pays (good : s.Trafficking) (stepped : step library s event = some next) :
    (output library s event).length + owed next ≤ owed s + paid event := by
  have after := step_trafficking good stepped
  cases step_stepped stepped with
  | connect connected => cases connected <;> exact Nat.le_of_eq (Nat.zero_add _)
  | close => exact Nat.le_of_eq (Nat.zero_add _)
  | receive present heard => exact receive_pays stepped
  | @runLogin turn pack rest first =>
    have few := handleLogin_few { s with loginStrand := rest } turn pack
    obtain ⟨logins,rooms⟩ := Pipeline.handleLogin_strands { s with loginStrand := rest } turn pack
    have out : output library s (.runLogin turn) = (({ s with loginStrand := rest } : Server).handleLogin turn pack).deliveries := by
      simp only [output,runLogin,first]
      rfl
    rw [out,owed,owed,logins,rooms,first,List.length_cons]
    dsimp only
    omega
  | @runRoom turn pack rest first =>
    obtain ⟨living,ran⟩ := first_runs good.live first
    obtain ⟨logins,rooms⟩ := Pipeline.roomRun_strands ran
    have opened : ({ s with roomStrand := rest } : Server).lobby.Open := good.opened
    have known := (taken_live good.live (@taken_first s turn pack rest first)).2
    have few := answering_few (handleRoom_answering opened known) after.seated
    have out : output library s (.runRoom turn) =
        (({ s with roomStrand := rest } : Server).handleRoom library turn pack).deliveries := by
      simp only [output,runRoom,first]
      rfl
    rw [out,owed,owed,logins,rooms,first,List.map_cons,List.sum_cons]
    dsimp only
    omega

end Amounts

-- However requests are mixed, what has been sent and what the waiting requests may
-- yet come to is bounded by what has come in: one message for each, and five for a join.
theorem traffic_bounded (library : JsonLibrary) (heap : Heap) (events : List Event) (s : Server)
    (path : Machine.run (step library) (start heap) events = some s) :
    (Machine.observed (step library) (fun s event => (output library s event).length) (start heap) events).sum + owed s ≤
      (events.map paid).sum := by
  have pays : ∀ s event next, Trafficking s → step library s event = some next →
      (output library s event).length + owed next ≤ owed s + paid event := fun _ _ _ good stepped => step_pays good stepped
  have budget := Machine.run_budget (fun _ _ _ good stepped => step_trafficking good stepped) pays (start_trafficking heap) path
  have nothing : owed (start heap) = 0 := rfl
  rwa [nothing,Nat.zero_add] at budget

theorem hosted_bounded : ∃ s, Machine.run (step Json.compact) (start Lobby.noInfos) hostsRoom = some s ∧
    (Machine.observed (step Json.compact) (fun s event => (output Json.compact s event).length) (start Lobby.noInfos)
      hostsRoom).sum + owed s ≤ (hostsRoom.map paid).sum := by
  obtain ⟨s,path⟩ : ∃ s, Machine.run (step Json.compact) (start Lobby.noInfos) hostsRoom = some s := ⟨_,rfl⟩
  exact ⟨s,path,traffic_bounded Json.compact Lobby.noInfos hostsRoom s path⟩

-- The request an event takes off its strand, and the type its replies have.
def handled (s : Server) : Event → Option (UInt8 × MsgPack)
  | .runLogin _ => s.loginStrand.head?.map fun pack => (MsgType.loginReq,pack)
  | .runRoom _ => s.roomStrand.head?.map fun pack => (MsgType.roomRsp,pack)
  | _ => none

section Causes
variable {library : JsonLibrary} {heap : Heap} {s next : Server} {turn : Turn} {pack : MsgPack} {event : Event} {events : List Event}

end Causes

end GameServer.Server
