import GameServer.HeartbeatEcho
import GameServer.ServerRuns

namespace GameServer

namespace MsgType
def stateControl : UInt8 := 7
end MsgType

namespace FSMState
def end_ : UInt8 := 11
end FSMState

namespace Server
open Foundation MTcpCodec

def hostBytes (value : UInt32) : List UInt8 := (BigEndian.toBytes 4 value.toNat).reverse

-- proto_type stands at 0, to be set by the protocol's real type.
def endNotice (winnerId : UserId) : EncodeMessage := ⟨0,0,MsgType.stateControl,FSMState.end_,hostBytes winnerId⟩

def onGameEnd (s : Server) (room : GameRoom) (roomId : RoomId) (ending : Ending) : Sent :=
  let ended := room.onGameEnd ending
  { s with lobby := { s.lobby with manager := { s.lobby.manager with
    rooms := s.lobby.manager.rooms.modify roomId fun _ => ended } } }.roomBroadCast ended.info.roomId (endNotice ending.winner)

def liveSession (s : Server) (id : UserId) : Option SessionId :=
  (s.users.sendTarget id).filter (· ∈ s.sessions)

structure Notifies (winnerId : UserId) (sessionId : SessionId) (delivery : Delivery) : Prop where
  session : delivery.sessionId = sessionId
  mainType : delivery.msg.mainType = MsgType.stateControl
  subType : delivery.msg.subType = FSMState.end_
  payload : delivery.msg.payload = hostBytes winnerId
  accepted : encodeSync delivery.msg = ⟨true,"",delivery.bytes⟩

-- Each member with a live session is sent one notice, and the room is open again.
structure EndTold (s : Server) (room : GameRoom) (roomId : RoomId) (ending : Ending) : Prop where
  told : List.Forall₂ (Notifies ending.winner) (room.memberIds.filterMap s.liveSession)
    (s.onGameEnd room roomId ending).deliveries
  open_ : ∃ ended, (s.onGameEnd room roomId ending).server.lobby.getRoom roomId = some ended ∧
    ended.info.state = .lobby ∧ ended.cmdHandler.ticking = false ∧ ended.memberIds = room.memberIds

section Ending
variable {s : Server} {room : GameRoom} {roomId : RoomId} {ending : Ending}

theorem broadcast_refused {msg : EncodeMessage} (beat : msg.protoType = ProtoType.heartBeat) (ids : List UserId)
    (s : Server) : (s.broadcast msg ids).deliveries = [] := by
  induction ids generalizing s msg with
  | nil => rfl
  | cons id rest ih =>
    have first : (s.sendMessageToUser id msg).deliveries = [] ∧
        (s.sendMessageToUser id msg).msg.protoType = ProtoType.heartBeat := by
      unfold sendMessageToUser
      split
      · exact ⟨rfl,beat⟩
      · exact heartbeat_refused beat _
    rw [broadcast]
    dsimp only
    rw [first.1,ih first.2]
    rfl

theorem onGameEnd_silent : (s.onGameEnd room roomId ending).deliveries = [] := by
  unfold onGameEnd roomBroadCast
  dsimp only
  split
  · rfl
  · exact broadcast_refused rfl _ _

theorem onGameEnd_opens (listed : s.lobby.getRoom roomId = some room) :
    (s.onGameEnd room roomId ending).server.lobby.getRoom roomId = some (room.onGameEnd ending) := by
  unfold onGameEnd
  dsimp only
  obtain ⟨⟨n,kept⟩,-⟩ := roomBroadCast_server { s with lobby := { s.lobby with manager := { s.lobby.manager with
    rooms := s.lobby.manager.rooms.modify roomId fun _ => room.onGameEnd ending } } }
    (room.onGameEnd ending).info.roomId (endNotice ending.winner)
  rw [kept]
  have found : s.lobby.manager.rooms.lookup roomId = some room := listed
  simp [Lobby.getRoom,UnorderedMap.lookup_modify,found]

theorem end_notice_exact (listed : s.lobby.getRoom roomId = some room) :
    EndTold s room roomId ending ↔ ∀ id ∈ room.memberIds, s.liveSession id = none := by
  have nobody : (∀ id ∈ room.memberIds, s.liveSession id = none) ↔ room.memberIds.filterMap s.liveSession = [] :=
    List.filterMap_eq_nil_iff.symm
  rw [nobody]
  refine ⟨?_,?_⟩
  · intro ended
    have told := ended.told
    rw [onGameEnd_silent] at told
    exact List.forall₂_nil_right_iff.mp told
  · intro empty
    refine ⟨?_,room.onGameEnd ending,onGameEnd_opens listed,rfl,rfl,rfl⟩
    rw [empty,onGameEnd_silent]
    exact List.Forall₂.nil

end Ending

-- The host of the room has gone before the game ends: there is nobody to tell.
theorem deserted_room_told : ∃ s room,
    Machine.run (step Json.compact) (start Lobby.noInfos) (hostsRoom ++ [.close 1]) = some s ∧
      s.lobby.getRoom 1 = some room ∧ EndTold s room 1 ⟨124,∅⟩ := by
  have seen : ((Machine.run (step Json.compact) (start Lobby.noInfos) (hostsRoom ++ [.close 1])).bind fun s =>
      (s.lobby.getRoom 1).map fun room => room.memberIds.all fun id => (s.liveSession id).isNone) = some true := by
    decide +kernel
  obtain ⟨s,path,looked⟩ := Option.bind_eq_some_iff.mp seen
  obtain ⟨room,listed,gone⟩ := Option.map_eq_some_iff.mp looked
  refine ⟨s,room,path,listed,(end_notice_exact listed).mpr ?_⟩
  intro id member
  exact Option.isNone_iff_eq_none.mp (List.all_eq_true.mp gone id member)

theorem host_not_told : ¬ ∀ (s : Server) (room : GameRoom) (roomId : RoomId) (ending : Ending),
    s.lobby.getRoom roomId = some room → EndTold s room roomId ending := by
  intro told
  have seen : ((Machine.run (step Json.compact) (start Lobby.noInfos) hostsRoom).bind fun s =>
      (s.lobby.getRoom 1).map fun room => (room.memberIds.filterMap s.liveSession,
        (s.onGameEnd room 1 ⟨124,∅⟩).deliveries)) = some ([1],[]) := by decide +kernel
  obtain ⟨s,-,looked⟩ := Option.bind_eq_some_iff.mp seen
  obtain ⟨room,listed,shown⟩ := Option.map_eq_some_iff.mp looked
  obtain ⟨live,silent⟩ := Prod.mk.inj shown
  have each := (told s room 1 ⟨124,∅⟩ listed).told
  rw [live,silent] at each
  cases each

end Server
end GameServer
