import GameServer.ManagedRuns

namespace GameServer

namespace Lobby
variable {w next : Lobby}

-- The codes under which rooms are found are codes that were drawn.
def SixLong (w : Lobby) : Prop := ∀ code roomId, w.roomCodeToId code = some roomId → code.length = 6

theorem same_sixLong (same : SameIndex w next) (long : w.SixLong) : next.SixLong :=
  fun code roomId found => long code roomId ((same.codes code).symm.trans found)

theorem step_sixLong {event : Event} (long : w.SixLong) (stepped : step w event = some next) : next.SixLong := by
  by_cases creates : ∃ roomInfo dist, event = .createRoom roomInfo dist
  · obtain ⟨roomInfo,dist,rfl⟩ := creates
    cases stepped
    by_cases registers : w.Registers roomInfo
    · obtain ⟨-,room,entered⟩ := createRoom_registers dist registers
      intro code roomId found
      rw [entered.codes] at found
      split at found
      · rename_i drawn
        rw [drawn]
        exact (roomCode_plain dist).2
      · exact long code roomId found
    · exact same_sixLong (createRoom_refused dist registers).2 long
  · by_cases dissolves : ∃ roomId playerId, event = .dissolveRoom roomId playerId
    · obtain ⟨roomId,playerId,rfl⟩ := dissolves
      cases stepped
      by_cases ok : (w.dissolveRoom roomId playerId).1 = .ok
      · obtain ⟨room,-,-,codes⟩ := dissolveRoom_dissolves ok
        intro code other found
        rw [codes] at found
        split at found
        · cases found
        · exact long code other found
      · exact same_sixLong (dissolveRoom_refused ok) long
    · apply same_sixLong (step_same stepped ?_ ?_) long
      · exact fun roomInfo dist same => creates ⟨roomInfo,dist,same⟩
      · exact fun roomId playerId same => dissolves ⟨roomId,playerId,same⟩

end Lobby

namespace Server
open Foundation RequestPayload

-- A member of a listed room asks to leave it, from the live session the member is bound to.
structure Leaving (s : Server) (roomId : RoomId) (room : GameRoom) (pack : MsgPack) : Prop where
  listed : s.lobby.getRoom roomId = some room
  member : pack.senderId ∈ room.memberIds
  known : s.users.getUserId pack.senderSessionId = pack.senderId
  bound : s.users.getSessionId pack.senderId = pack.senderSessionId
  live : pack.senderSessionId ∈ s.sessions
  kind : pack.msg.subType = RoomReqType.leaveRoom
  code : pack.msg.payload = room.info.roomCode

structure Left (s : Server) (roomId : RoomId) (room : GameRoom) (pack : MsgPack) (out : Outcome) : Prop where
  removed : ∃ left, out.server.lobby.getRoom roomId = some left ∧ left.memberIds = room.memberIds.erase pack.senderId ∧
    (left.info.state = .lobby → left.group.members.length < left.group.capacity →
      ∃ lobby, out.server.lobby.joinRoom roomId pack.senderId = some (.ok .ok,lobby))
  others : ∀ other, other ≠ roomId → out.server.lobby.getRoom other = s.lobby.getRoom other
  codes : ∀ code, out.server.lobby.roomCodeToId code = s.lobby.roomCodeToId code
  replied : ∃ delivery ∈ out.deliveries, delivery.sessionId = pack.senderSessionId ∧ delivery.msg.mainType = MsgType.roomRsp ∧
    delivery.msg.subType = RoomReqType.leaveRoom ∧ delivery.msg.payload = [RoomReqResult.ok.code]

section Leaving
variable {library : JsonLibrary} {s : Server} {turn : Turn} {pack : MsgPack} {roomId : RoomId} {room : GameRoom}

theorem leave_idle (long : s.lobby.SixLong) : (s.handleRoomLeaveRequest turn pack).server = s := by
  unfold handleRoomLeaveRequest
  split
  · rfl
  cases code : s.lobby.roomCodeToId readLeave.first with
  | none => rfl
  | some roomId => exact absurd (long _ _ code) (by decide)

theorem leaving_stays (long : s.lobby.SixLong) (leaving : Leaving s roomId room pack) :
    (s.handleRoom library turn pack).server = s := by
  unfold handleRoom
  rw [leaving.kind,if_neg (by decide),if_neg (by decide),if_pos rfl]
  exact leave_idle long

theorem start_sixLong (heap : Heap) : (start heap).lobby.SixLong := by
  intro code roomId found
  cases found

theorem leave_never_works (heap : Heap) {moves : List Act}
    (path : Machine.run (act library) (start heap) moves = some s) (leaving : Leaving s roomId room pack) (turn : Turn) :
    ¬ Left s roomId room pack (s.handleRoom library turn pack) := by
  intro left
  have long : s.lobby.SixLong := acts_keep (fun _ _ _ held _ stepped => Lobby.step_sixLong held stepped)
    (start_sixLong heap) path
  obtain ⟨after,listed,ids,-⟩ := left.removed
  rw [leaving_stays long leaving] at listed
  cases leaving.listed.symm.trans listed
  have shorter := List.length_erase_of_mem leaving.member
  have filled := List.length_pos_of_mem leaving.member
  rw [← ids] at shorter
  omega

end Leaving

def leavesRoom : MsgPack := ⟨124,1,0,⟨3,ProtoType.data,MsgType.roomReq,RoomReqType.leaveRoom,stdString "000000"⟩⟩

def hosted : List Act := hostsRoom.map .network

theorem hosted_leaving : ∃ s room, Machine.run (act Json.compact) (start Lobby.noInfos) hosted = some s ∧
    Leaving s 1 room leavesRoom := by
  have seen : ((Machine.run (act Json.compact) (start Lobby.noInfos) hosted).bind fun s => (s.lobby.getRoom 1).map fun room =>
      (room.memberIds,room.info.roomCode,s.users.getUserId 1,s.users.getSessionId 124,decide (1 ∈ s.sessions))) =
        some ([124],stdString "000000",124,1,true) := by decide +kernel
  obtain ⟨s,path,looked⟩ := Option.bind_eq_some_iff.mp seen
  obtain ⟨room,listed,shown⟩ := Option.map_eq_some_iff.mp looked
  simp only [Prod.mk.injEq,decide_eq_true_eq] at shown
  obtain ⟨ids,code,user,session,live⟩ := shown
  refine ⟨s,room,path,listed,?_,user,session,live,rfl,code.symm⟩
  rw [ids]
  exact List.mem_singleton.mpr rfl

theorem host_never_leaves : ∃ s room, Machine.run (act Json.compact) (start Lobby.noInfos) hosted = some s ∧
    ¬ Left s 1 room leavesRoom (s.handleRoom Json.compact blankTurn leavesRoom) := by
  obtain ⟨s,room,path,leaving⟩ := hosted_leaving
  exact ⟨s,room,path,leave_never_works Lobby.noInfos path leaving blankTurn⟩

-- The host is still there.
theorem host_stays_behind : ¬ ∀ (library : JsonLibrary) (heap : Heap) (moves : List Act) (s : Server) (roomId : RoomId)
    (room : GameRoom) (pack : MsgPack) (turn : Turn), Machine.run (act library) (start heap) moves = some s →
      Leaving s roomId room pack → Left s roomId room pack (s.handleRoom library turn pack) := by
  intro works
  obtain ⟨s,room,path,leaving⟩ := hosted_leaving
  obtain ⟨left,listed,ids,-⟩ := (works _ _ _ s 1 room leavesRoom blankTurn path leaving).removed
  have seen : ((Machine.run (act Json.compact) (start Lobby.noInfos) hosted).map fun s =>
      ((s.lobby.getRoom 1).map GameRoom.memberIds,
        ((s.handleRoom Json.compact blankTurn leavesRoom).server.lobby.getRoom 1).map GameRoom.memberIds)) =
          some (some [124],some [124]) := by decide +kernel
  rw [path,Option.map_some,leaving.listed,listed] at seen
  simp only [Option.some.injEq,Prod.mk.injEq,Option.map_some] at seen
  rw [seen.1,seen.2] at ids
  exact absurd ids (by decide)

end Server
end GameServer
