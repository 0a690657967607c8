import GameServer.ManagedRuns
import GameServer.OpenLobby

namespace GameServer.Server
open Foundation RequestPayload

def asked (turn : Turn) (pack : MsgPack) : Foyer.Request :=
  if pack.msg.payload = [] then .nothing
  else if pack.msg.subType = RoomReqType.createRoom then
    let request := readPair turn.past pack.msg.payload
    .create pack.senderId request.first request.second (RoomUtils.genRoomCode turn.dist)
  else if pack.msg.subType = RoomReqType.joinRoom then .join pack.senderId (readJoin turn.past pack.msg.payload).first
  else .nothing

def entered (turn : Turn) (pack : MsgPack) : Foyer.Request :=
  if LogsIn pack then .login (validateLogin (readPair turn.past pack.msg.payload).first).1 else .nothing

def request (s : Server) : Event → Foyer.Request
  | .runLogin turn => match s.loginStrand with
    | pack :: _ => entered turn pack
    | [] => .nothing
  | .runRoom turn => match s.roomStrand with
    | pack :: _ => asked turn pack
    | [] => .nothing
  | _ => .nothing

def requests (library : JsonLibrary) (s : Server) (events : List Event) : List Foyer.Request :=
  Machine.observed (step library) request s events

section Requests
variable {library : JsonLibrary} {s next : Server} {turn : Turn} {pack : MsgPack} {event : Event} {events : List Event}

theorem requestedRoom_empty (request : Reading) (senderId : UserId) : (requestedRoom request senderId).playerCount = 0 := rfl

theorem create_lobby (filled : pack.msg.payload ≠ []) : (s.handleRoomCreateRequest library turn pack).server.lobby =
    (s.lobby.createRoom (requestedRoom (readPair turn.past pack.msg.payload) pack.senderId) turn.dist).lobby := by
  unfold handleRoomCreateRequest
  rw [if_neg filled]
  dsimp only
  split
  · rfl
  · rw [replyToUser_lobby]

theorem joined_lobby {roomId : RoomId} {result : RoomReqResult} {lobby : Lobby} (filled : pack.msg.payload ≠ [])
    (code : s.lobby.roomCodeToId (readJoin turn.past pack.msg.payload).first = some roomId)
    (joined : s.lobby.joinRoom roomId pack.senderId = some (.ok result,lobby)) :
    (s.handleRoomJoinRequest library turn pack).server.lobby = lobby := by
  unfold handleRoomJoinRequest
  rw [if_neg filled]
  dsimp only
  rw [code]
  dsimp only
  rw [joined]
  cases result with
  | ok =>
    dsimp only
    split
    · rfl
    · rw [roomBroadCast_lobby,replyToUser_lobby]
  | _ => exact replyToUser_lobby _ _ _

theorem crash_lobby (empty : pack.msg.payload = []) : (s.handleRoom library turn pack).server.lobby = s.lobby := by
  unfold handleRoom handleRoomCreateRequest handleRoomJoinRequest handleRoomLeaveRequest
  rw [if_pos empty,if_pos empty,if_pos empty,handleRoomListRequest]
  split_ifs
  · rfl
  · rfl
  · rfl
  · split
    · rfl
    · exact replyToSession_lobby _ _ _

theorem handleRoom_foyer (open_ : s.lobby.Open) : (s.handleRoom library turn pack).server.lobby.Open ∧
    (s.handleRoom library turn pack).server.lobby.foyer = s.lobby.foyer.serve (asked turn pack) := by
  by_cases empty : pack.msg.payload = []
  · rw [crash_lobby empty,asked,if_pos empty]
    exact ⟨open_,rfl⟩
  unfold handleRoom asked
  rw [if_neg empty]
  split
  · rw [create_lobby empty]
    exact Lobby.createRoom_open (requestedRoom_asked turn.past pack.msg.payload pack.senderId)
      (requestedRoom_empty _ pack.senderId) open_
  · split
    · unfold Foyer.serve
      dsimp only
      cases code : s.lobby.roomCodeToId (readJoin turn.past pack.msg.payload).first with
      | none =>
        have none_ : s.lobby.foyer.codes (readJoin turn.past pack.msg.payload).first = none := code
        have kept : (s.handleRoomJoinRequest library turn pack).server.lobby = s.lobby := by
          unfold handleRoomJoinRequest
          rw [if_neg empty]
          dsimp only
          rw [code]
          exact replyToUser_lobby _ _ _
        rw [kept,none_]
        exact ⟨open_,rfl⟩
      | some roomId =>
        have led : s.lobby.foyer.codes (readJoin turn.past pack.msg.payload).first = some roomId := code
        obtain ⟨result,lobby,joined,after,foyer⟩ := Lobby.joinRoom_open open_ roomId pack.senderId
        rw [joined_lobby empty code joined,led]
        exact ⟨after,foyer⟩
    · split
      · -- The code a leave request is read to hold is empty, and no room has that one.
        unfold handleRoomLeaveRequest
        rw [if_neg empty]
        cases code : s.lobby.roomCodeToId readLeave.first with
        | none => exact ⟨open_,rfl⟩
        | some roomId => exact absurd (open_.served.codes _ _ code).1 (by decide)
      · have kept : (s.handleRoomListRequest library turn pack).server.lobby = s.lobby := by
          unfold handleRoomListRequest
          split
          · rfl
          · exact replyToSession_lobby _ _ _
        rw [kept]
        exact ⟨open_,rfl⟩

theorem handleLogin_foyer (open_ : s.lobby.Open) : (s.handleLogin turn pack).server.lobby.Open ∧
    (s.handleLogin turn pack).server.lobby.foyer = s.lobby.foyer.serve (entered turn pack) := by
  unfold handleLogin entered
  split
  · rename_i login
    unfold handleLoginRequest
    split
    · rename_i empty
      rw [if_neg fun logs : LogsIn pack => logs.2 empty]
      exact ⟨open_,rfl⟩
    rename_i filled
    rw [if_pos (show LogsIn pack from ⟨login,filled⟩)]
    dsimp only
    rw [replyToSession_lobby]
    exact Lobby.userLogin_open open_ _ rfl
  · rename_i other
    rw [if_neg fun logs : LogsIn pack => other logs.1]
    exact ⟨open_,rfl⟩

theorem step_foyer (open_ : s.lobby.Open) (stepped : step library s event = some next) :
    next.lobby.Open ∧ next.lobby.foyer = s.lobby.foyer.serve (s.request event) := by
  cases step_stepped stepped with
  | connect connected => cases connected <;> exact ⟨open_,rfl⟩
  | close => exact ⟨open_,rfl⟩
  | receive present heard =>
    cases heard with
    | answered =>
      obtain ⟨n,sent⟩ := sendMessageToSession_server s _ _
      rw [sent]
      exact ⟨open_,rfl⟩
    | login => exact ⟨open_,rfl⟩
    | room known => exact ⟨open_,rfl⟩
    | unknown => exact ⟨open_,rfl⟩
  | @runLogin turn pack rest first =>
    have seen : s.request (.runLogin turn) = entered turn pack := by rw [request,first]
    rw [seen]
    have open' : ({ s with loginStrand := rest } : Server).lobby.Open := open_
    exact handleLogin_foyer open'
  | @runRoom turn pack rest first =>
    have seen : s.request (.runRoom turn) = asked turn pack := by rw [request,first]
    rw [seen]
    have open' : ({ s with roomStrand := rest } : Server).lobby.Open := open_
    exact handleRoom_foyer open'

theorem run_open (open_ : s.lobby.Open) (path : Machine.run (step library) s events = some next) : next.lobby.Open := by
  have kept : ∀ (s : Server) event next, s.lobby.Open → step library s event = some next → next.lobby.Open :=
    fun _ _ _ open_ stepped => (step_foyer open_ stepped).1
  exact Machine.run_preserves kept open_ path

theorem run_foyer (open_ : s.lobby.Open) (path : Machine.run (step library) s events = some next) :
    next.lobby.foyer = s.lobby.foyer.serveAll (requests library s events) :=
  Machine.run_abstracts (fun _ _ _ open_ stepped => (step_foyer open_ stepped).1)
    (fun _ _ _ open_ stepped => (step_foyer open_ stepped).2) open_ path

theorem run_seated (heap : Heap) (path : Machine.run (step library) (start heap) events = some s) : s.lobby.foyer.Seated := by
  rw [run_foyer (Lobby.opened_open heap) path]
  exact Foyer.serveAll_seated Foyer.empty_seated _

end Requests

-- What the network server makes of its rooms, handlers that end with an
-- exception included, is what the tables make of the requests its strands have run.
theorem server_is_foyer (library : JsonLibrary) (heap : Heap) (events : List Event) (s : Server)
    (path : Machine.run (step library) (start heap) events = some s) :
    s.lobby.foyer = Foyer.serveAll {} (requests library (start heap) events) :=
  run_foyer (Lobby.opened_open heap) path

theorem hosted_is_foyer : ∃ s, Machine.run (step Json.compact) (start Lobby.noInfos) hostsRoom = some s ∧
    s.lobby.foyer = Foyer.serveAll {} (requests Json.compact (start Lobby.noInfos) hostsRoom) := by
  obtain ⟨s,path⟩ : ∃ s, Machine.run (step Json.compact) (start Lobby.noInfos) hostsRoom = some s := ⟨_,rfl⟩
  exact ⟨s,path,server_is_foyer Json.compact Lobby.noInfos hostsRoom s path⟩

-- A room as every client finds it.
structure Hosted (s : Server) (roomId : RoomId) (room : GameRoom) : Prop where
  waiting : Lobby.Waiting roomId room
  capacity : room.group.capacity = 4
  guests : 1 ≤ room.memberIds.length ∧ room.memberIds.length ≤ 4 ∧ room.memberIds.Nodup
  counted : room.info.playerCount.toNat = room.memberIds.length
  registered : ∀ userId ∈ room.memberIds, userId ≠ 0 ∧ ∃ player, s.lobby.getPlayer userId = some player ∧ player.userId = userId

-- No request starts a match or leaves a room without its owner in front of at
-- most three others, all registered.
theorem rooms_hosted (library : JsonLibrary) (heap : Heap) (events : List Event) :
    Machine.Always (step library) (fun s => ∀ roomId room, s.lobby.getRoom roomId = some room → Hosted s roomId room)
      (start heap) events := by
  intro earlier later s _ path roomId room listed
  have open_ := run_open (Lobby.opened_open heap) path
  have waiting := open_.rooms roomId room listed
  obtain ⟨some_,few,once,known⟩ := (run_seated heap path).tables roomId _ (Lobby.foyer_table listed)
  have few : room.memberIds.length ≤ 4 := few
  refine ⟨waiting,(open_.served.rooms _ _ listed).capacity,⟨?_,few,once⟩,?_,?_⟩
  · exact List.length_pos_of_ne_nil some_
  · rw [waiting.counted,UInt64.toNat_ofNat_of_lt']
    have size : UInt64.size = 18446744073709551616 := rfl
    omega
  · intro userId member
    obtain ⟨player,found⟩ := Lobby.foyer_known.mp (known userId member)
    obtain ⟨same,real⟩ := Lobby.known_real open_ found
    exact ⟨real,player,found,same⟩

-- While the process lives and 2^32 - 1 rooms have not been asked for, no room, no
-- code, no user and no guest is ever lost, and guests keep their seats.
theorem nothing_lost (library : JsonLibrary) (heap : Heap) (earlier later : List Event) (middle s : Server)
    (first : Machine.run (step library) (start heap) earlier = some middle)
    (second : Machine.run (step library) middle later = some s)
    (room : (requests library (start heap) (earlier ++ later)).countP Foyer.Request.creates + 1 < 2 ^ 32) :
    Foyer.Extends middle.lobby.foyer s.lobby.foyer := by
  have split : requests library (start heap) (earlier ++ later) =
      requests library (start heap) earlier ++ requests library middle later := Machine.observed_append later first
  rw [split,List.countP_append] at room
  have begun := Lobby.opened_open heap
  have orderly := (Foyer.serveAll_extends Foyer.empty_orderly (requests library (start heap) earlier) (by omega)).1
  rw [run_foyer (run_open begun first) second,run_foyer begun first]
  exact (Foyer.serveAll_extends orderly (requests library middle later) (by omega)).2

theorem hosted_kept : ∃ middle s, Machine.run (step Json.compact) (start Lobby.noInfos) hostsRoom = some middle ∧
    Machine.run (step Json.compact) middle [.close 1] = some s ∧ Foyer.Extends middle.lobby.foyer s.lobby.foyer := by
  have seen : ((Machine.run (step Json.compact) (start Lobby.noInfos) hostsRoom).bind fun middle =>
      Machine.run (step Json.compact) middle [.close 1]).isSome = true := by decide +kernel
  obtain ⟨s,both⟩ := Option.isSome_iff_exists.mp seen
  obtain ⟨middle,first,second⟩ := Option.bind_eq_some_iff.mp both
  refine ⟨middle,s,first,second,?_⟩
  exact nothing_lost Json.compact Lobby.noInfos hostsRoom [.close 1] middle s first second (by decide +kernel)

-- Nobody sits in a room without having logged in and then asked for it, by
-- creating it or by its code.
theorem guests_asked (library : JsonLibrary) (heap : Heap) (events : List Event) (s : Server)
    (path : Machine.run (step library) (start heap) events = some s)
    (few : (requests library (start heap) events).countP Foyer.Request.creates + 1 < 2 ^ 32) (roomId : RoomId) (room : GameRoom)
    (listed : s.lobby.getRoom roomId = some room) (userId : UserId) (member : userId ∈ room.memberIds) :
    ∃ earlier request later, requests library (start heap) events = earlier ++ request :: later ∧ .login userId ∈ earlier ∧
      (request = .create userId room.info.roomName room.info.password room.info.roomCode ∨
        request = .join userId room.info.roomCode) := by
  have vouched := Foyer.serveAll_vouched (requests library (start heap) events) few
  have refined : s.lobby.foyer = Foyer.serveAll {} (requests library (start heap) events) := run_foyer (Lobby.opened_open heap) path
  rw [← refined] at vouched
  obtain ⟨earlier,request,⟨later,split⟩,login,made⟩ := vouched.guests roomId _ (Lobby.foyer_table listed) userId member
  exact ⟨earlier,request,later,split,login,made⟩

theorem host_asked : ∃ s room, Machine.run (step Json.compact) (start Lobby.noInfos) hostsRoom = some s ∧
    s.lobby.getRoom 1 = some room ∧ 124 ∈ room.memberIds ∧
    ∃ earlier request later, requests Json.compact (start Lobby.noInfos) hostsRoom = earlier ++ request :: later ∧
      .login 124 ∈ earlier ∧ (request = .create 124 room.info.roomName room.info.password room.info.roomCode ∨
        request = .join 124 room.info.roomCode) := by
  have seen : ((Machine.run (step Json.compact) (start Lobby.noInfos) hostsRoom).bind fun s =>
      (s.lobby.getRoom 1).map GameRoom.memberIds) = some [124] := by decide +kernel
  obtain ⟨s,path,looked⟩ := Option.bind_eq_some_iff.mp seen
  obtain ⟨room,listed,ids⟩ := Option.map_eq_some_iff.mp looked
  have member : 124 ∈ room.memberIds := by rw [ids]; exact List.mem_singleton_self _
  refine ⟨s,room,path,listed,member,?_⟩
  exact guests_asked Json.compact Lobby.noInfos hostsRoom s path (by decide +kernel) 1 room listed 124 member

end GameServer.Server
