import GameServer.Group
import GameServer.MatchRun

namespace GameServer
open Foundation

inductive RoomReqResult where
  | ok | full | notFound | alreadyInRoom | notInRoom | notOwner | invalidCapacity | alreadyRunning | notReady
  | gameRunning | genRoomCodeFailed | illegalOperation | emptyReq | notAuthorized | unknownError
deriving DecidableEq, Repr

inductive RoomState where
  | lobby | running
deriving DecidableEq, Repr

structure GameRoomInfo where
  roomId : RoomId := 0
  roomCode : StdString := []
  roomName : StdString := []
  password : StdString := []
  ownerId : UserId := 0
  capacity : Nat := 0
  playerCount : UInt64 := 0
  state : RoomState := .lobby
  selectedMapPath : StdString := []
  players : List GamePlayerInfo := []
  seatIndex : Int32 := 0
deriving DecidableEq

-- A shared GamePlayer object. Its user id is fixed at construction, as nothing
-- calls UpdateInfo; the rest of its info is found by the object.
structure GamePlayer where
  object : Nat
  userId : UserId
deriving DecidableEq, Repr

abbrev Heap := Nat → GamePlayerInfo

namespace GamePlayer

def getInfo (player : GamePlayer) (heap : Heap) : GamePlayerInfo :=
  { heap player.object with bInfo := { (heap player.object).bInfo with userId := player.userId } }

def update (player : GamePlayer) (heap : Heap) (change : GamePlayerInfo → GamePlayerInfo) : Heap :=
  Function.update heap player.object (change (heap player.object))

def setSession (player : GamePlayer) (heap : Heap) (sessionId : SessionId) : Heap :=
  player.update heap fun info => { info with bInfo := { info.bInfo with sessionId := sessionId } }

def setOnline (player : GamePlayer) (heap : Heap) (online : Bool) : Heap :=
  player.update heap fun info => { info with bInfo := { info.bInfo with isOnline := online } }

def setReady (player : GamePlayer) (heap : Heap) (ready : Bool) : Heap :=
  player.update heap fun info => { info with ready := ready }

def enterRoom (player : GamePlayer) (heap : Heap) (roomId : RoomId) : Heap :=
  player.update heap fun info => { info with bInfo := { info.bInfo with currentGroupId := roomId } }

end GamePlayer

-- The command handler is made with the room and never replaced.
structure GameRoom where
  info : GameRoomInfo
  cmdHandler : GameCmdHandler
  group : Group GamePlayer

namespace GameRoom

-- Reserving storage for `capacity` members is taken to succeed.
def create (info : GameRoomInfo) : GameRoom :=
  ⟨info,GameCmdHandler.create info.roomId,⟨info.roomId,info.capacity,[]⟩⟩

def isRunning (room : GameRoom) : Bool := room.info.state = .running

def setRoomState (room : GameRoom) (state : RoomState) : GameRoom := { room with info := { room.info with state := state } }

def mapGroupResult : GroupResult → RoomReqResult
  | .ok => .ok
  | .full => .full
  | .alreadyInGroup => .alreadyInRoom
  | .notInGroup => .notInRoom
  | .invalidCapacity => .invalidCapacity

def createMatchInfo (room : GameRoom) (heap : Heap) : MatchInfo :=
  ⟨room.group.members.map (·.getInfo heap),room.info.selectedMapPath,room.info.ownerId⟩

def joinRoom (room : GameRoom) (heap : Heap) (player : Option GamePlayer) : RoomReqResult × GameRoom × Heap :=
  if room.isRunning then (.gameRunning,room,heap)
  else match player with
    | none => (.notAuthorized,room,heap)
    | some player =>
      if player.userId = 0 then (.notAuthorized,room,heap)
      else
        let heap := player.enterRoom heap room.info.roomId
        let added := room.group.addMember GamePlayer.userId player
        let ret := mapGroupResult added.1
        let room := { room with group := added.2 }
        if ret = .ok then (ret,{ room with info := { room.info with playerCount := room.info.playerCount + 1 } },heap)
        else (ret,room,heap)

def leaveRoom (room : GameRoom) (playerId : UserId) : RoomReqResult × GameRoom :=
  let removed := room.group.removeMember GamePlayer.userId playerId
  let ret := mapGroupResult removed.1
  let room := { room with group := removed.2 }
  if ret = .ok then (ret,{ room with info := { room.info with playerCount := room.info.playerCount - 1 } })
  else (ret,room)

def setReady (room : GameRoom) (heap : Heap) (playerId : UserId) (ready : Bool) : RoomReqResult × Heap :=
  match room.group.findMember GamePlayer.userId playerId with
  | none => (.notInRoom,heap)
  | some player => (.ok,player.setReady heap ready)

def startGame (room : GameRoom) (heap : Heap) (loadMapData : StdString → Option MapData) (playerId : UserId) :
    Except Thrown RoomReqResult × GameRoom :=
  if playerId ≠ room.info.ownerId then (.ok .notOwner,room)
  else if room.isRunning then (.ok .alreadyRunning,room)
  else if room.group.getMemberCount < 2 then (.ok .illegalOperation,room)
  else
    match room.cmdHandler.initGameState.startGame loadMapData (room.createMatchInfo heap) with
    | (some error,handler) => (.error error,{ room with cmdHandler := handler })
    | (none,handler) => (.ok .ok,{ room with cmdHandler := handler.startTicking 50 }.setRoomState .running)

def changeMap (room : GameRoom) (playerId : UserId) (mapPath : StdString) : RoomReqResult × GameRoom :=
  if playerId ≠ room.info.ownerId then (.notOwner,room)
  else if room.info.state ≠ .lobby then (.alreadyRunning,room)
  else (.ok,{ room with info := { room.info with selectedMapPath := mapPath } })

def changeRoomName (room : GameRoom) (playerId : UserId) (newName : StdString) : RoomReqResult × GameRoom :=
  if playerId ≠ room.info.ownerId then (.notOwner,room)
  else (.ok,{ room with info := { room.info with roomName := newName } })

def changePassword (room : GameRoom) (playerId : UserId) (newPassword : StdString) : RoomReqResult × GameRoom :=
  if playerId ≠ room.info.ownerId then (.notOwner,room)
  else (.ok,{ room with info := { room.info with password := newPassword } })

def kickPlayer (room : GameRoom) (playerId targetId : UserId) : RoomReqResult × GameRoom :=
  if playerId ≠ room.info.ownerId then (.notOwner,room)
  else if room.isRunning then (.gameRunning,room)
  else if targetId = playerId then (.illegalOperation,room)
  else
    let removed := room.group.removeMember GamePlayer.userId targetId
    (mapGroupResult removed.1,{ room with group := removed.2 })

def changeCapacity (room : GameRoom) (playerId : UserId) (newCapacity : Nat) : RoomReqResult × GameRoom :=
  if playerId ≠ room.info.ownerId then (.notOwner,room)
  else
    let resized := room.group.setCapacity newCapacity
    (mapGroupResult resized.1,{ room with group := resized.2 })

def dissolveRoom (room : GameRoom) (playerId : UserId) : RoomReqResult × GameRoom :=
  if playerId ≠ room.info.ownerId then (.notOwner,room)
  else
    let room := { room with cmdHandler := room.cmdHandler.stopTicking, group := room.group.clearMembers }
    (.ok,room.setRoomState .lobby)

-- What OnGameEnd leaves on the room; the message it broadcasts is not part of it.
def onGameEnd (room : GameRoom) (_ : Ending) : GameRoom :=
  let room := room.setRoomState .lobby
  { room with cmdHandler := room.cmdHandler.stopTicking }

-- The callback runs inside ProcessCommand but shares no state with it.
def processCommand (room : GameRoom) (iteration : Iteration) (cmd : BattleCmd) :
    Option (Except Thrown RoomReqResult × GameRoom) :=
  match room.cmdHandler.runtime.processCommand iteration cmd with
  | .done b =>
    let played := { room with cmdHandler := { room.cmdHandler with runtime := b.runtime } }
    some (.ok .ok,b.endings.foldl onGameEnd played)
  | .thrown error rt => some (.error error,{ room with cmdHandler := { room.cmdHandler with runtime := rt } })
  | .undefined => none

inductive Op where
  | joinRoom (player : Option GamePlayer)
  | leaveRoom (playerId : UserId)
  | setReady (playerId : UserId) (ready : Bool)
  | startGame (loadMapData : StdString → Option MapData) (playerId : UserId)
  | changeMap (playerId : UserId) (mapPath : StdString)
  | changeRoomName (playerId : UserId) (newName : StdString)
  | changePassword (playerId : UserId) (newPassword : StdString)
  | kickPlayer (playerId targetId : UserId)
  | changeCapacity (playerId : UserId) (newCapacity : Nat)
  | dissolveRoom (playerId : UserId)
  | processCommand (iteration : Iteration) (cmd : BattleCmd)
  | tick (deltaMs : UInt64)

def perform (room : GameRoom) (heap : Heap) : Op → Option (Except Thrown RoomReqResult × GameRoom × Heap)
  | .joinRoom player => let out := room.joinRoom heap player; some (.ok out.1,out.2.1,out.2.2)
  | .leaveRoom playerId => let out := room.leaveRoom playerId; some (.ok out.1,out.2,heap)
  | .setReady playerId ready => let out := room.setReady heap playerId ready; some (.ok out.1,room,out.2)
  | .startGame loadMapData playerId => let out := room.startGame heap loadMapData playerId; some (out.1,out.2,heap)
  | .changeMap playerId mapPath => let out := room.changeMap playerId mapPath; some (.ok out.1,out.2,heap)
  | .changeRoomName playerId newName => let out := room.changeRoomName playerId newName; some (.ok out.1,out.2,heap)
  | .changePassword playerId newPassword => let out := room.changePassword playerId newPassword; some (.ok out.1,out.2,heap)
  | .kickPlayer playerId targetId => let out := room.kickPlayer playerId targetId; some (.ok out.1,out.2,heap)
  | .changeCapacity playerId newCapacity => let out := room.changeCapacity playerId newCapacity; some (.ok out.1,out.2,heap)
  | .dissolveRoom playerId => let out := room.dissolveRoom playerId; some (.ok out.1,out.2,heap)
  | .processCommand iteration cmd => (room.processCommand iteration cmd).map fun out => (out.1,out.2,heap)
  | .tick deltaMs => some (.ok .ok,{ room with cmdHandler := room.cmdHandler.tick deltaMs },heap)

def step (s : GameRoom × Heap) (op : Op) : Option (GameRoom × Heap) := (s.1.perform s.2 op).map fun out => out.2

-- What an operation may do to a room: its identity stays, and its members are
-- as before, fewer, or joined by one with a valid id of their own.
inductive Change (room : GameRoom) : GameRoom → Prop where
  | kept {next : GameRoom} (roomId : next.info.roomId = room.info.roomId) (roomCode : next.info.roomCode = room.info.roomCode)
      (fewer : next.group.members.Sublist room.group.members) : Change room next
  | joined {next : GameRoom} {player : GamePlayer} (roomId : next.info.roomId = room.info.roomId)
      (roomCode : next.info.roomCode = room.info.roomCode) (real : player.userId ≠ 0)
      (fresh : player.userId ∉ room.group.members.map GamePlayer.userId)
      (members : next.group.members = room.group.members ++ [player]) : Change room next

section Changes
variable {room next : GameRoom}

theorem Change.roomId (change : Change room next) : next.info.roomId = room.info.roomId := by
  cases change <;> assumption

theorem Change.roomCode (change : Change room next) : next.info.roomCode = room.info.roomCode := by
  cases change <;> assumption

theorem unchanged : Change room room := .kept rfl rfl (List.Sublist.refl _)

theorem joinRoom_change (heap : Heap) (player : Option GamePlayer) : Change room (room.joinRoom heap player).2.1 := by
  unfold joinRoom
  split
  · exact unchanged
  · cases player with
    | none => exact unchanged
    | some player =>
      dsimp only
      split
      · exact unchanged
      · rename_i real
        rcases Group.addMember_members GamePlayer.userId room.group player with same | ⟨fresh,appended⟩
        · split <;> exact .kept rfl rfl (by dsimp only; rw [same])
        · split <;> exact .joined rfl rfl real fresh appended

theorem removed_sublist (memberKey : UserId) :
    (room.group.removeMember GamePlayer.userId memberKey).2.members.Sublist room.group.members := by
  rw [Group.removeMember_members]
  exact List.eraseP_sublist

theorem leaveRoom_change (playerId : UserId) : Change room (room.leaveRoom playerId).2 := by
  unfold leaveRoom
  dsimp only
  split <;> exact .kept rfl rfl (removed_sublist playerId)

theorem kickPlayer_change (playerId targetId : UserId) : Change room (room.kickPlayer playerId targetId).2 := by
  unfold kickPlayer
  split
  · exact unchanged
  · split
    · exact unchanged
    · split
      · exact unchanged
      · exact .kept rfl rfl (removed_sublist targetId)

theorem startGame_change (heap : Heap) (loadMapData : StdString → Option MapData) (playerId : UserId) :
    Change room (room.startGame heap loadMapData playerId).2 := by
  unfold startGame
  split
  · exact unchanged
  · split
    · exact unchanged
    · split
      · exact unchanged
      · split <;> exact .kept rfl rfl (List.Sublist.refl _)

theorem dissolveRoom_change (playerId : UserId) : Change room (room.dissolveRoom playerId).2 := by
  unfold dissolveRoom
  split
  · exact unchanged
  · exact .kept rfl rfl (List.nil_sublist _)

theorem onGameEnd_fold (endings : List Ending) : ∀ room : GameRoom,
    (endings.foldl onGameEnd room).info.roomId = room.info.roomId ∧
      (endings.foldl onGameEnd room).info.roomCode = room.info.roomCode ∧
      (endings.foldl onGameEnd room).group = room.group := by
  induction endings with
  | nil => intro room; exact ⟨rfl,rfl,rfl⟩
  | cons ending rest ih => intro room; exact ih (room.onGameEnd ending)

theorem perform_change {heap : Heap} {op : Op} {result : Except Thrown RoomReqResult} {after : Heap}
    (performed : room.perform heap op = some (result,next,after)) : Change room next := by
  cases op with
  | joinRoom player => cases performed; exact joinRoom_change heap player
  | leaveRoom playerId => cases performed; exact leaveRoom_change playerId
  | setReady playerId ready => cases performed; exact unchanged
  | startGame loadMapData playerId => cases performed; exact startGame_change heap loadMapData playerId
  | changeMap playerId mapPath =>
    cases performed
    unfold changeMap
    split
    · exact unchanged
    · split
      · exact unchanged
      · exact .kept rfl rfl (List.Sublist.refl _)
  | changeRoomName playerId newName =>
    cases performed
    unfold changeRoomName
    split
    · exact unchanged
    · exact .kept rfl rfl (List.Sublist.refl _)
  | changePassword playerId newPassword =>
    cases performed
    unfold changePassword
    split
    · exact unchanged
    · exact .kept rfl rfl (List.Sublist.refl _)
  | kickPlayer playerId targetId => cases performed; exact kickPlayer_change playerId targetId
  | changeCapacity playerId newCapacity =>
    cases performed
    unfold changeCapacity
    split
    · exact unchanged
    · refine .kept rfl rfl ?_
      dsimp only
      rw [Group.setCapacity_members]
  | dissolveRoom playerId => cases performed; exact dissolveRoom_change playerId
  | processCommand iteration cmd =>
    obtain ⟨out,played,same⟩ := Option.map_eq_some_iff.mp performed
    cases same
    unfold processCommand at played
    split at played
    · rename_i b _
      cases played
      obtain ⟨roomId,roomCode,group⟩ := onGameEnd_fold b.endings
        { room with cmdHandler := { room.cmdHandler with runtime := b.runtime } }
      exact .kept roomId roomCode (by rw [group])
    · cases played; exact .kept rfl rfl (List.Sublist.refl _)
    · cases played
  | tick deltaMs => cases performed; exact .kept rfl rfl (List.Sublist.refl _)

-- The members of a room: distinct ids, none of them the invalid one.
structure Seated (room : GameRoom) : Prop where
  keyed : room.group.Keyed GamePlayer.userId
  real : 0 ∉ room.group.members.map GamePlayer.userId

theorem create_seated (info : GameRoomInfo) : (create info).Seated := ⟨List.nodup_nil,List.not_mem_nil⟩

theorem change_seated (seated : room.Seated) (change : Change room next) : next.Seated := by
  obtain ⟨keyed,real⟩ := seated
  cases change with
  | kept _ _ fewer =>
    have ids := List.Sublist.map GamePlayer.userId fewer
    exact ⟨List.Nodup.sublist ids keyed,fun member => real (ids.subset member)⟩
  | @joined player _ _ valid fresh members =>
    refine ⟨?_,?_⟩
    · rw [Group.Keyed,members,List.map_append,List.map_singleton]
      exact List.Nodup.append keyed (List.nodup_singleton _) (by simpa using fresh)
    · rw [members,List.map_append,List.map_singleton,List.mem_append,List.mem_singleton]
      intro member
      rcases member with old | new
      · exact real old
      · exact valid new.symm

theorem step_seated {s after : GameRoom × Heap} {op : Op} (seated : s.1.Seated) (stepped : step s op = some after) :
    after.1.Seated := by
  obtain ⟨⟨result,next⟩,performed,same⟩ := Option.map_eq_some_iff.mp stepped
  cases same
  exact change_seated seated (perform_change performed)

theorem run_seated {info : GameRoomInfo} {heap : Heap} {ops : List Op} {s : GameRoom × Heap}
    (path : Machine.run step (create info,heap) ops = some s) : s.1.Seated := by
  have kept : ∀ (s : GameRoom × Heap) op after, s.1.Seated → step s op = some after → after.1.Seated :=
    fun _ _ _ seated stepped => step_seated seated stepped
  exact Machine.run_preserves kept (create_seated info) path

end Changes

end GameRoom
end GameServer
