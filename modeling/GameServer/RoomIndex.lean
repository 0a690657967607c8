import GameServer.GameRoomManager

namespace GameServer.Lobby
open Foundation

def call (w : Lobby) : Event → Option (RoomId × GameRoom.Op)
  | .joinRoom roomId playerId =>
    if w.manager.hasPlayerManager then (w.getPlayer playerId).map fun player => (roomId,.joinRoom (some player)) else none
  | .leaveRoom roomId playerId => some (roomId,.leaveRoom playerId)
  | .setReady roomId playerId ready => some (roomId,.setReady playerId ready)
  | .startGame roomId playerId loadMapData => some (roomId,.startGame loadMapData playerId)
  | .changeMap roomId playerId mapPath => some (roomId,.changeMap playerId mapPath)
  | .changeRoomName roomId playerId newName => some (roomId,.changeRoomName playerId newName)
  | .changePassword roomId playerId newPassword => some (roomId,.changePassword playerId newPassword)
  | .kickPlayer roomId playerId targetId => some (roomId,.kickPlayer playerId targetId)
  | .changeCapacity roomId playerId newCapacity => some (roomId,.changeCapacity playerId newCapacity)
  | .roomCall roomId op => some (roomId,op)
  | _ => none

-- What an event leaves. Whatever is asked of one room goes through its call, but
-- for a join, which asks for the player first.
inductive Stepped (w : Lobby) : Event → Lobby → Prop where
  | createRoom {roomInfo : GameRoomInfo} {dist : Fin 6 → Fin 36} :
      Stepped w (.createRoom roomInfo dist) (w.createRoom roomInfo dist).lobby
  | dissolveRoom {roomId : RoomId} {playerId : UserId} :
      Stepped w (.dissolveRoom roomId playerId) (w.dissolveRoom roomId playerId).2
  | joinRoom {roomId : RoomId} {playerId : UserId} {result : Except Thrown RoomReqResult} {next : Lobby}
      (answered : w.joinRoom roomId playerId = some (result,next)) : Stepped w (.joinRoom roomId playerId) next
  | calls {event : Event} {roomId : RoomId} {op : GameRoom.Op} {result : Except Thrown RoomReqResult} {next : Lobby}
      (asked : w.call event = some (roomId,op)) (answered : w.withRoom roomId op = some (result,next)) : Stepped w event next
  | userLogin {info : UserLoginInfo} : Stepped w (.userLogin info) (w.onUserLogin info)
  | userLogout {info : UserLoginInfo} : Stepped w (.userLogout info) (w.onUserLogout info)
  | setPlayerRoom {playerId : UserId} {roomId : RoomId} :
      Stepped w (.setPlayerRoom playerId roomId) (w.setPlayerRoom playerId roomId)
  | setPlayerManager {alive : Bool} :
      Stepped w (.setPlayerManager alive) { w with manager := { w.manager with hasPlayerManager := alive } }

theorem step_stepped {w next : Lobby} {event : Event} (stepped : step w event = some next) : Stepped w event next := by
  have called {roomId : RoomId} {op : GameRoom.Op} (asked : w.call event = some (roomId,op))
      (mapped : (w.withRoom roomId op).map (·.2) = some next) : Stepped w event next := by
    obtain ⟨⟨result,after⟩,answered,same⟩ := Option.map_eq_some_iff.mp mapped
    cases same
    exact .calls asked answered
  cases event with
  | createRoom roomInfo dist => cases stepped; exact .createRoom
  | dissolveRoom roomId playerId => cases stepped; exact .dissolveRoom
  | joinRoom roomId playerId =>
    obtain ⟨⟨result,after⟩,answered,same⟩ := Option.map_eq_some_iff.mp stepped
    cases same
    exact .joinRoom answered
  | leaveRoom roomId playerId => exact called rfl stepped
  | setReady roomId playerId ready => exact called rfl stepped
  | startGame roomId playerId loadMapData => exact called rfl stepped
  | changeMap roomId playerId mapPath => exact called rfl stepped
  | changeRoomName roomId playerId newName => exact called rfl stepped
  | changePassword roomId playerId newPassword => exact called rfl stepped
  | kickPlayer roomId playerId targetId => exact called rfl stepped
  | changeCapacity roomId playerId newCapacity => exact called rfl stepped
  | roomCall roomId op => exact called rfl stepped
  | userLogin info => cases stepped; exact .userLogin
  | userLogout info => cases stepped; exact .userLogout
  | setPlayerRoom playerId roomId => cases stepped; exact .setPlayerRoom
  | setPlayerManager alive => cases stepped; exact .setPlayerManager

structure IndexExact (w : Lobby) : Prop where
  listed : ∀ roomId room, w.getRoom roomId = some room →
    room.info.roomId = roomId ∧ w.roomCodeToId room.info.roomCode = some roomId
  indexed : ∀ roomCode roomId, w.roomCodeToId roomCode = some roomId →
    ∃ room, w.getRoom roomId = some room ∧ room.info.roomCode = roomCode

def identity (room : GameRoom) : RoomId × StdString := (room.info.roomId,room.info.roomCode)

-- Neither table has changed, except for what the rooms hold besides id and code.
structure SameIndex (w next : Lobby) : Prop where
  rooms : ∀ roomId, (next.getRoom roomId).map identity = (w.getRoom roomId).map identity
  codes : ∀ roomCode, next.roomCodeToId roomCode = w.roomCodeToId roomCode

section Index
variable {w next : Lobby}

theorem SameIndex.room (same : SameIndex w next) {roomId : RoomId} {room : GameRoom} (found : next.getRoom roomId = some room) :
    ∃ old, w.getRoom roomId = some old ∧ identity old = identity room := by
  have mapped := same.rooms roomId
  rw [found,Option.map_some] at mapped
  exact Option.map_eq_some_iff.mp mapped.symm

theorem SameIndex.symm (same : SameIndex w next) : SameIndex next w :=
  ⟨fun roomId => (same.rooms roomId).symm,fun roomCode => (same.codes roomCode).symm⟩

theorem sameIndex_exact (same : SameIndex w next) (exact_ : w.IndexExact) : next.IndexExact := by
  refine ⟨?_,?_⟩
  · intro roomId room found
    obtain ⟨old,before,equal⟩ := same.room found
    obtain ⟨sameId,sameCode⟩ := Prod.mk.inj equal
    have law := exact_.listed roomId old before
    rw [same.codes,← sameId,← sameCode]
    exact law
  · intro roomCode roomId found
    rw [same.codes] at found
    obtain ⟨old,before,code⟩ := exact_.indexed roomCode roomId found
    obtain ⟨room,after,equal⟩ := same.symm.room before
    exact ⟨room,after,(Prod.mk.inj equal).2.trans code⟩

theorem sameIndex_manager (manager : next.manager.rooms = w.manager.rooms ∧ next.manager.roomCodeMap = w.manager.roomCodeMap) :
    SameIndex w next := by
  refine ⟨?_,?_⟩
  · intro roomId
    rw [getRoom,getRoom,manager.1]
  · intro roomCode
    rw [roomCodeToId,roomCodeToId,manager.2]

theorem modify_same {rooms : UnorderedMap RoomId GameRoom} {roomId : RoomId} {room changed : GameRoom}
    (found : rooms.lookup roomId = some room) (equal : identity changed = identity room) (other : RoomId) :
    ((rooms.modify roomId fun _ => changed).lookup other).map identity = (rooms.lookup other).map identity := by
  rw [UnorderedMap.lookup_modify]
  split
  · rename_i here
    subst here
    rw [found,Option.map_some,Option.map_some,Option.map_some,equal]
  · rfl

theorem change_identity {room changed : GameRoom} (change : GameRoom.Change room changed) : identity changed = identity room :=
  Prod.ext change.roomId change.roomCode

theorem withRoom_same {roomId : RoomId} {op : GameRoom.Op} {result : Except Thrown RoomReqResult}
    (called : w.withRoom roomId op = some (result,next)) : SameIndex w next := by
  unfold withRoom at called
  cases found : w.getRoom roomId with
  | none =>
    rw [found] at called
    cases called
    exact sameIndex_manager ⟨rfl,rfl⟩
  | some room =>
    rw [found] at called
    obtain ⟨out,performed,same⟩ := Option.map_eq_some_iff.mp called
    cases same
    exact ⟨modify_same found (change_identity (GameRoom.perform_change performed)),fun _ => rfl⟩

theorem joinRoom_same {roomId : RoomId} {playerId : UserId} {result : Except Thrown RoomReqResult}
    (called : w.joinRoom roomId playerId = some (result,next)) : SameIndex w next := by
  unfold joinRoom at called
  split at called
  · cases called; exact sameIndex_manager ⟨rfl,rfl⟩
  · split at called
    · cases called; exact sameIndex_manager ⟨rfl,rfl⟩
    · split at called
      · cases called; exact sameIndex_manager ⟨rfl,rfl⟩
      · exact withRoom_same called

theorem createPlayer_manager (playerId : UserId) : (w.createPlayer playerId).2.manager = w.manager := by
  unfold createPlayer
  split <;> rfl

theorem userLogin_manager (info : UserLoginInfo) : (w.onUserLogin info).manager = w.manager := by
  unfold onUserLogin
  split
  · rfl
  · exact createPlayer_manager info.userId

theorem userLogout_manager (info : UserLoginInfo) : (w.onUserLogout info).manager = w.manager := by
  unfold onUserLogout removePlayer
  split
  · rfl
  · dsimp only
    split <;> rfl

theorem setPlayerRoom_manager (playerId : UserId) (roomId : RoomId) : (w.setPlayerRoom playerId roomId).manager = w.manager := by
  unfold setPlayerRoom
  split <;> rfl

-- When CreateRoom gets as far as entering the room into both tables.
structure Registers (w : Lobby) (roomInfo : GameRoomInfo) : Prop where
  managed : w.manager.hasPlayerManager = true
  owner : ∃ player, w.getPlayer roomInfo.ownerId = some player ∧ player.userId ≠ 0
  lobby : roomInfo.state = .lobby
  room : 0 < roomInfo.capacity

theorem joinRoom_info (room : GameRoom) (heap : Heap) (player : Option GamePlayer) :
    (room.joinRoom heap player).2.1.info = { room.info with playerCount := (room.joinRoom heap player).2.1.info.playerCount } := by
  unfold GameRoom.joinRoom
  split
  · rfl
  · cases player with
    | none => rfl
    | some player =>
      dsimp only
      split
      · rfl
      · split <;> rfl

theorem owner_joins {info : GameRoomInfo} {heap : Heap} {player : GamePlayer} :
    ((GameRoom.create info).joinRoom heap (some player)).1 = .ok ↔
      info.state = .lobby ∧ player.userId ≠ 0 ∧ 0 < info.capacity := by
  have empty : (GameRoom.create info).group.members = [] := rfl
  have bound : (GameRoom.create info).group.capacity = info.capacity := rfl
  unfold GameRoom.joinRoom
  by_cases running : info.state = .running
  · simp [GameRoom.isRunning,GameRoom.create,running]
  · have lobby : info.state = .lobby := by
      cases state : info.state with
      | lobby => rfl
      | running => exact absurd state running
    by_cases invalid : player.userId = 0
    · simp [GameRoom.isRunning,GameRoom.create,lobby,invalid]
    · by_cases closed : info.capacity = 0
      · simp [GameRoom.isRunning,GameRoom.create,lobby,invalid,closed,Group.addMember,Group.contains,Group.findMember,
          GameRoom.mapGroupResult]
      · have open_ : 0 < info.capacity := Nat.pos_of_ne_zero closed
        simp [GameRoom.isRunning,GameRoom.create,lobby,invalid,closed,open_,Group.addMember,Group.contains,Group.findMember,
          GameRoom.mapGroupResult]

theorem createRoom_refused {roomInfo : GameRoomInfo} (dist : Fin 6 → Fin 36) (refused : ¬ w.Registers roomInfo) :
    (w.createRoom roomInfo dist).outRoomCode = none ∧ SameIndex w (w.createRoom roomInfo dist).lobby := by
  unfold createRoom
  dsimp only
  split
  · exact ⟨rfl,sameIndex_manager ⟨rfl,rfl⟩⟩
  · rename_i managed
    split
    · exact ⟨rfl,sameIndex_manager ⟨rfl,rfl⟩⟩
    · rename_i player owner
      split
      · exact ⟨rfl,sameIndex_manager ⟨rfl,rfl⟩⟩
      · rename_i joined
        obtain ⟨lobby,real,room⟩ := owner_joins.mp (not_not.mp joined)
        exact absurd ⟨by simpa using managed,⟨player,owner,real⟩,lobby,room⟩ refused

-- A room entered into both tables: its id is overwritten in one of them, while
-- the other keeps the entry it already has for the code.
structure Entered (w : Lobby) (roomInfo : GameRoomInfo) (roomCode : StdString) (room : GameRoom) (next : Lobby) : Prop where
  info : room.info = { roomInfo with
    roomId := w.manager.nextRoomId, roomCode := roomCode, playerCount := room.info.playerCount }
  rooms : ∀ other, next.getRoom other = if other = w.manager.nextRoomId then some room else w.getRoom other
  codes : ∀ other, next.roomCodeToId other =
    if other = roomCode then some ((w.roomCodeToId roomCode).getD w.manager.nextRoomId) else w.roomCodeToId other

theorem createRoom_registers {roomInfo : GameRoomInfo} (dist : Fin 6 → Fin 36) (registers : w.Registers roomInfo) :
    (w.createRoom roomInfo dist).outRoomCode = some (RoomUtils.genRoomCode dist) ∧
      ∃ room, Entered w roomInfo (RoomUtils.genRoomCode dist) room (w.createRoom roomInfo dist).lobby := by
  obtain ⟨managed,⟨player,owner,real⟩,lobby,room⟩ := registers
  unfold createRoom
  dsimp only
  split
  · rename_i unmanaged
    simp [managed] at unmanaged
  · split
    · rename_i missing
      have found : some player = none := owner.symm.trans missing
      cases found
    · rename_i other found
      have same : other = player := Option.some.inj (found.symm.trans owner)
      subst same
      split
      · rename_i refused
        exact (refused (owner_joins.mpr ⟨lobby,real,room⟩)).elim
      · exact ⟨rfl,_,joinRoom_info _ _ _,fun other => UnorderedMap.lookup_insert_eq _ _ other _,
          fun other => UnorderedMap.lookup_insertNew _ _ other _⟩

theorem dissolveRoom_refused {roomId : RoomId} {playerId : UserId}
    (refused : (w.dissolveRoom roomId playerId).1 ≠ .ok) : SameIndex w (w.dissolveRoom roomId playerId).2 := by
  unfold dissolveRoom at refused ⊢
  cases found : w.getRoom roomId with
  | none => exact sameIndex_manager ⟨rfl,rfl⟩
  | some room =>
    rw [found] at refused
    dsimp only at refused ⊢
    split
    · exact ⟨modify_same found (change_identity (GameRoom.dissolveRoom_change playerId)),fun _ => rfl⟩
    · rename_i dissolved
      rw [if_neg dissolved] at refused
      exact (refused rfl).elim

theorem dissolveRoom_dissolves {roomId : RoomId} {playerId : UserId} (ok : (w.dissolveRoom roomId playerId).1 = .ok) :
    ∃ room, w.getRoom roomId = some room ∧
      (∀ other, (w.dissolveRoom roomId playerId).2.getRoom other = if other = roomId then none else w.getRoom other) ∧
      ∀ roomCode, (w.dissolveRoom roomId playerId).2.roomCodeToId roomCode =
        if roomCode = room.info.roomCode then none else w.roomCodeToId roomCode := by
  unfold dissolveRoom at ok ⊢
  cases found : w.getRoom roomId with
  | none =>
    rw [found] at ok
    cases ok
  | some room =>
    rw [found] at ok
    dsimp only at ok ⊢
    split
    · rename_i refused
      rw [if_pos refused] at ok
      exact (refused ok).elim
    · refine ⟨room,rfl,fun other => UnorderedMap.lookup_erase_eq _ _ other,?_⟩
      intro roomCode
      have code : (room.dissolveRoom playerId).2.info.roomCode = room.info.roomCode :=
        (GameRoom.dissolveRoom_change playerId).roomCode
      have erased := UnorderedMap.lookup_erase_eq w.manager.roomCodeMap (room.dissolveRoom playerId).2.info.roomCode roomCode
      rw [code] at erased
      rw [roomCodeToId,code]
      exact erased

theorem IndexExact.keeps_code (exact_ : w.IndexExact) {roomId other : RoomId} {room another : GameRoom}
    (found : w.getRoom roomId = some room) (listed : w.getRoom other = some another) (different : other ≠ roomId) :
    another.info.roomCode ≠ room.info.roomCode := by
  intro shared
  have own := (exact_.listed roomId room found).2
  have theirs := (exact_.listed other another listed).2
  rw [shared,own] at theirs
  exact different (Option.some.inj theirs).symm

end Index

-- What a step does for those who look a room up: a code that is handed out leads
-- to the new room, which takes no other's place, and every room that is not being
-- dissolved is still there and still found by its code.
structure Reachable (w : Lobby) (event : Event) (next : Lobby) : Prop where
  created : ∀ roomInfo dist roomCode, event = .createRoom roomInfo dist →
    (w.createRoom roomInfo dist).outRoomCode = some roomCode →
      next.roomCodeToId roomCode = some w.manager.nextRoomId ∧
      (∃ room, next.getRoom w.manager.nextRoomId = some room ∧ room.info.ownerId = roomInfo.ownerId ∧
        room.info.roomName = roomInfo.roomName) ∧
      ∀ other room, w.getRoom other = some room → other ≠ w.manager.nextRoomId ∧ next.getRoom other = some room
  kept : ∀ other room, w.getRoom other = some room → (∀ playerId, event ≠ .dissolveRoom other playerId) →
    ∃ after, next.getRoom other = some after ∧ identity after = identity room ∧
      next.roomCodeToId room.info.roomCode = some other

def DrawsFresh (w : Lobby) (event : Event) : Prop :=
  ∀ roomInfo dist, event = .createRoom roomInfo dist → w.Registers roomInfo →
    w.getRoom w.manager.nextRoomId = none ∧ w.roomCodeToId (RoomUtils.genRoomCode dist) = none

section Steps
variable {w next : Lobby}

theorem opened_exact (heap : Heap) : (opened heap).IndexExact := ⟨nofun,nofun⟩

theorem entered_exact {roomInfo : GameRoomInfo} {roomCode : StdString} {room : GameRoom}
    (exact_ : w.IndexExact) (entered : Entered w roomInfo roomCode room next)
    (freshId : w.getRoom w.manager.nextRoomId = none) (freshCode : w.roomCodeToId roomCode = none) : next.IndexExact := by
  have code : room.info.roomCode = roomCode := congrArg GameRoomInfo.roomCode entered.info
  have id_ : room.info.roomId = w.manager.nextRoomId := congrArg GameRoomInfo.roomId entered.info
  refine ⟨?_,?_⟩
  · intro other another found
    rw [entered.rooms] at found
    split at found
    · rename_i here
      cases found
      rw [code,entered.codes,if_pos rfl,freshCode,id_,here]
      exact ⟨rfl,rfl⟩
    · obtain ⟨own,resolves⟩ := exact_.listed other another found
      have unlike : another.info.roomCode ≠ roomCode := by
        intro same
        rw [same,freshCode] at resolves
        cases resolves
      rw [entered.codes,if_neg unlike]
      exact ⟨own,resolves⟩
  · intro other otherId found
    rw [entered.codes] at found
    split at found
    · rename_i here
      rw [freshCode] at found
      cases found
      exact ⟨room,(entered.rooms _).trans (if_pos rfl),code.trans here.symm⟩
    · obtain ⟨another,listed,carries⟩ := exact_.indexed other otherId found
      have elsewhere : otherId ≠ w.manager.nextRoomId := by
        intro here
        rw [here,freshId] at listed
        cases listed
      exact ⟨another,by rw [entered.rooms,if_neg elsewhere]; exact listed,carries⟩

theorem sameIndex_kept (same : SameIndex w next) (exact_ : w.IndexExact) {other : RoomId} {room : GameRoom}
    (found : w.getRoom other = some room) : ∃ after, next.getRoom other = some after ∧ identity after = identity room ∧
      next.roomCodeToId room.info.roomCode = some other := by
  obtain ⟨after,listed,equal⟩ := same.symm.room found
  exact ⟨after,listed,equal,(same.codes _).trans (exact_.listed other room found).2⟩

theorem createRoom_exact {roomInfo : GameRoomInfo} {dist : Fin 6 → Fin 36} (exact_ : w.IndexExact) (registers : w.Registers roomInfo) :
    (w.createRoom roomInfo dist).lobby.IndexExact ∧ Reachable w (.createRoom roomInfo dist) (w.createRoom roomInfo dist).lobby ↔
      w.getRoom w.manager.nextRoomId = none ∧ w.roomCodeToId (RoomUtils.genRoomCode dist) = none := by
  obtain ⟨handed,room,entered⟩ := createRoom_registers dist registers
  refine ⟨?_,?_⟩
  · rintro ⟨-,reachable⟩
    obtain ⟨resolves,-,others⟩ := reachable.created roomInfo dist _ rfl handed
    have freshId : w.getRoom w.manager.nextRoomId = none := by
      rw [Option.eq_none_iff_forall_ne_some]
      intro old found
      exact (others _ old found).1 rfl
    refine ⟨freshId,?_⟩
    rw [Option.eq_none_iff_forall_ne_some]
    -- The entry the code has already would lead to the new room's own id.
    intro holder taken
    rw [entered.codes,if_pos rfl,taken] at resolves
    obtain ⟨old,listed,-⟩ := exact_.indexed _ holder taken
    exact (others holder old listed).1 (Option.some.inj resolves)
  · rintro ⟨freshId,freshCode⟩
    have elsewhere : ∀ other old, w.getRoom other = some old → other ≠ w.manager.nextRoomId ∧
        (w.createRoom roomInfo dist).lobby.getRoom other = some old := by
      intro other old found
      have different : other ≠ w.manager.nextRoomId := by
        intro here
        rw [here,freshId] at found
        cases found
      exact ⟨different,by rw [entered.rooms,if_neg different]; exact found⟩
    have after := entered_exact exact_ entered freshId freshCode
    refine ⟨after,?_,?_⟩
    · intro _ _ roomCode same handedOut
      cases same
      rw [handed] at handedOut
      cases handedOut
      refine ⟨?_,⟨room,?_,?_,?_⟩,elsewhere⟩
      · rw [entered.codes,if_pos rfl,freshCode]
        rfl
      · rw [entered.rooms,if_pos rfl]
      · rw [entered.info]
      · rw [entered.info]
    · intro other old found _
      have listed := (elsewhere other old found).2
      exact ⟨old,listed,rfl,(after.listed other old listed).2⟩

theorem dissolveRoom_exact (roomId : RoomId) (playerId : UserId) (exact_ : w.IndexExact) :
    (w.dissolveRoom roomId playerId).2.IndexExact ∧
      ∀ other room, other ≠ roomId → w.getRoom other = some room →
        ∃ after, (w.dissolveRoom roomId playerId).2.getRoom other = some after ∧ identity after = identity room ∧
          (w.dissolveRoom roomId playerId).2.roomCodeToId room.info.roomCode = some other := by
  by_cases ok : (w.dissolveRoom roomId playerId).1 = .ok
  · obtain ⟨gone,found,rooms,codes⟩ := dissolveRoom_dissolves ok
    have others : ∀ other room, other ≠ roomId → w.getRoom other = some room →
        (w.dissolveRoom roomId playerId).2.getRoom other = some room ∧
          (w.dissolveRoom roomId playerId).2.roomCodeToId room.info.roomCode = some other := by
      intro other room different listed
      rw [rooms,codes,if_neg different,if_neg (exact_.keeps_code found listed different)]
      exact ⟨listed,(exact_.listed other room listed).2⟩
    refine ⟨⟨?_,?_⟩,?_⟩
    · intro other room listed
      rw [rooms] at listed
      split at listed
      · cases listed
      · rename_i different
        exact ⟨(exact_.listed other room listed).1,(others other room different listed).2⟩
    · intro roomCode other resolves
      rw [codes] at resolves
      split at resolves
      · cases resolves
      · rename_i unlike
        obtain ⟨room,listed,carries⟩ := exact_.indexed roomCode other resolves
        have different : other ≠ roomId := by
          intro here
          rw [here,found] at listed
          cases listed
          exact unlike carries.symm
        exact ⟨room,(others other room different listed).1,carries⟩
    · intro other room different listed
      exact ⟨room,(others other room different listed).1,rfl,(others other room different listed).2⟩
  · have same := dissolveRoom_refused ok
    exact ⟨sameIndex_exact same exact_,fun other room _ listed => sameIndex_kept same exact_ listed⟩

theorem step_same {event : Event} (stepped : step w event = some next)
    (creates : ∀ roomInfo dist, event ≠ .createRoom roomInfo dist)
    (dissolves : ∀ roomId playerId, event ≠ .dissolveRoom roomId playerId) : SameIndex w next := by
  have aside {after : Lobby} (manager : after.manager = w.manager) : SameIndex w after := sameIndex_manager (by simp [manager])
  cases step_stepped stepped with
  | createRoom => exact (creates _ _ rfl).elim
  | dissolveRoom => exact (dissolves _ _ rfl).elim
  | joinRoom answered => exact joinRoom_same answered
  | calls asked answered => exact withRoom_same answered
  | @userLogin info => exact aside (userLogin_manager info)
  | @userLogout info => exact aside (userLogout_manager info)
  | @setPlayerRoom playerId roomId => exact aside (setPlayerRoom_manager playerId roomId)
  | setPlayerManager => exact sameIndex_manager ⟨rfl,rfl⟩

theorem step_exact {event : Event} (exact_ : w.IndexExact) (stepped : step w event = some next) :
    next.IndexExact ∧ Reachable w event next ↔ DrawsFresh w event := by
  by_cases creation : ∃ roomInfo dist, event = .createRoom roomInfo dist
  · obtain ⟨roomInfo,dist,same⟩ := creation
    subst same
    cases stepped
    by_cases registers : w.Registers roomInfo
    · rw [createRoom_exact exact_ registers]
      refine ⟨?_,?_⟩
      · rintro fresh _ _ same -
        cases same
        exact fresh
      · intro fresh
        exact fresh roomInfo dist rfl registers
    · obtain ⟨handed,same⟩ := createRoom_refused dist registers
      refine iff_of_true ⟨sameIndex_exact same exact_,?_,?_⟩ ?_
      · intro _ _ roomCode event handedOut
        cases event
        rw [handed] at handedOut
        cases handedOut
      · intro other room listed _
        exact sameIndex_kept same exact_ listed
      · intro _ _ event register
        cases event
        exact (registers register).elim
  · have creates : ∀ roomInfo dist, event ≠ .createRoom roomInfo dist :=
      fun roomInfo dist same => creation ⟨roomInfo,dist,same⟩
    have fresh : DrawsFresh w event := fun roomInfo dist same => (creates roomInfo dist same).elim
    refine iff_of_true ?_ fresh
    by_cases dissolution : ∃ roomId playerId, event = .dissolveRoom roomId playerId
    · obtain ⟨roomId,playerId,same⟩ := dissolution
      subst same
      cases stepped
      obtain ⟨after,others⟩ := dissolveRoom_exact roomId playerId exact_
      refine ⟨after,fun _ _ _ creating => (creates _ _ creating).elim,?_⟩
      intro other room listed spared
      refine others other room ?_ listed
      intro here
      exact spared playerId (by rw [here])
    · have same := step_same stepped creates fun roomId playerId dissolves => dissolution ⟨roomId,playerId,dissolves⟩
      exact ⟨sameIndex_exact same exact_,fun _ _ _ creating => (creates _ _ creating).elim,
        fun other room listed _ => sameIndex_kept same exact_ listed⟩

end Steps

-- Over whole runs: both tables tell of the same rooms and no lookup goes astray
-- exactly as long as each room that is entered takes an unused id and code.
theorem room_index_exact (heap : Heap) (events : List Event) :
    Machine.Always step IndexExact (opened heap) events ∧ Machine.Every step Reachable (opened heap) events ↔
      Machine.Every step (fun w event _ => DrawsFresh w event) (opened heap) events := by
  rw [Machine.always_iff_every,and_iff_right (opened_exact heap),Machine.every_and]
  have kept : ∀ w event next, IndexExact w → step w event = some next → next.IndexExact ∧ Reachable w event next →
      next.IndexExact := fun _ _ _ _ _ lawful => lawful.1
  have agree : ∀ w event next, IndexExact w → step w event = some next →
      (next.IndexExact ∧ Reachable w event next ↔ DrawsFresh w event) := fun _ _ _ exact_ stepped => step_exact exact_ stepped
  exact Machine.every_congr kept agree (opened_exact heap)

section Collision

def noInfos : Heap := fun _ => ⟨⟨0,0,[],0,false⟩,0,0,0,false⟩

def sameCodeTwice : List Event := [
  .setPlayerManager true,
  .userLogin ⟨.success,1,1,[]⟩,
  .userLogin ⟨.success,2,2,[]⟩,
  .createRoom { ownerId := 1, capacity := 4 } (fun _ => 0),
  .createRoom { ownerId := 2, capacity := 4 } (fun _ => 0)]

def zeros : Fin 6 → Fin 36 := fun _ => 0

def ones : Fin 6 → Fin 36 := fun _ => 1

-- What the second room's own code leads to.
theorem same_code_misleads : ¬ Machine.Always step IndexExact (opened noInfos) sameCodeTwice := by
  intro always
  have seen : ((Machine.run step (opened noInfos) sameCodeTwice).bind fun w => (w.getRoom 2).map fun room =>
      w.roomCodeToId room.info.roomCode) = some (some 1) := by decide +kernel
  obtain ⟨w,path,looked⟩ := Option.bind_eq_some_iff.mp seen
  obtain ⟨room,listed,misled⟩ := Option.map_eq_some_iff.mp looked
  have resolves := ((always sameCodeTwice [] w (List.append_nil _).symm path).listed 2 room listed).2
  rw [misled] at resolves
  exact absurd (Option.some.inj resolves) (by decide)

end Collision
end GameServer.Lobby
