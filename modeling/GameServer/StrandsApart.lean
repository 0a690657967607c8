import GameServer.StrandAlone

namespace GameServer.Handlers
open Foundation JSONTranslator RequestPayload

-- What the login strand does, as far as the room strand can tell: the managers of
-- rooms stay as they are, and so do the players that were made, but for their
-- session and whether they are online.
structure Outside (change : Lobby → Lobby) : Prop where
  manager : ∀ w : Lobby, (change w).manager = w.manager
  managed : ∀ (w : Lobby) (manager : GameRoomManager),
    change { w with manager := manager } = { change w with manager := manager }
  marked : ∀ (w : Lobby) (player : GamePlayer) (roomId : RoomId), player.object < w.nextObject →
    change { w with heap := player.enterRoom w.heap roomId } =
      { change w with heap := player.enterRoom (change w).heap roomId }
  told : ∀ (w : Lobby) (player : GamePlayer), player.object < w.nextObject →
    playerInRoom (player.getInfo (change w).heap) = playerInRoom (player.getInfo w.heap)

section Changes
variable {library : JsonLibrary} {change : Lobby → Lobby} {w : Lobby}

theorem updates_commute (f g : GamePlayerInfo → GamePlayerInfo) (commute : ∀ info, f (g info) = g (f info))
    (player other : GamePlayer) (heap : Heap) : player.update (other.update heap g) f = other.update (player.update heap f) g := by
  unfold GamePlayer.update
  by_cases same : player.object = other.object
  · rw [same,Function.update_self,Function.update_self,Function.update_idem,Function.update_idem,commute]
  · rw [Function.update_of_ne same,Function.update_of_ne (Ne.symm same),Function.update_comm same]

theorem session_marked (player other : GamePlayer) (heap : Heap) (sessionId : SessionId) (roomId : RoomId) :
    player.setSession (other.enterRoom heap roomId) sessionId = other.enterRoom (player.setSession heap sessionId) roomId := by
  refine updates_commute _ _ ?_ player other heap
  intro info
  rfl

theorem online_marked (player other : GamePlayer) (heap : Heap) (online : Bool) (roomId : RoomId) :
    player.setOnline (other.enterRoom heap roomId) online = other.enterRoom (player.setOnline heap online) roomId := by
  refine updates_commute _ _ ?_ player other heap
  intro info
  rfl

theorem session_told (player other : GamePlayer) (heap : Heap) (sessionId : SessionId) :
    playerInRoom (other.getInfo (player.setSession heap sessionId)) = playerInRoom (other.getInfo heap) := by
  apply GameRoom.update_kept fun info => playerInRoom { info with bInfo := { info.bInfo with userId := other.userId } }
  intro info
  rfl

theorem online_told (player other : GamePlayer) (heap : Heap) (online : Bool) :
    playerInRoom (other.getInfo (player.setOnline heap online)) = playerInRoom (other.getInfo heap) := by
  apply GameRoom.update_kept fun info => playerInRoom { info with bInfo := { info.bInfo with userId := other.userId } }
  intro info
  rfl

theorem born_marked {player : GamePlayer} {object : Nat} (other : player.object ≠ object) (heap : Heap) (info : GamePlayerInfo)
    (roomId : RoomId) : Function.update (player.enterRoom heap roomId) object info =
      player.enterRoom (Function.update heap object info) roomId := by
  unfold GamePlayer.enterRoom GamePlayer.update
  rw [Function.update_of_ne other,Function.update_comm other]

theorem writes_outside (task : LoginTask) : Outside fun w => { w with heap := task.writes w.heap } := by
  refine ⟨fun _ => rfl,fun _ _ => rfl,?_,?_⟩
  · intro w player roomId _
    have writes : task.writes (player.enterRoom w.heap roomId) = player.enterRoom (task.writes w.heap) roomId := by
      unfold LoginTask.writes
      cases task with
      | binding info other =>
        dsimp only
        rw [session_marked,online_marked]
      | marking other => exact online_marked other player w.heap true roomId
      | _ => rfl
    dsimp only
    rw [writes]
  · intro w player _
    unfold LoginTask.writes
    cases task with
    | binding info other =>
      dsimp only
      rw [online_told,session_told]
    | marking other => exact online_told other player w.heap true
    | _ => rfl

theorem userLogin_outside (info : UserLoginInfo) : Outside (·.onUserLogin info) := by
  refine ⟨fun _ => Lobby.userLogin_manager info,?_,?_,?_⟩
  · intro w manager
    unfold Lobby.onUserLogin
    split
    · rfl
    · unfold Lobby.createPlayer
      dsimp only
      split <;> rfl
  · intro w player roomId made
    unfold Lobby.onUserLogin
    split
    · rfl
    · unfold Lobby.createPlayer
      dsimp only
      split
      · dsimp only
        rw [session_marked,online_marked]
      · dsimp only
        rw [born_marked (Nat.ne_of_lt made),session_marked,online_marked]
  · intro w player made
    unfold Lobby.onUserLogin
    split
    · rfl
    · unfold Lobby.createPlayer
      dsimp only
      split
      · dsimp only
        rw [online_told,session_told]
      · dsimp only
        rw [online_told,session_told]
        unfold GamePlayer.getInfo
        rw [Function.update_of_ne (Nat.ne_of_lt made)]

theorem added_roomy {room : GameRoom} (roomy : Roomy room) (player : GamePlayer) :
    Roomy { room with group := (room.group.addMember GamePlayer.userId player).2 } := by
  obtain ⟨capacity,few⟩ := roomy
  unfold Group.addMember
  split
  · exact ⟨capacity,few⟩
  · split
    · exact ⟨capacity,few⟩
    · rename_i space
      refine ⟨capacity,?_⟩
      rw [List.length_append,List.length_singleton]
      omega

theorem joinRoom_marks (room : GameRoom) (player : GamePlayer) : ∃ result joined,
    (∀ other ∈ joined.group.members, other ∈ room.group.members ∨ other = player) ∧ (Roomy room → Roomy joined) ∧
      ((∀ heap, room.joinRoom heap (some player) = (result,joined,heap)) ∨
        ∀ heap, room.joinRoom heap (some player) = (result,joined,player.enterRoom heap room.info.roomId)) := by
  unfold GameRoom.joinRoom
  by_cases running : room.isRunning = true
  · exact ⟨.gameRunning,room,fun _ member => .inl member,id,.inl fun _ => if_pos running⟩
  · by_cases nobody : player.userId = 0
    · refine ⟨.notAuthorized,room,fun _ member => .inl member,id,.inl fun _ => ?_⟩
      rw [if_neg running]
      exact if_pos nobody
    · have members : ∀ other ∈ (room.group.addMember GamePlayer.userId player).2.members,
          other ∈ room.group.members ∨ other = player := by
        intro other member
        rcases Group.addMember_members GamePlayer.userId room.group player with same | ⟨-,joined⟩
        · rw [same] at member
          exact .inl member
        · rw [joined] at member
          exact (List.mem_append.mp member).imp_right List.mem_singleton.mp
      let joined : GameRoom := { room with group := (room.group.addMember GamePlayer.userId player).2 }
      let result := GameRoom.mapGroupResult (room.group.addMember GamePlayer.userId player).1
      by_cases added : result = .ok
      · refine ⟨result,{ joined with info := { room.info with playerCount := room.info.playerCount + 1 } },members,
          fun roomy => ⟨(added_roomy roomy player).capacity,(added_roomy roomy player).few⟩,.inr fun heap => ?_⟩
        rw [if_neg running]
        dsimp only
        rw [if_neg nobody,if_pos added]
      · refine ⟨result,joined,members,fun roomy => added_roomy roomy player,.inr fun heap => ?_⟩
        rw [if_neg running]
        dsimp only
        rw [if_neg nobody,if_neg added]

theorem infos_told (outside : Outside change) (players : List GamePlayer)
    (made : ∀ player ∈ players, player.object < w.nextObject) :
    (players.map (·.getInfo (change w).heap)).map playerInRoom = (players.map (·.getInfo w.heap)).map playerInRoom := by
  rw [List.map_map,List.map_map]
  exact List.map_congr_left fun player member => outside.told w player (made player member)

theorem serialize_told (info : GameRoomInfo) {players others : List GamePlayerInfo}
    (same : players.map playerInRoom = others.map playerInRoom) :
    serializeRoomInfo library { info with players := players } = serializeRoomInfo library { info with players := others } := by
  unfold serializeRoomInfo roomInfo
  rw [same]

theorem described_room (outside : Outside change) (room : GameRoom)
    (made : ∀ player ∈ room.group.members, player.object < w.nextObject) :
    serializeRoomInfo library (room.getAllInfo (change w).heap) = serializeRoomInfo library (room.getAllInfo w.heap) :=
  serialize_told (room.getAllInfo w.heap) (infos_told outside _ made)

theorem change_getRoom (outside : Outside change) (roomId : RoomId) : (change w).getRoom roomId = w.getRoom roomId := by
  rw [Lobby.getRoom,outside.manager]
  rfl

theorem change_code (outside : Outside change) (code : StdString) : (change w).roomCodeToId code = w.roomCodeToId code := by
  rw [Lobby.roomCodeToId,outside.manager]
  rfl

theorem describe_outside (outside : Outside change) (objects : Objects w) (code : StdString) :
    Server.describe library { lobby := change w } code = Server.describe library { lobby := w } code := by
  unfold Server.describe
  dsimp only
  rw [change_code outside]
  split
  · rfl
  · rename_i roomId _
    rw [change_getRoom outside]
    split
    · rfl
    · rename_i room listed
      exact described_room outside room (objects.members roomId room listed)

theorem change_managed (outside : Outside change) (w : Lobby) (f : GameRoomManager → GameRoomManager) :
    { change w with manager := f (change w).manager } = change { w with manager := f w.manager } := by
  rw [outside.manager]
  exact (outside.managed w _).symm

theorem change_marked (outside : Outside change) {player : GamePlayer} (made : player.object < w.nextObject) (roomId : RoomId)
    (f : GameRoomManager → GameRoomManager) :
    { change w with manager := f (change w).manager, heap := player.enterRoom (change w).heap roomId } =
      change { w with manager := f w.manager, heap := player.enterRoom w.heap roomId } := by
  have both := change_managed outside { w with heap := player.enterRoom w.heap roomId } f
  rw [outside.marked w player roomId made] at both
  exact both

def inserted (room : GameRoom) (manager : GameRoomManager) : GameRoomManager := { manager with
  roomCodeMap := manager.roomCodeMap.insertNew room.info.roomCode room.info.roomId
  rooms := AList.insert room.info.roomId room manager.rooms }

theorem insert_outside (outside : Outside change) (w : Lobby) (room : GameRoom) :
    insertRoom (change w) room = change (insertRoom w room) := change_managed outside w (inserted room)

theorem insert_objects {room : GameRoom} (objects : Objects w) (roomy : Roomy room)
    (made : ∀ player ∈ room.group.members, player.object < w.nextObject) : Objects (insertRoom w room) := by
  have entry (roomId : RoomId) : (insertRoom w room).getRoom roomId =
      if roomId = room.info.roomId then some room else w.getRoom roomId := UnorderedMap.lookup_insert_eq w.manager.rooms _ roomId _
  refine ⟨objects.players,?_,?_⟩
  · intro roomId other listed
    rw [entry] at listed
    split at listed
    · cases listed
      exact made
    · exact objects.members roomId other listed
  · intro roomId other listed
    rw [entry] at listed
    split at listed
    · cases listed
      exact roomy
    · exact objects.rooms roomId other listed

theorem rehoused_objects {roomId : RoomId} {room after : GameRoom} (objects : Objects w) (listed : w.getRoom roomId = some room)
    (roomy : Roomy room → Roomy after) (made : ∀ player ∈ after.group.members, player.object < w.nextObject) (heap : Heap) :
    Objects (w.rehoused roomId after heap) := by
  refine ⟨objects.players,?_,?_⟩
  · intro other another found
    rw [Lobby.rehoused_getRoom listed] at found
    split at found
    · cases found
      exact made
    · exact objects.members other another found
  · intro other another found
    rw [Lobby.rehoused_getRoom listed] at found
    split at found
    · cases found
      exact roomy (objects.rooms roomId room listed)
    · exact objects.rooms other another found

theorem withRoom_joins {player : GamePlayer} (objects : Objects w) (made : player.object < w.nextObject) (roomId : RoomId) :
    ∃ out, w.withRoom roomId (.joinRoom (some player)) = some out ∧ Objects out.2 ∧ ∀ change, Outside change →
      (change w).withRoom roomId (.joinRoom (some player)) = some (out.1,change out.2) := by
  unfold Lobby.withRoom
  cases listed : w.getRoom roomId with
  | none =>
    refine ⟨_,rfl,objects,fun change outside => ?_⟩
    rw [change_getRoom outside,listed]
  | some room =>
    obtain ⟨result,after,members,roomy,marks⟩ := joinRoom_marks room player
    have seated : ∀ heap, Objects (w.rehoused roomId after heap) := by
      refine rehoused_objects objects listed roomy ?_
      intro member inside
      rcases members member inside with old | new
      · exact objects.members roomId room listed member old
      · rw [new]
        exact made
    let modified (manager : GameRoomManager) : GameRoomManager :=
      { manager with rooms := manager.rooms.modify roomId fun _ => after }
    rcases marks with same | same
    · simp only [GameRoom.perform,same,Option.map_some]
      refine ⟨_,rfl,seated _,fun change outside => ?_⟩
      rw [change_getRoom outside,listed]
      simp only [same]
      exact congrArg (fun lobby => some (_,lobby)) (change_managed outside w modified)
    · simp only [GameRoom.perform,same,Option.map_some]
      refine ⟨_,rfl,seated _,fun change outside => ?_⟩
      rw [change_getRoom outside,listed]
      simp only [same]
      exact congrArg (fun lobby => some (_,lobby)) (change_marked outside made room.info.roomId modified)

-- What the room strand comes to is the same before a change of the login strand
-- and after it.
theorem finish_outside (outside : Outside change) (objects : Objects w) {task : RoomTask} (sound : task.Sound w)
    (answers : List Answer) : task.finish library (change w,answers) =
      (change (task.finish library (w,answers)).1,(task.finish library (w,answers)).2) := by
  cases task with
  | owning turn pack newRoom =>
    exact congrArg (fun lobby => (lobby,answers))
      (change_managed outside w fun manager => { manager with nextRoomId := newRoom.info.roomId })
  | housing turn pack newRoom ownerPlayer =>
    obtain ⟨capacity,empty,made⟩ := sound
    obtain ⟨result,joined,members,roomy,marks⟩ := joinRoom_marks newRoom ownerPlayer
    have roomy : Roomy joined := roomy ⟨capacity,by rw [empty]; exact Nat.zero_le 4⟩
    have own : ∀ player ∈ joined.group.members, player.object < w.nextObject := by
      intro player member
      rcases members player member with old | new
      · rw [empty] at old
        cases old
      · rw [new]
        exact made
    unfold RoomTask.finish
    rcases marks with same | same
    · simp only [same]
      split
      · rfl
      · rw [← describe_outside outside (insert_objects objects roomy own),← insert_outside outside]
    · simp only [same]
      split
      · exact congrArg (fun lobby => (lobby,answers ++ [refusal library pack result]))
          (change_marked outside made newRoom.info.roomId id)
      · have marked : Objects { w with heap := ownerPlayer.enterRoom w.heap newRoom.info.roomId } :=
          ⟨objects.players,objects.members,objects.rooms⟩
        have entered : insertRoom { change w with heap := ownerPlayer.enterRoom (change w).heap newRoom.info.roomId } joined =
            change (insertRoom { w with heap := ownerPlayer.enterRoom w.heap newRoom.info.roomId } joined) :=
          change_marked outside made newRoom.info.roomId (inserted joined)
        rw [entered,describe_outside outside (insert_objects marked roomy own)]
  | entering turn pack newRoom =>
    unfold RoomTask.finish
    dsimp only
    rw [insert_outside outside,describe_outside outside (insert_objects objects sound.1 sound.2)]
  | seating turn pack roomId player =>
    obtain ⟨⟨answer,lobby⟩,joined,seated,same⟩ := withRoom_joins objects sound roomId
    unfold RoomTask.finish
    dsimp only
    rw [joined,same change outside]
    cases answer with
    | error thrown => rfl
    | ok result =>
      cases result with
      | ok =>
        dsimp only
        rw [describe_outside outside seated]
      | _ => rfl
  | describing turn pack =>
    unfold RoomTask.finish
    dsimp only
    rw [describe_outside outside objects]
  | fetching turn pack roomId =>
    unfold RoomTask.finish
    dsimp only
    rw [change_getRoom outside]
    cases listed : w.getRoom roomId with
    | none => rfl
    | some room =>
      dsimp only
      rw [described_room outside room (objects.members roomId room listed)]
  | reading turn pack room infos rest =>
    have same : serializeRoomInfo library { room.getAllInfo w.heap with
          players := infos ++ rest.map (·.getInfo (change w).heap) } =
        serializeRoomInfo library { room.getAllInfo w.heap with players := infos ++ rest.map (·.getInfo w.heap) } := by
      apply serialize_told (room.getAllInfo w.heap)
      rw [List.map_append,List.map_append,infos_told outside rest sound.2]
    exact congrArg (fun text => (change w,answers ++ [described pack text])) same
  | _ => rfl

end Changes

section Keeping
variable {library : JsonLibrary} {w next : Lobby} {task after : RoomTask} {out : List Answer}

theorem heap_objects (objects : Objects w) (heap : Heap) : Objects { w with heap := heap } :=
  ⟨objects.players,objects.members,objects.rooms⟩

theorem leave_objects {roomId : RoomId} {playerId : UserId} {answer : Except Thrown RoomReqResult} (objects : Objects w)
    (left : w.leaveRoom roomId playerId = some (answer,next)) : Objects next := by
  unfold Lobby.leaveRoom Lobby.withRoom at left
  cases listed : w.getRoom roomId with
  | none =>
    rw [listed] at left
    cases left
    exact objects
  | some room =>
    rw [listed] at left
    cases left
    have removed : (room.group.removeMember GamePlayer.userId playerId).2.capacity = room.group.capacity := by
      unfold Group.removeMember
      split <;> rfl
    obtain ⟨capacity,fewer⟩ : (room.leaveRoom playerId).2.group.capacity = room.group.capacity ∧
        (room.leaveRoom playerId).2.group.members.Sublist room.group.members := by
      unfold GameRoom.leaveRoom
      dsimp only
      split <;> exact ⟨removed,GameRoom.removed_sublist playerId⟩
    refine rehoused_objects objects listed ?_ ?_ w.heap
    · exact fun roomy => ⟨capacity.trans roomy.capacity,fewer.length_le.trans roomy.few⟩
    · exact fun member inside => objects.members roomId room listed member (fewer.subset inside)

theorem called_sound {turn : Turn} {pack : MsgPack} (objects : Objects w)
    (stepped : roomStep library w (.called turn pack) = some (next,after,out)) : Objects next ∧ after.Sound next := by
  unfold roomStep at stepped
  dsimp only at stepped
  split at stepped
  · cases stepped
    exact ⟨objects,trivial⟩
  rename_i calm
  split at stepped
  · rename_i creates
    cases stepped
    exact ⟨⟨objects.players,objects.members,objects.rooms⟩,creates,fun empty => calm ⟨.inl creates,empty⟩,rfl,rfl⟩
  · split at stepped
    · rename_i joins
      cases code : w.roomCodeToId (sought turn pack) with
      | none =>
        rw [code] at stepped
        cases stepped
        exact ⟨objects,trivial⟩
      | some roomId =>
        rw [code] at stepped
        cases stepped
        exact ⟨objects,joins,fun empty => calm ⟨.inr (.inl joins),empty⟩,code⟩
    · split at stepped
      · rename_i leaves
        cases code : w.roomCodeToId readLeave.first with
        | none =>
          rw [code] at stepped
          cases stepped
          exact ⟨objects,trivial⟩
        | some roomId =>
          rw [code] at stepped
          cases stepped
          exact ⟨objects,leaves,fun empty => calm ⟨.inr (.inr leaves),empty⟩,code⟩
      · cases stepped
        exact ⟨objects,trivial⟩

theorem replied_sound {pack : MsgPack} {text : Option StdString} : (replied pack text).Sound w := by
  unfold replied
  split <;> trivial

theorem roomStep_sound (objects : Objects w) (sound : task.Sound w)
    (stepped : roomStep library w task = some (next,after,out)) : Objects next ∧ after.Sound next := by
  cases task with
  | idle => cases stepped
  | called turn pack => exact called_sound objects stepped
  | owning turn pack newRoom =>
    obtain ⟨_,_,_,made⟩ := sound
    unfold roomStep at stepped
    dsimp only at stepped
    split at stepped
    · cases stepped
      exact ⟨objects,trivial⟩
    · cases owner : w.getPlayer newRoom.info.ownerId with
      | none =>
        rw [owner] at stepped
        cases stepped
        exact ⟨objects,trivial⟩
      | some ownerPlayer =>
        rw [owner] at stepped
        cases stepped
        refine ⟨objects,?_,?_,objects.players _ _ owner⟩ <;> rw [made] <;> rfl
  | housing turn pack newRoom ownerPlayer =>
    obtain ⟨capacity,empty,made⟩ := sound
    obtain ⟨result,joined,members,roomy,marks⟩ := joinRoom_marks newRoom ownerPlayer
    have room : (newRoom.joinRoom w.heap (some ownerPlayer)).2.1 = joined := by
      rcases marks with same | same <;> rw [same]
    unfold roomStep at stepped
    dsimp only at stepped
    split at stepped
    · cases stepped
      exact ⟨heap_objects objects _,trivial⟩
    · cases stepped
      rw [room]
      refine ⟨heap_objects objects _,roomy ⟨capacity,by rw [empty]; exact Nat.zero_le 4⟩,?_⟩
      intro player member
      rcases members player member with old | new
      · rw [empty] at old
        cases old
      · rw [new]
        exact made
  | entering turn pack newRoom =>
    cases stepped
    exact ⟨insert_objects objects sound.1 sound.2,trivial⟩
  | finding turn pack roomId =>
    unfold roomStep at stepped
    dsimp only at stepped
    cases listed : w.getRoom roomId with
    | none =>
      rw [listed] at stepped
      cases stepped
      exact ⟨objects,trivial⟩
    | some room =>
      rw [listed] at stepped
      cases stepped
      exact ⟨objects,sound.1,sound.2.1,sound.2.2,room,listed⟩
  | meeting turn pack roomId =>
    unfold roomStep at stepped
    dsimp only at stepped
    split at stepped
    · cases stepped
      exact ⟨objects,trivial⟩
    · cases known : w.getPlayer pack.senderId with
      | none =>
        rw [known] at stepped
        cases stepped
        exact ⟨objects,trivial⟩
      | some player =>
        rw [known] at stepped
        cases stepped
        exact ⟨objects,objects.players _ _ known⟩
  | seating turn pack roomId player =>
    obtain ⟨⟨answer,lobby⟩,joined,seated,_⟩ := withRoom_joins objects sound roomId
    unfold roomStep at stepped
    dsimp only at stepped
    rw [joined] at stepped
    cases answer with
    | error thrown =>
      cases stepped
      exact ⟨objects,trivial⟩
    | ok result => cases result <;> (cases stepped; exact ⟨seated,trivial⟩)
  | leaving turn pack roomId =>
    unfold roomStep at stepped
    dsimp only at stepped
    cases left : w.leaveRoom roomId pack.senderId with
    | none =>
      rw [left] at stepped
      cases stepped
      exact ⟨objects,trivial⟩
    | some out =>
      obtain ⟨answer,lobby⟩ := out
      rw [left] at stepped
      cases answer with
      | error thrown =>
        cases stepped
        exact ⟨objects,trivial⟩
      | ok result =>
        cases stepped
        exact ⟨leave_objects objects left,trivial⟩
  | describing turn pack =>
    unfold roomStep at stepped
    dsimp only at stepped
    split at stepped <;> (cases stepped; exact ⟨objects,trivial⟩)
  | fetching turn pack roomId =>
    unfold roomStep at stepped
    dsimp only at stepped
    cases listed : w.getRoom roomId with
    | none =>
      rw [listed] at stepped
      cases stepped
      exact ⟨objects,replied_sound⟩
    | some room =>
      rw [listed] at stepped
      cases stepped
      exact ⟨objects,(objects.rooms roomId room listed).few,objects.members roomId room listed⟩
  | reading turn pack room infos rest =>
    cases rest with
    | nil =>
      cases stepped
      exact ⟨objects,replied_sound⟩
    | cons player rest =>
      cases stepped
      exact ⟨objects,Nat.le_of_succ_le sound.1,fun other member => sound.2 other (List.mem_cons_of_mem _ member)⟩
  | telling =>
    cases stepped
    exact ⟨objects,trivial⟩

theorem sound_later (manager : next.manager = w.manager) (grown : w.nextObject ≤ next.nextObject) (sound : task.Sound w) :
    task.Sound next := by
  have codes (code : StdString) : next.roomCodeToId code = w.roomCodeToId code := by rw [Lobby.roomCodeToId,manager]; rfl
  have rooms (roomId : RoomId) : next.getRoom roomId = w.getRoom roomId := by rw [Lobby.getRoom,manager]; rfl
  cases task with
  | owning turn pack newRoom => exact ⟨sound.1,sound.2.1,by rw [manager]; exact sound.2.2.1,sound.2.2.2⟩
  | housing turn pack newRoom ownerPlayer => exact ⟨sound.1,sound.2.1,Nat.lt_of_lt_of_le sound.2.2 grown⟩
  | entering turn pack newRoom => exact ⟨sound.1,fun player member => Nat.lt_of_lt_of_le (sound.2 player member) grown⟩
  | finding turn pack roomId => exact ⟨sound.1,sound.2.1,(codes _).trans sound.2.2⟩
  | meeting turn pack roomId =>
    obtain ⟨room,listed⟩ := sound.2.2.2
    exact ⟨sound.1,sound.2.1,(codes _).trans sound.2.2.1,room,(rooms _).trans listed⟩
  | seating turn pack roomId player => exact Nat.lt_of_lt_of_le sound grown
  | leaving turn pack roomId => exact ⟨sound.1,sound.2.1,(codes _).trans sound.2.2⟩
  | reading turn pack room infos rest => exact ⟨sound.1,fun player member => Nat.lt_of_lt_of_le (sound.2 player member) grown⟩
  | _ => trivial

theorem created_objects (objects : Objects w) (userId : UserId) :
    Objects (w.createPlayer userId).2 ∧ w.nextObject ≤ (w.createPlayer userId).2.nextObject := by
  cases known : w.getPlayer userId with
  | some player =>
    rw [Lobby.createPlayer_known known]
    exact ⟨objects,Nat.le_refl _⟩
  | none =>
    have count : (w.createPlayer userId).2.nextObject = w.nextObject + 1 := by rw [Lobby.createPlayer_fresh known]
    refine ⟨⟨?_,?_,?_⟩,by rw [count]; exact Nat.le_succ _⟩
    · intro id player found
      rw [Lobby.createPlayer_getPlayer _ _ known] at found
      rw [count]
      split at found
      · cases found
        exact Nat.lt_succ_self _
      · exact Nat.lt_succ_of_lt (objects.players id player found)
    · intro roomId room listed player member
      rw [Lobby.getRoom,Lobby.createPlayer_manager] at listed
      rw [count]
      exact Nat.lt_succ_of_lt (objects.members roomId room listed player member)
    · intro roomId room listed
      rw [Lobby.getRoom,Lobby.createPlayer_manager] at listed
      exact objects.rooms roomId room listed

theorem loginStep_objects {login after : LoginTask} (objects : Objects w) (stepped : loginStep w login = some (next,after)) :
    Objects next ∧ next.manager = w.manager ∧ w.nextObject ≤ next.nextObject := by
  cases login with
  | idle => cases stepped
  | called turn pack =>
    unfold loginStep at stepped
    dsimp only at stepped
    split at stepped
    · split at stepped
      · cases stepped
        exact ⟨objects,rfl,Nat.le_refl _⟩
      · cases stepped
        obtain ⟨made,grown⟩ := created_objects objects (loginInfo turn pack).userId
        exact ⟨made,Lobby.createPlayer_manager _,grown⟩
    · cases stepped
      exact ⟨objects,rfl,Nat.le_refl _⟩
  | binding info player =>
    cases stepped
    exact ⟨heap_objects objects _,rfl,Nat.le_refl _⟩
  | marking player =>
    cases stepped
    exact ⟨heap_objects objects _,rfl,Nat.le_refl _⟩

theorem step_sound {s reached : State} {action : Action} (sound : Sound s) (stepped : step library s action = some reached) :
    Sound reached := by
  obtain ⟨objects,room⟩ := sound
  cases action with
  | call request =>
    cases request with
    | login turn pack =>
      unfold step at stepped
      dsimp only at stepped
      split at stepped
      · cases stepped
        exact ⟨objects,room⟩
      · cases stepped
    | room turn pack =>
      unfold step at stepped
      dsimp only at stepped
      split at stepped
      · cases stepped
        exact ⟨objects,trivial⟩
      · cases stepped
  | login =>
    obtain ⟨⟨next,after⟩,taken,rfl⟩ := Option.map_eq_some_iff.mp stepped
    obtain ⟨made,manager,grown⟩ := loginStep_objects objects taken
    exact ⟨made,sound_later manager grown room⟩
  | room =>
    obtain ⟨⟨next,after,out⟩,taken,rfl⟩ := Option.map_eq_some_iff.mp stepped
    obtain ⟨made,held⟩ := roomStep_sound objects room taken
    exact ⟨made,held⟩

end Keeping

end GameServer.Handlers
