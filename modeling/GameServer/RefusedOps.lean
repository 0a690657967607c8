import GameServer.LobbySteps

namespace GameServer.GameRoom
open Foundation

section Refusals
variable {room next : GameRoom} {heap after : Heap}

-- A refused operation leaves the room as it was; a start that throws has touched
-- the command handler. Only a join may have marked its player.
theorem perform_refused {op : Op} {result : Except Thrown RoomReqResult}
    (commands : ∀ iteration cmd, op ≠ .processCommand iteration cmd)
    (performed : room.perform heap op = some (result,next,after)) (refused : result ≠ .ok .ok) :
    next.info = room.info ∧ next.group = room.group ∧
      ((∀ player, op = .joinRoom (some player) → ¬ room.Receives player) → after = heap) := by
  cases perform_cases performed with
  | refused refusal turned stays => exact ⟨rfl,rfl,fun _ => rfl⟩
  | marked refusal receives _ => exact ⟨rfl,rfl,fun turned => (turned _ rfl receives).elim⟩
  | thrown info group ticking => exact ⟨info,group,fun _ => rfl⟩
  | misplayed => exact (commands _ _ rfl).elim
  | _ => exact (refused rfl).elim

end Refusals
end GameServer.GameRoom

namespace GameServer.Lobby
open Foundation

def answer (w : Lobby) : Event → Option (Except Thrown RoomReqResult × Lobby)
  | .createRoom roomInfo dist => let created := w.createRoom roomInfo dist; some (.ok created.result,created.lobby)
  | .joinRoom roomId playerId => w.joinRoom roomId playerId
  | .leaveRoom roomId playerId => w.leaveRoom roomId playerId
  | .setReady roomId playerId ready => w.setReady roomId playerId ready
  | .startGame roomId playerId loadMapData => w.startGame roomId playerId loadMapData
  | .changeMap roomId playerId mapPath => w.changeMap roomId playerId mapPath
  | .changeRoomName roomId playerId newName => w.changeRoomName roomId playerId newName
  | .changePassword roomId playerId newPassword => w.changePassword roomId playerId newPassword
  | .kickPlayer roomId playerId targetId => w.kickPlayer roomId playerId targetId
  | .changeCapacity roomId playerId newCapacity => w.changeCapacity roomId playerId newCapacity
  | .dissolveRoom roomId playerId => let dissolved := w.dissolveRoom roomId playerId; some (.ok dissolved.1,dissolved.2)
  | _ => none

-- Both tables, every room's info and group with its members and capacity, and
-- every player's info are what they were.
structure Unchanged (w next : Lobby) : Prop where
  rooms : ∀ roomId, (next.getRoom roomId).map (fun room => (room.info,room.group)) =
    (w.getRoom roomId).map fun room => (room.info,room.group)
  codes : ∀ roomCode, next.roomCodeToId roomCode = w.roomCodeToId roomCode
  players : ∀ id, next.getPlayer id = w.getPlayer id
  infos : next.heap = w.heap

def RefusesWhole (w : Lobby) (event : Event) : Prop :=
  ∀ result next, w.answer event = some (result,next) → result ≠ .ok .ok → Unchanged w next

-- Whoever is marked and then refused has that very room on record already.
structure MarksNothing (w : Lobby) (event : Event) : Prop where
  creates : ∀ roomInfo dist, event = .createRoom roomInfo dist → w.Bars roomInfo →
    w.recorded roomInfo.ownerId = some w.manager.nextRoomId
  joins : ∀ roomId playerId player room, event = .joinRoom roomId playerId → w.manager.hasPlayerManager = true →
    w.getPlayer playerId = some player → w.getRoom roomId = some room → room.Receives player → ¬ room.Admits player →
    w.recorded playerId = some roomId

section Refusals
variable {w next : Lobby} {roomId : RoomId} {room changed : GameRoom}

theorem enterRoom_same {player : GamePlayer} {heap : Heap} :
    player.enterRoom heap roomId = heap ↔ GameRoom.recordOf heap player.object = roomId := by
  refine ⟨?_,?_⟩
  · intro same
    have mark := GameRoom.enterRoom_record player heap roomId player.object
    rw [same,if_pos rfl] at mark
    exact mark
  · intro marked
    subst marked
    exact Function.update_eq_self player.object heap

theorem same_unchanged (rooms : next.manager.rooms = w.manager.rooms) (codes : next.manager.roomCodeMap = w.manager.roomCodeMap)
    (players : next.playerManager = w.playerManager) (infos : next.heap = w.heap) : Unchanged w next := by
  refine ⟨?_,?_,getPlayer_congr players,infos⟩
  · intro other
    rw [getRoom,rooms,getRoom]
  · intro roomCode
    rw [roomCodeToId,codes,roomCodeToId]

theorem called_unchanged {op : GameRoom.Op} {result : Except Thrown RoomReqResult}
    (called : Called w roomId op room changed result next)
    (info : changed.info = room.info) (group : changed.group = room.group) : Unchanged w next ↔ next.heap = w.heap := by
  refine ⟨fun same => same.infos,?_⟩
  intro infos
  refine ⟨?_,?_,getPlayer_congr called.players,infos⟩
  · intro other
    rw [called.rooms]
    split
    · rename_i here
      rw [here,called.found,Option.map_some,Option.map_some,info,group]
    · rfl
  · intro roomCode
    rw [roomCodeToId,called.codes,roomCodeToId]

theorem withRoom_refused {op : GameRoom.Op} {result : Except Thrown RoomReqResult} (joins : ∀ player, op ≠ .joinRoom player)
    (commands : ∀ iteration cmd, op ≠ .processCommand iteration cmd)
    (answered : w.withRoom roomId op = some (result,next)) (refused : result ≠ .ok .ok) : Unchanged w next := by
  rcases withRoom_called answered with ⟨-,-,rfl⟩ | ⟨room,changed,called⟩
  · exact same_unchanged rfl rfl rfl rfl
  · obtain ⟨info,group,infos⟩ := GameRoom.perform_refused commands called.performed refused
    exact (called_unchanged called info group).mpr (infos fun player same => (joins _ same).elim)

theorem createRoom_refuses (roomInfo : GameRoomInfo) (dist : Fin 6 → Fin 36) : RefusesWhole w (.createRoom roomInfo dist) ↔
    ((w.createRoom roomInfo dist).result ≠ .ok → Unchanged w (w.createRoom roomInfo dist).lobby) := by
  refine ⟨?_,?_⟩
  · intro whole refused
    exact whole _ _ rfl (fun ok => refused (Except.ok.inj ok))
  · intro whole _ _ answered refused
    cases answered
    exact whole fun ok => refused (congrArg Except.ok ok)

theorem createRoom_whole (roomInfo : GameRoomInfo) (dist : Fin 6 → Fin 36) :
    RefusesWhole w (.createRoom roomInfo dist) ↔
      (w.Bars roomInfo → w.recorded roomInfo.ownerId = some w.manager.nextRoomId) := by
  rw [createRoom_refuses]
  by_cases owned : w.manager.hasPlayerManager = true ∧ ∃ player, w.getPlayer roomInfo.ownerId = some player
  · obtain ⟨managed,player,owner⟩ := owned
    have joining := GameRoom.joinRoom_cases (w.newRoom roomInfo dist) w.heap player
    rw [createRoom_owned managed owner,recorded,owner,Option.map_some,Option.some_inj,← enterRoom_same]
    generalize (w.newRoom roomInfo dist).joinRoom w.heap (some player) = joined at joining
    dsimp only
    cases joining with
    | turned closed refused =>
      rw [if_pos refused]
      refine iff_of_true (fun _ => same_unchanged rfl rfl rfl rfl) ?_
      rintro ⟨-,⟨other,found,real⟩,lobby,-⟩
      cases owner.symm.trans found
      exact (closed (newRoom_receives.mpr ⟨lobby,real⟩)).elim
    | present receives member => exact (List.not_mem_nil member).elim
    | crowded receives fresh full =>
      obtain ⟨lobby,real⟩ := newRoom_receives.mp receives
      refine ⟨?_,?_⟩
      · intro whole _
        have full : RoomReqResult.full ≠ .ok := by decide
        exact (whole full).infos
      · intro marked _
        exact same_unchanged rfl rfl rfl (marked ⟨managed,⟨player,owner,real⟩,lobby,Nat.le_zero.mp full⟩)
    | admitted admits =>
      refine iff_of_true (fun refused => (refused rfl).elim) ?_
      intro barred
      have room : 0 < roomInfo.capacity := (newRoom_admits.mp admits).2
      exact absurd barred.room (Nat.ne_of_gt room)
  · have unowned : w.manager.hasPlayerManager = true → w.getPlayer roomInfo.ownerId = none := by
      intro managed
      rw [Option.eq_none_iff_forall_ne_some]
      exact fun player found => owned ⟨managed,player,found⟩
    rw [createRoom_unowned dist unowned]
    refine iff_of_true (fun _ => same_unchanged rfl rfl rfl rfl) ?_
    rintro ⟨managed,⟨player,found,-⟩,-,-⟩
    exact (owned ⟨managed,player,found⟩).elim

theorem registered_whole (sound : w.Sound) {player : GamePlayer} (listed : w.getRoom roomId = some room) :
    (∀ result next, w.withRoom roomId (.joinRoom (some player)) = some (result,next) → result ≠ .ok .ok → Unchanged w next) ↔
      (room.Receives player → ¬ room.Admits player → player.enterRoom w.heap roomId = w.heap) := by
  have marks {result : Except Thrown RoomReqResult} {next : Lobby} {changed : GameRoom} (receives : room.Receives player)
      (called : Called w roomId (.joinRoom (some player)) room changed result next) :
      next.heap = player.enterRoom w.heap roomId := by
    rw [GameRoom.perform_marks receives called.performed,sound.listed roomId room listed]
  have refusal {result : Except Thrown RoomReqResult} {next : Lobby} {changed : GameRoom}
      (called : Called w roomId (.joinRoom (some player)) room changed result next) : result = .ok .ok ↔ room.Admits player := by
    have performed := called.performed
    have same : Except.ok (room.joinRoom w.heap (some player)).1 = result := (Prod.mk.inj (Option.some.inj performed)).1
    have joined : (room.joinRoom w.heap (some player)).1 = .ok ↔ room.Admits player := GameRoom.joinRoom_ok
    rw [← joined,← same]
    exact ⟨Except.ok.inj,congrArg Except.ok⟩
  refine ⟨?_,?_⟩
  · intro whole receives refused
    cases answered : w.withRoom roomId (.joinRoom (some player)) with
    | none =>
      rw [withRoom,listed] at answered
      cases answered
    | some out =>
      obtain ⟨result,next⟩ := out
      rcases withRoom_called answered with ⟨missing,-⟩ | ⟨found,changed,called⟩
      · cases missing.symm.trans listed
      · cases called.found.symm.trans listed
        rw [← marks receives called]
        exact (whole result next answered fun ok => refused ((refusal called).mp ok)).infos
  · intro marked result next answered refused
    rcases withRoom_called answered with ⟨missing,-⟩ | ⟨found,changed,called⟩
    · cases missing.symm.trans listed
    · cases called.found.symm.trans listed
      obtain ⟨info,group,infos⟩ := GameRoom.perform_refused (fun _ _ same => by cases same) called.performed refused
      refine (called_unchanged called info group).mpr ?_
      by_cases receives : room.Receives player
      · rw [marks receives called]
        exact marked receives fun admits => refused ((refusal called).mpr admits)
      · exact infos fun _ same => by cases same; exact receives

theorem joinRoom_whole (sound : w.Sound) (roomId : RoomId) (playerId : UserId) : RefusesWhole w (.joinRoom roomId playerId) ↔
    ∀ player room, w.manager.hasPlayerManager = true → w.getPlayer playerId = some player → w.getRoom roomId = some room →
      room.Receives player → ¬ room.Admits player → w.recorded playerId = some roomId := by
  have reads : RefusesWhole w (.joinRoom roomId playerId) ↔
      ∀ result next, w.joinRoom roomId playerId = some (result,next) → result ≠ .ok .ok → Unchanged w next := Iff.rfl
  rw [reads]
  have aside : (∃ result, w.joinRoom roomId playerId = some (result,w)) →
      ∀ result next, w.joinRoom roomId playerId = some (result,next) → result ≠ .ok .ok → Unchanged w next := by
    rintro ⟨_,same⟩ _ _ answered _
    cases same.symm.trans answered
    exact same_unchanged rfl rfl rfl rfl
  cases listed : w.getRoom roomId with
  | none => exact iff_of_true (aside ⟨_,by rw [joinRoom,listed]⟩) nofun
  | some room =>
    by_cases managed : w.manager.hasPlayerManager = true
    · cases registered : w.getPlayer playerId with
      | none => exact iff_of_true (aside ⟨_,by rw [joinRoom,listed,managed,registered]; rfl⟩) nofun
      | some player =>
        have calls : w.joinRoom roomId playerId = w.withRoom roomId (.joinRoom (some player)) := by
          rw [joinRoom,listed,managed,registered]
          rfl
        rw [calls,registered_whole sound listed]
        refine ⟨?_,?_⟩
        · rintro marked other another - same found receives refusal
          cases same
          cases found
          rw [recorded,registered,Option.map_some,Option.some_inj]
          exact enterRoom_same.mp (marked receives refusal)
        · intro marked receives refusal
          have record := marked player room managed rfl rfl receives refusal
          rw [recorded,registered,Option.map_some,Option.some_inj] at record
          exact enterRoom_same.mpr record
    · refine iff_of_true (aside ⟨_,by rw [joinRoom,listed]; simp only [managed]; rfl⟩) ?_
      exact fun _ _ holds => (managed holds).elim

theorem dissolveRoom_whole (roomId : RoomId) (playerId : UserId) : RefusesWhole w (.dissolveRoom roomId playerId) := by
  intro result next answered refused
  cases answered
  have refusal : (w.dissolveRoom roomId playerId).1 ≠ .ok := fun ok => refused (congrArg Except.ok ok)
  unfold dissolveRoom at refusal ⊢
  cases listed : w.getRoom roomId with
  | none => exact same_unchanged rfl rfl rfl rfl
  | some room =>
    rw [listed] at refusal
    dsimp only at refusal ⊢
    by_cases stranger : (room.dissolveRoom playerId).1 ≠ .ok
    · have same : (room.dissolveRoom playerId).2 = room := by
        unfold GameRoom.dissolveRoom at stranger ⊢
        split
        · rfl
        · rename_i owner
          rw [if_neg owner] at stranger
          exact (stranger rfl).elim
      rw [if_pos stranger,same]
      refine ⟨?_,fun _ => rfl,fun _ => rfl,rfl⟩
      intro other
      have modified := UnorderedMap.lookup_modify w.manager.rooms roomId other fun _ => room
      have entry : w.manager.rooms.lookup roomId = some room := listed
      rw [entry] at modified
      rw [getRoom,modified]
      split
      · rename_i here; rw [here,listed,Option.map_some]
      · rfl
    · rw [if_neg stranger] at refusal
      exact (refusal rfl).elim

def enters : Event → Bool
  | .createRoom _ _ | .joinRoom _ _ => true
  | _ => false

theorem marks_nobody {event : Event} (passive : enters event = false) : MarksNothing w event := by
  refine ⟨?_,?_⟩
  · rintro roomInfo dist rfl
    cases passive
  · rintro roomId playerId player room rfl
    cases passive

theorem event_whole (sound : w.Sound) (event : Event) : RefusesWhole w event ↔ MarksNothing w event := by
  have called {roomId : RoomId} {op : GameRoom.Op} (passive : enters event = false) (asks : w.answer event = w.withRoom roomId op)
      (joins : ∀ player, op ≠ .joinRoom player) (commands : ∀ iteration cmd, op ≠ .processCommand iteration cmd) :
      RefusesWhole w event ↔ MarksNothing w event := by
    refine iff_of_true ?_ (marks_nobody passive)
    intro result next answered refused
    rw [asks] at answered
    exact withRoom_refused joins commands answered refused
  have silent (passive : enters event = false) (asks : w.answer event = none) :
      RefusesWhole w event ↔ MarksNothing w event := by
    refine iff_of_true ?_ (marks_nobody passive)
    intro result next answered
    cases asks.symm.trans answered
  cases event with
  | createRoom roomInfo dist =>
    rw [createRoom_whole]
    refine ⟨?_,fun marks => marks.creates roomInfo dist rfl⟩
    intro whole
    refine ⟨?_,nofun⟩
    intro _ _ same
    cases same
    exact whole
  | joinRoom roomId playerId =>
    rw [joinRoom_whole sound]
    refine ⟨?_,fun marks player room => marks.joins roomId playerId player room rfl⟩
    intro whole
    refine ⟨nofun,?_⟩
    intro _ _ player room same
    cases same
    exact whole player room
  | dissolveRoom roomId playerId => exact iff_of_true (dissolveRoom_whole roomId playerId) (marks_nobody rfl)
  | leaveRoom roomId playerId => exact called rfl rfl (fun _ same => by cases same) fun _ _ same => by cases same
  | setReady roomId playerId ready => exact called rfl rfl (fun _ same => by cases same) fun _ _ same => by cases same
  | startGame roomId playerId loadMapData =>
    exact called rfl rfl (fun _ same => by cases same) fun _ _ same => by cases same
  | changeMap roomId playerId mapPath => exact called rfl rfl (fun _ same => by cases same) fun _ _ same => by cases same
  | changeRoomName roomId playerId newName =>
    exact called rfl rfl (fun _ same => by cases same) fun _ _ same => by cases same
  | changePassword roomId playerId newPassword =>
    exact called rfl rfl (fun _ same => by cases same) fun _ _ same => by cases same
  | kickPlayer roomId playerId targetId =>
    exact called rfl rfl (fun _ same => by cases same) fun _ _ same => by cases same
  | changeCapacity roomId playerId newCapacity =>
    exact called rfl rfl (fun _ same => by cases same) fun _ _ same => by cases same
  | roomCall roomId op => exact silent rfl rfl
  | userLogin info => exact silent rfl rfl
  | userLogout info => exact silent rfl rfl
  | setPlayerRoom playerId roomId => exact silent rfl rfl
  | setPlayerManager alive => exact silent rfl rfl

end Refusals

-- In every state a run comes to, an operation that is not answered OK changes
-- nothing exactly when it marks nobody before it refuses.
theorem refusals_exact (heap : Heap) (events : List { event : Event // event.managed = true }) :
    Machine.Every (among Event.managed) (fun w event _ => RefusesWhole w event.1) (opened heap) events ↔
      Machine.Every (among Event.managed) (fun w event _ => MarksNothing w event.1) (opened heap) events := by
  refine Machine.every_congr ?_ ?_ (opened_sound heap)
  · intro w event next sound stepped _
    exact moves_sound sound (step_registry sound.registry event.2 stepped) (step_moves sound.registry event.2 stepped)
  · intro w event next sound _
    exact event_whole sound event.1

def joinsFullRoom : List Event := [
  .setPlayerManager true,
  .userLogin ⟨.success,1,1,[]⟩,
  .userLogin ⟨.success,2,2,[]⟩,
  .createRoom { ownerId := 1, capacity := 1 } zeros,
  .joinRoom 1 2]

-- A join answered FULL has written the room into the player's info.
theorem full_room_marks : ¬ Machine.Every (among Event.managed) (fun w event _ => RefusesWhole w event.1)
    (opened noInfos) (only Event.managed joinsFullRoom) := by
  intro every
  have seen : ((Machine.run (among Event.managed) (opened noInfos) (only Event.managed (joinsFullRoom.take 4))).bind fun w =>
      (w.joinRoom 1 2).map fun out => (out.1.toOption,w.recorded 2,out.2.recorded 2)) = some (some .full,some 0,some 1) := by
    decide +kernel
  obtain ⟨w,path,looked⟩ := Option.bind_eq_some_iff.mp seen
  obtain ⟨⟨result,next⟩,answered,facts⟩ := Option.map_eq_some_iff.mp looked
  obtain ⟨full,records⟩ := Prod.mk.inj facts
  obtain ⟨before,after⟩ := Prod.mk.inj records
  have stepped : among Event.managed w ⟨.joinRoom 1 2,rfl⟩ = some next := Option.map_eq_some_iff.mpr ⟨_,answered,rfl⟩
  have whole := Machine.every_iff.mp every (only Event.managed (joinsFullRoom.take 4)) ⟨.joinRoom 1 2,rfl⟩ [] w next
    rfl path stepped
  have refused : result ≠ .ok .ok := by
    rintro rfl
    cases full
  have same := whole result next answered refused
  have kept : next.recorded 2 = w.recorded 2 := by
    unfold recorded
    rw [same.players,same.infos]
  dsimp only at before after
  rw [before,after] at kept
  exact absurd kept (by decide)

end GameServer.Lobby
