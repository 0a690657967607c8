import GameServer.LobbySteps

namespace GameServer.Lobby
open Foundation

-- The room a registered player has on record is listed and has the player in it.
def RecordsTrue (w : Lobby) : Prop := ∀ id roomId, w.recorded id = some roomId → roomId ≠ 0 →
  ∃ room, w.getRoom roomId = some room ∧ id ∈ room.memberIds

-- The steps that leave no record astray: nobody is turned away from a full room,
-- and nobody leaves, is kicked or is left behind whose record is that room.
structure KeepsRecords (w : Lobby) (event : Event) : Prop where
  creates : ∀ roomInfo dist, event = .createRoom roomInfo dist → w.Registers roomInfo → w.manager.nextRoomId ≠ 0 →
    ∀ id, w.recorded id = some w.manager.nextRoomId → id = roomInfo.ownerId
  bars : ∀ roomInfo dist, event = .createRoom roomInfo dist → w.Bars roomInfo → w.manager.nextRoomId ≠ 0 →
    ∃ room, w.getRoom w.manager.nextRoomId = some room ∧ roomInfo.ownerId ∈ room.memberIds
  crowds : ∀ roomId player room, w.call event = some (roomId,.joinRoom (some player)) → w.getRoom roomId = some room →
    room.Receives player → room.group.capacity ≤ room.group.members.length → roomId ≠ 0 → player.userId ∈ room.memberIds
  leaves : ∀ roomId playerId room, w.call event = some (roomId,.leaveRoom playerId) → w.getRoom roomId = some room →
    playerId ∈ room.memberIds → roomId ≠ 0 → w.recorded playerId ≠ some roomId
  kicks : ∀ roomId playerId targetId room, w.call event = some (roomId,.kickPlayer playerId targetId) →
    w.getRoom roomId = some room → room.Expels playerId targetId → targetId ∈ room.memberIds → roomId ≠ 0 →
      w.recorded targetId ≠ some roomId
  dissolves : ∀ roomId playerId room, event = .dissolveRoom roomId playerId → w.getRoom roomId = some room →
    playerId = room.info.ownerId → roomId ≠ 0 → ∀ id, w.recorded id ≠ some roomId

section Records
variable {w next : Lobby} {event : Event} {roomId : RoomId} {room changed : GameRoom}

theorem replaced_records (holds : w.RecordsTrue) (records : ∀ id, next.recorded id = w.recorded id)
    (rooms : ∀ other, next.getRoom other = if other = roomId then some changed else w.getRoom other) :
    next.RecordsTrue ↔ ∀ id, w.recorded id = some roomId → roomId ≠ 0 → id ∈ changed.memberIds := by
  refine ⟨?_,?_⟩
  · intro after id record real
    obtain ⟨room,found,member⟩ := after id roomId ((records id).trans record) real
    rw [rooms,if_pos rfl] at found
    cases found
    exact member
  · intro inside id other record real
    rw [records] at record
    by_cases here : other = roomId
    · subst here
      exact ⟨changed,(rooms other).trans (if_pos rfl),inside id record real⟩
    · obtain ⟨room,found,member⟩ := holds id other record real
      exact ⟨room,(rooms other).trans ((if_neg here).trans found),member⟩

theorem kept_records (holds : w.RecordsTrue) (found : w.getRoom roomId = some room)
    (records : ∀ id, next.recorded id = w.recorded id)
    (rooms : ∀ other, next.getRoom other = if other = roomId then some changed else w.getRoom other)
    (more : room.memberIds ⊆ changed.memberIds) : next.RecordsTrue := by
  refine (replaced_records holds records rooms).mpr ?_
  intro id record real
  obtain ⟨old,listed,member⟩ := holds id roomId record real
  cases found.symm.trans listed
  exact more member

theorem erased_records (sound : w.Sound) (holds : w.RecordsTrue) (found : w.getRoom roomId = some room)
    (records : ∀ id, next.recorded id = w.recorded id)
    (rooms : ∀ other, next.getRoom other = if other = roomId then some changed else w.getRoom other)
    {targetId : UserId} (ids : changed.memberIds = room.memberIds.erase targetId) :
    next.RecordsTrue ↔ (targetId ∈ room.memberIds → roomId ≠ 0 → w.recorded targetId ≠ some roomId) := by
  have distinct : room.memberIds.Nodup := (sound.seated roomId room found).keyed
  rw [replaced_records holds records rooms,ids]
  refine ⟨?_,?_⟩
  · intro inside _ real record
    have kept := inside targetId record real
    exact absurd rfl (distinct.mem_erase_iff.mp kept).1
  · intro spared id record real
    obtain ⟨old,listed,member⟩ := holds id roomId record real
    cases found.symm.trans listed
    refine distinct.mem_erase_iff.mpr ⟨?_,member⟩
    intro same
    subst same
    exact spared member real record

theorem joined_records (sound : w.Sound) (holds : w.RecordsTrue) (found : w.getRoom roomId = some room) {player : GamePlayer}
    {id : UserId} (registered : w.getPlayer id = some player) (receives : room.Receives player)
    (ids : changed.memberIds = room.roster (.joinRoom (some player)))
    (rooms : ∀ other, next.getRoom other = if other = roomId then some changed else w.getRoom other)
    (records : ∀ other, next.recorded other = if other = id then some roomId else w.recorded other) :
    next.RecordsTrue ↔
      (room.group.capacity ≤ room.group.members.length → roomId ≠ 0 → player.userId ∈ room.memberIds) := by
  have name : player.userId = id := sound.registry.named id player registered
  have others : room.memberIds ⊆ changed.memberIds := by
    rw [ids,GameRoom.roster_joinRoom]
    split
    · exact List.subset_append_left _ _
    · exact List.Subset.refl _
  refine ⟨?_,?_⟩
  · intro after full real
    obtain ⟨room',listed,member⟩ := after id roomId ((records id).trans (if_pos rfl)) real
    rw [rooms,if_pos rfl] at listed
    cases listed
    rw [ids,GameRoom.roster_joinRoom,if_neg (fun admits => absurd admits.2.2 (Nat.not_lt.mpr full))] at member
    exact name ▸ member
  · intro space other target record real
    rw [records] at record
    by_cases joining : other = id
    · rw [if_pos joining] at record
      cases record
      refine ⟨changed,(rooms roomId).trans (if_pos rfl),?_⟩
      rw [joining,← name]
      by_cases member : player.userId ∈ room.memberIds
      · exact others member
      · have open_ : room.group.members.length < room.group.capacity :=
          Nat.lt_of_not_le fun full => member (space full real)
        rw [ids,GameRoom.roster_joinRoom,if_pos ⟨receives,member,open_⟩]
        exact List.mem_append_right _ (List.mem_singleton_self _)
    · rw [if_neg joining] at record
      obtain ⟨old,listed,member⟩ := holds other target record real
      by_cases here : target = roomId
      · subst here
        cases found.symm.trans listed
        exact ⟨changed,(rooms target).trans (if_pos rfl),others member⟩
      · exact ⟨old,(rooms target).trans ((if_neg here).trans listed),member⟩

theorem created_records (holds : w.RecordsTrue) {ownerId : UserId}
    (ids : changed.memberIds = [ownerId])
    (rooms : ∀ other, next.getRoom other = if other = roomId then some changed else w.getRoom other)
    (records : ∀ other, next.recorded other = if other = ownerId then some roomId else w.recorded other) :
    next.RecordsTrue ↔ (roomId ≠ 0 → ∀ id, w.recorded id = some roomId → id = ownerId) := by
  refine ⟨?_,?_⟩
  · intro after real id record
    by_cases mine : id = ownerId
    · exact mine
    · obtain ⟨room,found,member⟩ := after id roomId ((records id).trans ((if_neg mine).trans record)) real
      rw [rooms,if_pos rfl] at found
      cases found
      rw [ids] at member
      exact List.mem_singleton.mp member
  · intro own id target record real
    rw [records] at record
    by_cases mine : id = ownerId
    · rw [if_pos mine] at record
      cases record
      exact ⟨changed,(rooms roomId).trans (if_pos rfl),by rw [ids,mine]; exact List.mem_singleton_self _⟩
    · rw [if_neg mine] at record
      have elsewhere : target ≠ roomId := by
        rintro rfl
        exact mine (own real id record)
      obtain ⟨room,found,member⟩ := holds id target record real
      exact ⟨room,(rooms target).trans ((if_neg elsewhere).trans found),member⟩

theorem written_records (holds : w.RecordsTrue) {ownerId : UserId} (rooms : ∀ other, next.getRoom other = w.getRoom other)
    (records : ∀ other, next.recorded other = if other = ownerId then some roomId else w.recorded other) :
    next.RecordsTrue ↔ (roomId ≠ 0 → ∃ room, w.getRoom roomId = some room ∧ ownerId ∈ room.memberIds) := by
  refine ⟨?_,?_⟩
  · intro after real
    obtain ⟨room,found,member⟩ := after ownerId roomId ((records ownerId).trans (if_pos rfl)) real
    exact ⟨room,(rooms roomId).symm.trans found,member⟩
  · intro listed id target record real
    rw [records] at record
    rw [rooms]
    by_cases mine : id = ownerId
    · rw [if_pos mine] at record
      cases record
      rw [mine]
      exact listed real
    · rw [if_neg mine] at record
      exact holds id target record real

theorem unlisted_records (holds : w.RecordsTrue) (records : ∀ id, next.recorded id = w.recorded id)
    (rooms : ∀ other, next.getRoom other = if other = roomId then none else w.getRoom other) :
    next.RecordsTrue ↔ (roomId ≠ 0 → ∀ id, w.recorded id ≠ some roomId) := by
  refine ⟨?_,?_⟩
  · intro after real id record
    obtain ⟨room,listed,-⟩ := after id roomId ((records id).trans record) real
    rw [rooms,if_pos rfl] at listed
    cases listed
  · intro spared id other record real
    rw [records] at record
    have elsewhere : other ≠ roomId := by
      rintro rfl
      exact spared real id record
    obtain ⟨room,listed,member⟩ := holds id other record real
    exact ⟨room,(rooms other).trans ((if_neg elsewhere).trans listed),member⟩

theorem keepsRecords_call {op : GameRoom.Op} (asked : w.call event = some (roomId,op)) (found : w.getRoom roomId = some room) :
    KeepsRecords w event ↔
      (∀ player, op = .joinRoom (some player) → room.Receives player → room.group.capacity ≤ room.group.members.length →
        roomId ≠ 0 → player.userId ∈ room.memberIds) ∧
      (∀ playerId, op = .leaveRoom playerId → playerId ∈ room.memberIds → roomId ≠ 0 → w.recorded playerId ≠ some roomId) ∧
      ∀ playerId targetId, op = .kickPlayer playerId targetId → room.Expels playerId targetId → targetId ∈ room.memberIds →
        roomId ≠ 0 → w.recorded targetId ≠ some roomId := by
  obtain ⟨creates,dissolves⟩ := call_else asked
  refine ⟨?_,?_⟩
  · rintro ⟨-,-,crowds,leaves,kicks,-⟩
    refine ⟨?_,?_,?_⟩
    · rintro player rfl
      exact crowds roomId player room asked found
    · rintro playerId rfl
      exact leaves roomId playerId room asked found
    · rintro playerId targetId rfl
      exact kicks roomId playerId targetId room asked found
  · rintro ⟨crowds,leaves,kicks⟩
    refine ⟨fun _ _ creation => (creates _ _ creation).elim,fun _ _ creation => (creates _ _ creation).elim,?_,?_,?_,
      fun _ _ _ dissolution => (dissolves _ _ dissolution).elim⟩
    · intro _ player _ again listed
      cases asked.symm.trans again
      cases found.symm.trans listed
      exact crowds player rfl
    · intro _ playerId _ again listed
      cases asked.symm.trans again
      cases found.symm.trans listed
      exact leaves playerId rfl
    · intro _ playerId targetId _ again listed
      cases asked.symm.trans again
      cases found.symm.trans listed
      exact kicks playerId targetId rfl

theorem called_records (sound : w.Sound) (holds : w.RecordsTrue) (managed : event.managed = true) {op : GameRoom.Op}
    {result : Except Thrown RoomReqResult} (asked : w.call event = some (roomId,op))
    (called : Called w roomId op room changed result next) : next.RecordsTrue ↔ KeepsRecords w event := by
  have ids := GameRoom.perform_roster called.performed
  rw [keepsRecords_call asked called.found]
  by_cases marking : ∃ player, op = .joinRoom (some player) ∧ room.Receives player
  · obtain ⟨player,rfl,receives⟩ := marking
    obtain ⟨id,_,same,registered⟩ := call_joins managed asked
    cases same
    have heap := GameRoom.perform_marks receives called.performed
    rw [sound.listed roomId room called.found] at heap
    rw [joined_records sound holds called.found registered receives ids called.rooms
      (recorded_enters sound.registry registered called.players heap)]
    refine ⟨?_,?_⟩
    · intro space
      refine ⟨?_,nofun,nofun⟩
      intro _ same _
      cases same
      exact space
    · intro guards
      exact guards.1 player rfl receives
  · have turned : ∀ player, op = .joinRoom (some player) → ¬ room.Receives player :=
      fun player same receives => marking ⟨player,same,receives⟩
    have records := recorded_congr called.players (GameRoom.perform_record turned called.performed)
    have steady (same : room.roster op = room.memberIds) : next.RecordsTrue :=
      kept_records holds called.found records called.rooms (by rw [ids,same]; exact List.Subset.refl _)
    cases op with
    | joinRoom player =>
      have refused : room.roster (.joinRoom player) = room.memberIds := by
        cases player with
        | none => rfl
        | some player => rw [GameRoom.roster_joinRoom,if_neg (fun admits => turned player rfl admits.1)]
      refine iff_of_true (steady refused) ⟨?_,nofun,nofun⟩
      intro player same receives
      exact (turned player same receives).elim
    | leaveRoom playerId =>
      rw [erased_records sound holds called.found records called.rooms ids]
      refine ⟨?_,?_⟩
      · intro spared
        refine ⟨nofun,?_,nofun⟩
        intro _ same
        cases same
        exact spared
      · intro guards
        exact guards.2.1 playerId rfl
    | kickPlayer playerId targetId =>
      by_cases expels : room.Expels playerId targetId
      · rw [GameRoom.roster_kickPlayer,if_pos expels] at ids
        rw [erased_records sound holds called.found records called.rooms ids]
        refine ⟨?_,?_⟩
        · intro spared
          refine ⟨nofun,nofun,?_⟩
          intro _ _ same _
          cases same
          exact spared
        · intro guards
          exact guards.2.2 playerId targetId rfl expels
      · refine iff_of_true (steady (by rw [GameRoom.roster_kickPlayer,if_neg expels])) ⟨nofun,nofun,?_⟩
        intro _ _ same expelled
        cases same
        exact (expels expelled).elim
    | dissolveRoom playerId => exact (call_dissolves managed asked).elim
    | _ => exact iff_of_true (steady rfl) ⟨nofun,nofun,nofun⟩

theorem moves_records (sound : w.Sound) (holds : w.RecordsTrue) (managed : event.managed = true) (moves : Moves w event next) :
    next.RecordsTrue ↔ KeepsRecords w event := by
  cases moves with
  | calls asked called => exact called_records sound holds managed asked called
  | @enters roomInfo dist player creation registers owner rooms heap players =>
    subst creation
    rw [created_records holds (newRoom_ids sound.registry owner) rooms (recorded_enters sound.registry owner players heap)]
    refine ⟨?_,?_⟩
    · intro own
      refine ⟨?_,?_,nofun,nofun,nofun,nofun⟩
      · intro _ _ same _
        cases same
        exact own
      · intro _ _ same barred
        cases same
        exact absurd barred.room (Nat.ne_of_gt registers.room)
    · intro guards
      exact guards.creates roomInfo dist rfl registers
  | @bars roomInfo dist player creation barred owner rooms heap players =>
    subst creation
    rw [written_records holds rooms (recorded_enters sound.registry owner players heap)]
    refine ⟨?_,?_⟩
    · intro listed
      refine ⟨?_,?_,nofun,nofun,nofun,nofun⟩
      · intro _ _ same registers
        cases same
        exact absurd barred.room (Nat.ne_of_gt registers.room)
      · intro _ _ same _
        cases same
        exact listed
    · intro guards
      exact guards.bars roomInfo dist rfl barred
  | @dissolves target playerId gone dissolution found owner rooms heap players =>
    subst dissolution
    rw [unlisted_records holds (recorded_congr players fun object => by rw [heap]) rooms]
    refine ⟨?_,?_⟩
    · intro spared
      refine ⟨nofun,nofun,nofun,nofun,nofun,?_⟩
      intro _ _ _ same _ _
      cases same
      exact spared
    · intro guards
      exact guards.dissolves target playerId gone rfl found owner
  | rests idle =>
    refine iff_of_true ?_ ⟨?_,?_,?_,?_,?_,?_⟩
    · intro id target record real
      rw [idle.rooms]
      rcases idle.records id target record with zero | same
      · exact (real zero).elim
      · exact holds id target same real
    · exact fun roomInfo dist creation registers => ((idle.creates roomInfo dist creation).1 registers).elim
    · exact fun roomInfo dist creation barred => ((idle.creates roomInfo dist creation).2 barred).elim
    · intro target player gone asked found
      cases (idle.asks target _ asked).symm.trans found
    · intro target playerId gone asked found
      cases (idle.asks target _ asked).symm.trans found
    · intro target playerId targetId gone asked found
      cases (idle.asks target _ asked).symm.trans found
    · exact fun target playerId gone dissolution found owner => (idle.dissolves target playerId gone dissolution found owner).elim

end Records

-- Over whole runs: what players have on record is true exactly as long as every
-- step keeps it.
theorem recorded_rooms_exact (heap : Heap) (events : List { event : Event // event.managed = true }) :
    Machine.Always (among Event.managed) RecordsTrue (opened heap) events ↔
      Machine.Every (among Event.managed) (fun w event _ => KeepsRecords w event.1) (opened heap) events :=
  always_guarded (fun _ allowed => allowed)
    (fun _ _ _ sound managed holds moves => moves_records sound holds managed moves) nofun events

def createdThenLeft : List Event := [
  .setPlayerManager true,
  .userLogin ⟨.success,1,1,[]⟩,
  .createRoom { ownerId := 1, capacity := 4 } zeros,
  .leaveRoom 1 1]

-- A user who has left still has the room on record.
theorem leaver_keeps_record :
    ¬ Machine.Always (among Event.managed) RecordsTrue (opened noInfos) (only Event.managed createdThenLeft) := by
  intro always
  have seen : ((Machine.run (among Event.managed) (opened noInfos) (only Event.managed createdThenLeft)).bind fun w =>
      (w.getRoom 1).map fun room => (w.recorded 1,room.memberIds)) = some (some 1,[]) := by decide +kernel
  obtain ⟨w,path,looked⟩ := Option.bind_eq_some_iff.mp seen
  obtain ⟨room,listed,facts⟩ := Option.map_eq_some_iff.mp looked
  obtain ⟨record,ids⟩ := Prod.mk.inj facts
  obtain ⟨other,found,member⟩ := always (only Event.managed createdThenLeft) [] w (List.append_nil _).symm path
    1 1 record (by decide)
  cases listed.symm.trans found
  rw [ids] at member
  cases member

end GameServer.Lobby
