import GameServer.LobbySteps

namespace GameServer.Lobby
open Foundation

def OneRoom (w : Lobby) : Prop := ∀ roomId other room another id, w.getRoom roomId = some room →
  w.getRoom other = some another → id ∈ room.memberIds → id ∈ another.memberIds → roomId = other

def AbsentElsewhere (w : Lobby) (roomId : RoomId) (id : UserId) : Prop :=
  ∀ other room, w.getRoom other = some room → other ≠ roomId → id ∉ room.memberIds

-- Whoever a creation or a join puts into a room is a member of no other listed room.
structure JoinsAlone (w : Lobby) (event : Event) : Prop where
  creates : ∀ roomInfo dist, event = .createRoom roomInfo dist → w.Registers roomInfo →
    w.AbsentElsewhere w.manager.nextRoomId roomInfo.ownerId
  joins : ∀ roomId player room, w.call event = some (roomId,.joinRoom (some player)) → w.getRoom roomId = some room →
    room.Admits player → w.AbsentElsewhere roomId player.userId

section Alone
variable {w next : Lobby} {event : Event}

theorem replaced_oneRoom (holds : w.OneRoom) {roomId : RoomId} {changed : GameRoom}
    (rooms : ∀ other, next.getRoom other = if other = roomId then some changed else w.getRoom other) :
    next.OneRoom ↔ ∀ id ∈ changed.memberIds, w.AbsentElsewhere roomId id := by
  have here : next.getRoom roomId = some changed := (rooms roomId).trans (if_pos rfl)
  refine ⟨?_,?_⟩
  · intro after id member other room found different inside
    have there : next.getRoom other = some room := (rooms other).trans ((if_neg different).trans found)
    exact different (after other roomId room changed id there here inside member)
  · intro absent one other room another id found known first second
    rw [rooms] at found known
    split at found <;> split at known
    · rename_i same also; exact same.trans also.symm
    · rename_i _ different
      cases found
      exact (absent id first other another known different second).elim
    · rename_i different _
      cases known
      exact (absent id second one room found different first).elim
    · exact holds one other room another id found known first second

theorem removed_oneRoom (holds : w.OneRoom) (fewer : ∀ other room, next.getRoom other = some room → w.getRoom other = some room) :
    next.OneRoom :=
  fun one other room another id found known => holds one other room another id (fewer one room found) (fewer other another known)

theorem moves_oneRoom (sound : w.Sound) (holds : w.OneRoom) (managed : event.managed = true) (moves : Moves w event next) :
    next.OneRoom ↔ JoinsAlone w event := by
  cases moves with
  | @calls roomId op room changed result asked called =>
    have creates := (call_else asked).1
    have ids := GameRoom.perform_roster called.performed
    have settled : ∀ id ∈ room.memberIds, w.AbsentElsewhere roomId id :=
      fun id member other another found different inside =>
        different (holds other roomId another room id found called.found inside member)
    rw [replaced_oneRoom holds called.rooms,ids]
    by_cases admission : ∃ player, op = .joinRoom (some player) ∧ room.Admits player
    · obtain ⟨player,rfl,admits⟩ := admission
      rw [GameRoom.roster_joinRoom,if_pos admits]
      refine ⟨?_,?_⟩
      · intro absent
        refine ⟨fun roomInfo dist creation => (creates roomInfo dist creation).elim,?_⟩
        intro _ _ _ again _ _
        cases asked.symm.trans again
        exact absent player.userId (List.mem_append_right _ (List.mem_singleton_self _))
      · intro alone id member
        rcases List.mem_append.mp member with old | new
        · exact settled id old
        · rw [List.mem_singleton.mp new]
          exact alone.joins roomId player room asked called.found admits
    · have turned : ∀ player, op = .joinRoom (some player) → ¬ room.Admits player :=
        fun player same admits => admission ⟨player,same,admits⟩
      refine iff_of_true (fun id member => settled id (GameRoom.roster_subset turned member)) ⟨?_,?_⟩
      · exact fun roomInfo dist creation => (creates roomInfo dist creation).elim
      · intro _ player another again found admits
        cases asked.symm.trans again
        cases called.found.symm.trans found
        exact (turned player rfl admits).elim
  | @enters roomInfo dist player creation registers owner rooms heap players =>
    subst creation
    have ids : ((w.newRoom roomInfo dist).seat player).memberIds = [roomInfo.ownerId] := newRoom_ids sound.registry owner
    rw [replaced_oneRoom holds rooms,ids]
    refine ⟨?_,?_⟩
    · intro absent
      refine ⟨?_,nofun⟩
      intro _ _ same _
      cases same
      exact absent _ (List.mem_singleton_self _)
    · intro alone id member
      rw [List.mem_singleton.mp member]
      exact alone.creates roomInfo dist rfl registers
  | @bars roomInfo dist player creation barred owner rooms heap players =>
    subst creation
    refine iff_of_true (removed_oneRoom holds fun other room found => (rooms other).symm.trans found) ⟨?_,nofun⟩
    intro _ _ same registers
    cases same
    exact absurd barred.room (Nat.ne_of_gt registers.room)
  | @dissolves roomId playerId room dissolution found owner rooms heap players =>
    subst dissolution
    refine iff_of_true (removed_oneRoom holds ?_) ⟨nofun,nofun⟩
    intro other another listed
    rw [rooms] at listed
    split at listed
    · cases listed
    · exact listed
  | rests idle =>
    refine iff_of_true (removed_oneRoom holds fun other room found => (idle.rooms other).symm.trans found) ⟨?_,?_⟩
    · exact fun roomInfo dist creation registers => ((idle.creates roomInfo dist creation).1 registers).elim
    · intro roomId player room asked found
      cases (idle.asks roomId _ asked).symm.trans found

end Alone

-- Over whole runs: nobody is ever in two rooms exactly as long as everyone who is
-- put into one is in no other.
theorem one_room_exact (heap : Heap) (events : List { event : Event // event.managed = true }) :
    Machine.Always (among Event.managed) OneRoom (opened heap) events ↔
      Machine.Every (among Event.managed) (fun w event _ => JoinsAlone w event.1) (opened heap) events :=
  always_guarded (fun _ allowed => allowed)
    (fun _ _ _ sound managed holds moves => moves_oneRoom sound holds managed moves) nofun events

def twoRooms : List Event := [
  .setPlayerManager true,
  .userLogin ⟨.success,1,1,[]⟩,
  .createRoom { ownerId := 1, capacity := 4 } zeros,
  .createRoom { ownerId := 1, capacity := 4 } ones]

-- One user creates two rooms and is in both.
theorem creator_in_two_rooms :
    ¬ Machine.Always (among Event.managed) OneRoom (opened noInfos) (only Event.managed twoRooms) := by
  intro always
  have seen : ((Machine.run (among Event.managed) (opened noInfos) (only Event.managed twoRooms)).bind fun w =>
      (w.getRoom 1).bind fun room => (w.getRoom 2).map fun another => (room.memberIds,another.memberIds)) = some ([1],[1]) := by
    decide +kernel
  obtain ⟨w,path,looked⟩ := Option.bind_eq_some_iff.mp seen
  obtain ⟨room,listed,looked⟩ := Option.bind_eq_some_iff.mp looked
  obtain ⟨another,known,ids⟩ := Option.map_eq_some_iff.mp looked
  obtain ⟨first,second⟩ := Prod.mk.inj ids
  have same : (1 : RoomId) = 2 := always (only Event.managed twoRooms) [] w (List.append_nil _).symm path
    1 2 room another 1 listed known (by rw [first]; exact List.mem_singleton_self _)
    (by rw [second]; exact List.mem_singleton_self _)
  exact absurd same (by decide)

end GameServer.Lobby
