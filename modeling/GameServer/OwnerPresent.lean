import GameServer.LobbySteps

namespace GameServer.Lobby
open Foundation

def OwnerPresent (w : Lobby) : Prop := ∀ roomId room, w.getRoom roomId = some room → room.info.ownerId ∈ room.memberIds

def OwnerStays (w : Lobby) (event : Event) : Prop := ∀ roomId playerId room,
  w.call event = some (roomId,.leaveRoom playerId) → w.getRoom roomId = some room → playerId ≠ room.info.ownerId

section Owners
variable {w next : Lobby} {event : Event} {roomId : RoomId} {room changed : GameRoom}

theorem replaced_owner (holds : w.OwnerPresent)
    (rooms : ∀ other, next.getRoom other = if other = roomId then some changed else w.getRoom other) :
    next.OwnerPresent ↔ changed.info.ownerId ∈ changed.memberIds := by
  refine ⟨?_,?_⟩
  · intro after
    exact after roomId changed ((rooms roomId).trans (if_pos rfl))
  · intro present other another found
    rw [rooms] at found
    split at found
    · cases found; exact present
    · exact holds other another found

theorem fewer_owner (holds : w.OwnerPresent) (fewer : ∀ other room, next.getRoom other = some room → w.getRoom other = some room) :
    next.OwnerPresent := fun other room found => holds other room (fewer other room found)

theorem roster_owner {op : GameRoom.Op} (seated : room.Seated) (present : room.info.ownerId ∈ room.memberIds)
    (listed : ∀ playerId, op ≠ .dissolveRoom playerId) :
    room.info.ownerId ∈ room.roster op ↔ ∀ playerId, op = .leaveRoom playerId → playerId ≠ room.info.ownerId := by
  have distinct : room.memberIds.Nodup := seated.keyed
  cases op with
  | joinRoom player =>
    refine iff_of_true ?_ nofun
    cases player with
    | none => exact present
    | some player =>
      rw [GameRoom.roster_joinRoom]
      split
      · exact List.mem_append_left _ present
      · exact present
  | leaveRoom playerId =>
    rw [GameRoom.roster_leaveRoom,distinct.mem_erase_iff,and_iff_left present]
    refine ⟨?_,?_⟩
    · intro stays _ same leaver
      cases same
      exact stays leaver.symm
    · intro stays leaver
      exact stays playerId rfl leaver.symm
  | kickPlayer playerId targetId =>
    refine iff_of_true ?_ nofun
    rw [GameRoom.roster_kickPlayer]
    split
    · rename_i expels
      obtain ⟨owner,-,other⟩ := expels
      exact distinct.mem_erase_iff.mpr ⟨fun same => other (same.symm.trans owner.symm),present⟩
    · exact present
  | dissolveRoom playerId => exact (listed playerId rfl).elim
  | _ => exact iff_of_true present nofun

theorem moves_owner (sound : w.Sound) (holds : w.OwnerPresent) (managed : event.managed = true) (moves : Moves w event next) :
    next.OwnerPresent ↔ OwnerStays w event := by
  cases moves with
  | @calls roomId op room changed result asked called =>
    have listed : ∀ playerId, op ≠ .dissolveRoom playerId := by
      rintro playerId rfl
      exact call_dissolves managed asked
    rw [replaced_owner holds called.rooms,GameRoom.perform_owner called.performed,GameRoom.perform_roster called.performed,
      roster_owner (sound.seated roomId room called.found) (holds roomId room called.found) listed]
    refine ⟨?_,?_⟩
    · intro stays _ playerId _ again found
      cases asked.symm.trans again
      cases called.found.symm.trans found
      exact stays playerId rfl
    · intro stays playerId same
      subst same
      exact stays roomId playerId room asked called.found
  | @enters roomInfo dist player creation registers owner rooms heap players =>
    subst creation
    have ids : ((w.newRoom roomInfo dist).seat player).memberIds = [roomInfo.ownerId] := newRoom_ids sound.registry owner
    refine iff_of_true ((replaced_owner holds rooms).mpr ?_) nofun
    rw [ids]
    exact List.mem_singleton_self _
  | bars creation barred owner rooms heap players =>
    subst creation
    exact iff_of_true (fewer_owner holds fun other room found => (rooms other).symm.trans found) nofun
  | dissolves dissolution found owner rooms heap players =>
    subst dissolution
    refine iff_of_true (fewer_owner holds ?_) nofun
    intro other another listed
    rw [rooms] at listed
    split at listed
    · cases listed
    · exact listed
  | rests idle =>
    refine iff_of_true (fewer_owner holds fun other room found => (idle.rooms other).symm.trans found) ?_
    intro roomId playerId room asked found
    cases (idle.asks roomId _ asked).symm.trans found

end Owners

-- Over whole runs: every listed room has its owner among its members exactly as
-- long as no owner leaves.
theorem owner_present_exact (heap : Heap) (events : List { event : Event // event.managed = true }) :
    Machine.Always (among Event.managed) OwnerPresent (opened heap) events ↔
      Machine.Every (among Event.managed) (fun w event _ => OwnerStays w event.1) (opened heap) events :=
  always_guarded (fun _ allowed => allowed)
    (fun _ _ _ sound managed holds moves => moves_owner sound holds managed moves) nofun events

def ownerGoes : List Event := [
  .setPlayerManager true,
  .userLogin ⟨.success,1,1,[]⟩,
  .userLogin ⟨.success,2,2,[]⟩,
  .createRoom { ownerId := 1, capacity := 4 } zeros,
  .joinRoom 1 2,
  .leaveRoom 1 1]

-- The owner leaves and goes on owning the room.
theorem owner_leaves_room :
    ¬ Machine.Always (among Event.managed) OwnerPresent (opened noInfos) (only Event.managed ownerGoes) := by
  intro always
  have seen : ((Machine.run (among Event.managed) (opened noInfos) (only Event.managed ownerGoes)).bind fun w =>
      (w.getRoom 1).map fun room => (room.info.ownerId,room.memberIds)) = some (1,[2]) := by decide +kernel
  obtain ⟨w,path,looked⟩ := Option.bind_eq_some_iff.mp seen
  obtain ⟨room,listed,facts⟩ := Option.map_eq_some_iff.mp looked
  obtain ⟨owner,ids⟩ := Prod.mk.inj facts
  have present := always (only Event.managed ownerGoes) [] w (List.append_nil _).symm path 1 room listed
  rw [owner,ids] at present
  exact absurd present (by decide)

end GameServer.Lobby
