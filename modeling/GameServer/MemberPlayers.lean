import GameServer.RoomRoster
import GameServer.LobbySteps

namespace GameServer.Lobby
open Foundation

-- Every member of a listed room is the player the manager holds under its id,
-- the object included.
def MembersHeld (w : Lobby) : Prop := ∀ roomId room, w.getRoom roomId = some room →
  ∀ player ∈ room.group.members, w.getPlayer player.userId = some player

-- Nobody logs out while a member of a listed room.
def LogsOutAlone (w : Lobby) (event : Event) : Prop := ∀ info, event = .userLogout info →
  ∀ roomId room, w.getRoom roomId = some room → info.userId ∉ room.memberIds

section Members
variable {w next : Lobby} {event : Event}

theorem step_players (managed : event.managed = true) (login : ∀ info, event ≠ .userLogin info)
    (logout : ∀ info, event ≠ .userLogout info) (stepped : step w event = some next) :
    next.playerManager = w.playerManager := by
  cases step_stepped stepped with
  | createRoom => exact (createRoom_players _ _).1
  | dissolveRoom => exact (dissolveRoom_players _ _).1
  | joinRoom answered => exact (joinRoom_players answered).1
  | calls asked answered => exact (withRoom_players answered).1
  | @userLogin info => exact absurd rfl (login info)
  | @userLogout info => exact absurd rfl (logout info)
  | setPlayerRoom => cases managed
  | setPlayerManager => rfl

theorem called_members {room changed : GameRoom} {heap after : Heap} {op : GameRoom.Op}
    {result : Except Thrown RoomReqResult} (performed : room.perform heap op = some (result,changed,after))
    {player : GamePlayer} (member : player ∈ changed.group.members) :
    player ∈ room.group.members ∨ op = .joinRoom (some player) := by
  by_cases joins : ∃ known, op = .joinRoom (some known)
  · obtain ⟨known,rfl⟩ := joins
    cases performed
    have joining := GameRoom.joinRoom_cases room heap known
    generalize room.joinRoom heap (some known) = joined at joining member
    cases joining with
    | turned closed refused => exact Or.inl member
    | present receives known => exact Or.inl member
    | crowded receives fresh full => exact Or.inl member
    | admitted admits =>
      rcases List.mem_append.mp member with old | new
      · exact Or.inl old
      · rw [List.mem_singleton.mp new]
        exact Or.inr rfl
  · have ids := GameRoom.perform_roster performed
    have turned : ∀ known, op = .joinRoom (some known) → ¬ room.Admits known :=
      fun known same => absurd ⟨known,same⟩ joins
    cases GameRoom.perform_change performed with
    | kept _ _ fewer => exact Or.inl (fewer.subset member)
    | @joined known _ _ _ fresh members =>
      have inside : known.userId ∈ changed.memberIds := by
        rw [GameRoom.memberIds,members]
        simp
      rw [ids] at inside
      exact absurd (GameRoom.roster_subset turned inside) fresh

theorem moves_held (registry : w.Registry) (managed : event.managed = true) (players : next.playerManager = w.playerManager)
    (holds : w.MembersHeld) (moves : Moves w event next) : next.MembersHeld := by
  intro other room found player member
  rw [getPlayer_congr players]
  cases moves with
  | @calls roomId op old changed result asked called =>
    rw [called.rooms] at found
    split at found
    · cases found
      rcases called_members called.performed member with before | joins
      · exact holds roomId old called.found player before
      · subst joins
        obtain ⟨id,known,same,listed⟩ := call_joins managed asked
        cases same
        rwa [registry.named id player listed]
    · exact holds other room found player member
  | @enters roomInfo dist entering creation registers owner rooms heap players =>
    rw [rooms] at found
    split at found
    · cases found
      have alone : ((w.newRoom roomInfo dist).seat entering).group.members = [entering] := rfl
      rw [alone] at member
      rw [List.mem_singleton.mp member]
      rwa [registry.named _ entering owner]
    · exact holds other room found player member
  | bars creation barred owner rooms heap players =>
    rw [rooms] at found
    exact holds other room found player member
  | dissolves dissolution listed owner rooms heap players =>
    rw [rooms] at found
    split at found
    · cases found
    · exact holds other room found player member
  | rests idle =>
    rw [idle.rooms] at found
    exact holds other room found player member

theorem login_getPlayer (info : UserLoginInfo) {id : UserId} {player : GamePlayer} (found : w.getPlayer id = some player) :
    (w.onUserLogin info).getPlayer id = some player := by
  unfold onUserLogin
  split
  · exact found
  · cases known : w.getPlayer info.userId with
    | some other => rw [createPlayer_known known]; exact found
    | none =>
      have listed := createPlayer_getPlayer info.userId id known
      have different : id ≠ info.userId := by
        intro same
        rw [same,known] at found
        cases found
      rw [if_neg different] at listed
      exact listed.trans found

theorem logout_getPlayer (info : UserLoginInfo) (real : info.userId ≠ 0) (id : UserId) :
    (w.onUserLogout info).getPlayer id = if id = info.userId then none else w.getPlayer id := by
  obtain ⟨heap,_,shape⟩ := userLogout_shape (w := w) info real
  rw [shape]
  exact UnorderedMap.lookup_erase_eq _ _ _

theorem login_held (info : UserLoginInfo) (holds : w.MembersHeld) : (w.onUserLogin info).MembersHeld := by
  intro roomId room found player member
  rw [getRoom,userLogin_manager] at found
  exact login_getPlayer info (holds roomId room found player member)

theorem logout_held (sound : w.Sound) (info : UserLoginInfo) (holds : w.MembersHeld) :
    (w.onUserLogout info).MembersHeld ↔ LogsOutAlone w (.userLogout info) := by
  have rooms (roomId : RoomId) : (w.onUserLogout info).getRoom roomId = w.getRoom roomId := by
    rw [getRoom,userLogout_manager,getRoom]
  by_cases real : info.userId = 0
  · have idle : w.onUserLogout info = w := if_pos real
    refine iff_of_true (idle.symm ▸ holds) ?_
    intro _ same roomId room found member
    cases same
    exact (sound.seated roomId room found).real (real ▸ member)
  · refine ⟨?_,?_⟩
    · intro after _ same roomId room found member
      cases same
      obtain ⟨player,inside,name⟩ := List.mem_map.mp member
      have gone := after roomId room ((rooms roomId).trans found) player inside
      rw [logout_getPlayer info real,if_pos name] at gone
      cases gone
    · intro alone roomId room found player member
      rw [rooms] at found
      have other : player.userId ≠ info.userId := by
        intro same
        exact alone info rfl roomId room found (same ▸ List.mem_map_of_mem member)
      rw [logout_getPlayer info real,if_neg other]
      exact holds roomId room found player member

theorem step_held (sound : w.Sound) (holds : w.MembersHeld) (managed : event.managed = true)
    (stepped : step w event = some next) : next.MembersHeld ↔ LogsOutAlone w event := by
  by_cases login : ∃ info, event = .userLogin info
  · obtain ⟨info,rfl⟩ := login
    cases stepped
    exact iff_of_true (login_held info holds) nofun
  by_cases logout : ∃ info, event = .userLogout info
  · obtain ⟨info,rfl⟩ := logout
    cases stepped
    exact logout_held sound info holds
  have players := step_players managed (fun info same => login ⟨info,same⟩) (fun info same => logout ⟨info,same⟩) stepped
  have moves := step_moves sound.registry managed stepped
  exact iff_of_true (moves_held sound.registry managed players holds moves)
    (fun info same => absurd ⟨info,same⟩ logout)

end Members

-- Over whole runs: the members of the rooms are the registered players exactly
-- as long as nobody logs out who is in a room.
theorem members_held_exact (heap : Heap) (events : List { event : Event // event.managed = true }) :
    Machine.Always (among Event.managed) MembersHeld (opened heap) events ↔
      Machine.Every (among Event.managed) (fun w event _ => LogsOutAlone w event.1) (opened heap) events := by
  have kept : ∀ w (event : { event : Event // event.managed = true }) next, Sound w → w.MembersHeld →
      among Event.managed w event = some next → next.MembersHeld → Sound next :=
    fun w event next sound _ stepped _ => moves_sound sound (step_registry sound.registry event.2 stepped)
      (step_moves sound.registry event.2 stepped)
  have exact_at : ∀ w (event : { event : Event // event.managed = true }) next, Sound w → w.MembersHeld →
      among Event.managed w event = some next → (next.MembersHeld ↔ LogsOutAlone w event.1) :=
    fun w event next sound holds stepped => step_held sound holds event.2 stepped
  exact Machine.always_iff_guarded kept exact_at (opened_sound heap) nofun

def comesBack : List Event := [
  .setPlayerManager true,
  .userLogin ⟨.success,1,1,[]⟩,
  .createRoom { ownerId := 1, capacity := 4 } zeros,
  .userLogout ⟨.success,1,1,[]⟩,
  .userLogin ⟨.success,1,1,[]⟩]

-- The host logs out and in again: the room's player 1 is the first object, the
-- manager's the second.
theorem host_comes_back_another :
    ¬ Machine.Always (among Event.managed) MembersHeld (opened noInfos) (only Event.managed comesBack) := by
  intro always
  have seen : ((Machine.run (among Event.managed) (opened noInfos) (only Event.managed comesBack)).bind fun w =>
      (w.getRoom 1).map fun room => (room.group.members,w.getPlayer 1)) = some ([⟨0,1⟩],some ⟨1,1⟩) := by
    decide +kernel
  obtain ⟨w,path,looked⟩ := Option.bind_eq_some_iff.mp seen
  obtain ⟨room,listed,facts⟩ := Option.map_eq_some_iff.mp looked
  obtain ⟨members,player⟩ := Prod.mk.inj facts
  have held := always (only Event.managed comesBack) [] w (List.append_nil _).symm path 1 room listed ⟨0,1⟩
    (by rw [members]; exact List.mem_singleton_self _)
  cases held.symm.trans player

end GameServer.Lobby
