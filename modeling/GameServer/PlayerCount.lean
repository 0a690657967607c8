import GameServer.LobbySteps

namespace GameServer.GameRoom
open Foundation

-- The counter a room keeps in its info agrees with the members its group holds.
def Counted (room : GameRoom) : Prop := room.info.playerCount.toNat = room.group.getMemberCount

-- A leave that succeeds takes one from a counter that has one.
def CountsDown (s : GameRoom × Heap) (op : Op) (_ : GameRoom × Heap) : Prop :=
  ∀ playerId, op = .leaveRoom playerId → (s.1.leaveRoom playerId).1 = .ok → s.1.info.playerCount ≠ 0

-- The two operations that remove members past the counter find none to remove.
structure KeepsCount (s : GameRoom × Heap) (op : Op) (_ : GameRoom × Heap) : Prop where
  kicks : ∀ playerId targetId, op = .kickPlayer playerId targetId → s.1.Expels playerId targetId → targetId ∉ s.1.memberIds
  dissolves : ∀ playerId, op = .dissolveRoom playerId → playerId = s.1.info.ownerId → s.1.memberIds = []

def tally (room : GameRoom) : Op → UInt64
  | .joinRoom (some player) => if room.Admits player then room.info.playerCount + 1 else room.info.playerCount
  | .leaveRoom playerId => if playerId ∈ room.memberIds then room.info.playerCount - 1 else room.info.playerCount
  | _ => room.info.playerCount

section Counting
variable {room next : GameRoom} {heap after : Heap}

theorem counted_ids : room.Counted ↔ room.info.playerCount.toNat = room.memberIds.length := by
  rw [Counted,Group.getMemberCount,memberIds,List.length_map]

theorem leaveRoom_ok {playerId : UserId} : (room.leaveRoom playerId).1 = .ok ↔ playerId ∈ room.memberIds := by
  unfold leaveRoom Group.removeMember
  rw [← contains_member]
  split
  · rename_i member
    exact iff_of_true rfl member
  · rename_i absent
    exact iff_of_false (fun ok => by cases ok) absent

theorem perform_count {op : Op} {result : Except Thrown RoomReqResult}
    (performed : room.perform heap op = some (result,next,after)) : next.info.playerCount = room.tally op := by
  cases perform_cases performed with
  | @refused _ _ refusal turned stays =>
    cases op with
    | joinRoom player =>
      cases player with
      | none => rfl
      | some player => exact (if_neg fun admits => turned player rfl admits.1).symm
    | leaveRoom playerId => exact (if_neg (List.erase_eq_self_iff.mp stays)).symm
    | _ => rfl
  | marked refusal receives turned => exact (if_neg turned).symm
  | admitted admits => exact (if_pos admits).symm
  | left member => exact (if_pos member).symm
  | started info group ticking => rw [info]; rfl
  | thrown info group ticking => rw [info]; rfl
  | played => exact (endings_kept _ _).2.2
  | _ => rfl

-- There are no more members than there are ids, far fewer than the counter can hold.
theorem seated_length (seated : room.Seated) : room.memberIds.length ≤ 2 ^ 32 := by
  have distinct : (room.memberIds.map UInt32.toNat).Nodup := List.Nodup.map (fun _ _ => UInt32.toNat.inj) seated.keyed
  have inside : room.memberIds.map UInt32.toNat ⊆ List.range (2 ^ 32) := by
    intro number member
    obtain ⟨id,-,rfl⟩ := List.mem_map.mp member
    exact List.mem_range.mpr id.toNat_lt
  have few := (List.subperm_of_subset distinct inside).length_le
  rwa [List.length_map,List.length_range] at few

theorem erase_counted {id : UserId} (counted : room.info.playerCount.toNat = room.memberIds.length) :
    room.info.playerCount.toNat = (room.memberIds.erase id).length ↔ id ∉ room.memberIds := by
  refine ⟨?_,?_⟩
  · intro same member
    have shorter := List.length_erase_add_one member
    omega
  · intro absent
    rw [List.erase_of_not_mem absent,counted]

theorem counted_after {op : Op} {result : Except Thrown RoomReqResult} (seated : room.Seated) (counted : room.Counted)
    (performed : room.perform heap op = some (result,next,after)) :
    next.Counted ↔ KeepsCount (room,heap) op (next,after) := by
  have few := seated_length seated
  rw [counted_ids] at counted ⊢
  rw [perform_count performed,perform_roster performed]
  cases op with
  | joinRoom player =>
    refine iff_of_true ?_ ⟨nofun,nofun⟩
    cases player with
    | none => exact counted
    | some player =>
      rw [roster_joinRoom]
      dsimp only [tally]
      split
      · rw [List.length_append,List.length_singleton,UInt64.toNat_add,UInt64.toNat_one,counted]
        exact Nat.mod_eq_of_lt (by omega)
      · exact counted
  | leaveRoom playerId =>
    refine iff_of_true ?_ ⟨nofun,nofun⟩
    rw [roster_leaveRoom]
    dsimp only [tally]
    split
    · rename_i member
      have shorter := List.length_erase_add_one member
      have one : (1 : UInt64) ≤ room.info.playerCount := by
        rw [UInt64.le_iff_toNat_le,UInt64.toNat_one]
        omega
      rw [UInt64.toNat_sub_of_le _ _ one,UInt64.toNat_one]
      omega
    · rename_i absent
      exact (erase_counted counted).mpr absent
  | kickPlayer playerId targetId =>
    rw [roster_kickPlayer]
    dsimp only [tally]
    refine ⟨?_,?_⟩
    · intro same
      refine ⟨?_,nofun⟩
      rintro _ _ ⟨⟩ expels
      rw [if_pos expels] at same
      exact (erase_counted counted).mp same
    · intro keeps
      split
      · rename_i expels
        exact (erase_counted counted).mpr (keeps.kicks playerId targetId rfl expels)
      · exact counted
  | dissolveRoom playerId =>
    rw [roster_dissolveRoom]
    dsimp only [tally]
    refine ⟨?_,?_⟩
    · intro same
      refine ⟨nofun,?_⟩
      rintro _ ⟨⟩ owner
      rw [if_pos owner,counted] at same
      exact List.eq_nil_of_length_eq_zero same
    · intro keeps
      split
      · rename_i owner
        rw [counted,keeps.dissolves playerId rfl owner]
      · exact counted
  | _ => exact iff_of_true counted ⟨nofun,nofun⟩

theorem counted_down {op : Op} (counted : room.Counted) : CountsDown (room,heap) op (next,after) := by
  rintro playerId rfl ok none_
  have member := leaveRoom_ok.mp ok
  rw [counted_ids] at counted
  dsimp only at none_
  rw [none_,UInt64.toNat_zero] at counted
  exact absurd counted.symm (List.ne_nil_of_mem member ∘ List.eq_nil_of_length_eq_zero)

end Counting

-- Over every run from a room that starts with no player counted.
theorem player_count_exact (info : GameRoomInfo) (uncounted : info.playerCount = 0) (heap : Heap) (ops : List Op) :
    (Machine.Always step (fun s => s.1.Counted) (create info,heap) ops ∧ Machine.Every step CountsDown (create info,heap) ops) ↔
      Machine.Every step KeepsCount (create info,heap) ops := by
  have start : (create info).Counted := by
    unfold Counted create
    rw [uncounted]
    rfl
  have kept : ∀ s op next, s.1.Seated → s.1.Counted → step s op = some next → next.1.Counted → next.1.Seated :=
    fun _ _ _ seated _ stepped _ => step_seated seated stepped
  have exact_at : ∀ s op next, s.1.Seated → s.1.Counted → step s op = some next → (next.1.Counted ↔ KeepsCount s op next) := by
    intro s op next seated counted stepped
    obtain ⟨⟨result,next⟩,performed,rfl⟩ := Option.map_eq_some_iff.mp stepped
    exact counted_after seated counted performed
  have guarded : Machine.Always step (fun s => s.1.Counted) (create info,heap) ops ↔
      Machine.Every step KeepsCount (create info,heap) ops :=
    Machine.always_iff_guarded kept exact_at (create_seated info) start
  rw [← guarded]
  refine ⟨And.left,fun always => ⟨always,?_⟩⟩
  rw [Machine.every_iff]
  intro earlier op later reached next split path _
  exact counted_down (always earlier (op :: later) reached split path)

def joinedTwo : List Op := [.joinRoom (some ⟨0,1⟩),.joinRoom (some ⟨1,2⟩)]

def pairInfo : GameRoomInfo := { ownerId := 1, capacity := 4 }

theorem counts_two : (Machine.Always step (fun s => s.1.Counted) (create pairInfo,Lobby.noInfos) joinedTwo ∧
    Machine.Every step CountsDown (create pairInfo,Lobby.noInfos) joinedTwo) ↔
      Machine.Every step KeepsCount (create pairInfo,Lobby.noInfos) joinedTwo :=
  player_count_exact pairInfo rfl Lobby.noInfos joinedTwo

-- The owner kicks the other member and the counter still says two.
theorem kick_uncounted : ¬ (Machine.Always step (fun s => s.1.Counted) (create pairInfo,Lobby.noInfos)
      (joinedTwo ++ [.kickPlayer 1 2]) ∧
    Machine.Every step CountsDown (create pairInfo,Lobby.noInfos) (joinedTwo ++ [.kickPlayer 1 2])) := by
  rintro ⟨always,-⟩
  have seen : (Machine.run step (create pairInfo,Lobby.noInfos) (joinedTwo ++ [.kickPlayer 1 2])).map
      (fun s => (s.1.info.playerCount.toNat,s.1.group.getMemberCount)) = some (2,1) := by decide +kernel
  obtain ⟨s,path,counts⟩ := Option.map_eq_some_iff.mp seen
  have counted := always _ [] s (List.append_nil _).symm path
  obtain ⟨count,members⟩ := Prod.mk.inj counts
  exact absurd (count.symm.trans (counted.trans members)) (by decide)

end GameServer.GameRoom
