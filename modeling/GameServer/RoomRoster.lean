import GameServer.MatchPlayers

namespace GameServer.GameRoom
open Foundation

-- JoinRoom comes to write the room's id into the player, before it asks the group.
def Receives (room : GameRoom) (player : GamePlayer) : Prop := room.isRunning = false ∧ player.userId ≠ 0

def Admits (room : GameRoom) (player : GamePlayer) : Prop :=
  room.Receives player ∧ player.userId ∉ room.memberIds ∧ room.group.members.length < room.group.capacity

def Expels (room : GameRoom) (playerId targetId : UserId) : Prop :=
  playerId = room.info.ownerId ∧ room.isRunning = false ∧ targetId ≠ playerId

instance (room : GameRoom) (player : GamePlayer) : Decidable (room.Receives player) := inferInstanceAs (Decidable (_ ∧ _))

instance (room : GameRoom) (player : GamePlayer) : Decidable (room.Admits player) := inferInstanceAs (Decidable (_ ∧ _))

instance (room : GameRoom) (playerId targetId : UserId) : Decidable (room.Expels playerId targetId) :=
  inferInstanceAs (Decidable (_ ∧ _))

def seat (room : GameRoom) (player : GamePlayer) : GameRoom := { room with
  info := { room.info with playerCount := room.info.playerCount + 1 }
  group := { room.group with members := room.group.members ++ [player] } }

-- The four ways JoinRoom ends for a player that exists.
inductive Joining (room : GameRoom) (heap : Heap) (player : GamePlayer) : RoomReqResult × GameRoom × Heap → Prop where
  | turned {result : RoomReqResult} (closed : ¬ room.Receives player) (refused : result ≠ .ok) :
      Joining room heap player (result,room,heap)
  | present (receives : room.Receives player) (member : player.userId ∈ room.memberIds) :
      Joining room heap player (.alreadyInRoom,room,player.enterRoom heap room.info.roomId)
  | crowded (receives : room.Receives player) (fresh : player.userId ∉ room.memberIds)
      (full : room.group.capacity ≤ room.group.members.length) :
      Joining room heap player (.full,room,player.enterRoom heap room.info.roomId)
  | admitted (admits : room.Admits player) :
      Joining room heap player (.ok,room.seat player,player.enterRoom heap room.info.roomId)

section Rosters
variable {room next : GameRoom} {heap after : Heap}

theorem contains_member {id : UserId} : room.group.contains GamePlayer.userId id = true ↔ id ∈ room.memberIds :=
  Group.contains_iff

theorem joinRoom_cases (room : GameRoom) (heap : Heap) (player : GamePlayer) :
    Joining room heap player (room.joinRoom heap (some player)) := by
  unfold joinRoom
  split
  · rename_i running
    exact .turned (fun receives => by simp [receives.1] at running) (by decide)
  · rename_i lobby
    dsimp only
    split
    · rename_i invalid
      exact .turned (fun receives => receives.2 invalid) (by decide)
    · rename_i valid
      have receives : room.Receives player := ⟨by simpa using lobby,valid⟩
      unfold Group.addMember
      by_cases member : player.userId ∈ room.memberIds
      · rw [if_pos (contains_member.mpr member)]
        exact .present receives member
      · rw [if_neg (fun held => member (contains_member.mp held))]
        by_cases full : room.group.members.length ≥ room.group.capacity
        · rw [if_pos full]
          exact .crowded receives member full
        · rw [if_neg full]
          exact .admitted ⟨receives,member,Nat.lt_of_not_le full⟩

theorem joinRoom_ok {player : GamePlayer} : (room.joinRoom heap (some player)).1 = .ok ↔ room.Admits player := by
  have cases_ := joinRoom_cases room heap player
  generalize room.joinRoom heap (some player) = out at cases_
  cases cases_ with
  | turned closed refused => exact iff_of_false refused (fun admits => closed admits.1)
  | present receives member => exact iff_of_false nofun (fun admits => admits.2.1 member)
  | crowded receives fresh full => exact iff_of_false nofun (fun admits => absurd admits.2.2 (Nat.not_lt.mpr full))
  | admitted admits => exact iff_of_true rfl admits

def roster (room : GameRoom) : Op → List UserId
  | .joinRoom (some player) => if room.Admits player then room.memberIds ++ [player.userId] else room.memberIds
  | .leaveRoom playerId => room.memberIds.erase playerId
  | .kickPlayer playerId targetId => if room.Expels playerId targetId then room.memberIds.erase targetId else room.memberIds
  | .dissolveRoom playerId => if playerId = room.info.ownerId then [] else room.memberIds
  | _ => room.memberIds

@[simp] theorem roster_joinRoom (player : GamePlayer) : room.roster (.joinRoom (some player)) =
    if room.Admits player then room.memberIds ++ [player.userId] else room.memberIds := rfl

@[simp] theorem roster_leaveRoom (playerId : UserId) : room.roster (.leaveRoom playerId) = room.memberIds.erase playerId := rfl

@[simp] theorem roster_kickPlayer (playerId targetId : UserId) : room.roster (.kickPlayer playerId targetId) =
    if room.Expels playerId targetId then room.memberIds.erase targetId else room.memberIds := rfl

@[simp] theorem roster_dissolveRoom (playerId : UserId) :
    room.roster (.dissolveRoom playerId) = if playerId = room.info.ownerId then [] else room.memberIds := rfl

theorem removeMember_ids (memberKey : UserId) :
    (room.group.removeMember GamePlayer.userId memberKey).2.members.map GamePlayer.userId = room.memberIds.erase memberKey := by
  rw [Group.removeMember_members,memberIds,List.erase_eq_eraseP,List.eraseP_map]
  congr 2
  funext member
  rw [Function.comp_apply,beq_eq_decide,decide_eq_decide]
  exact eq_comm

theorem startTicking_ticking (h : GameCmdHandler) (interval : Nat) : (h.startTicking interval).ticking = true := by
  unfold GameCmdHandler.startTicking
  split
  · assumption
  · rfl

theorem startTicking_runtime (h : GameCmdHandler) (interval : Nat) : (h.startTicking interval).runtime = h.runtime := by
  unfold GameCmdHandler.startTicking
  split <;> rfl

-- What an operation leaves, outcome by outcome. A start that throws has written
-- to the runtime of the handler only.
inductive Performed (room : GameRoom) (heap : Heap) : Op → Except Thrown RoomReqResult → GameRoom → Heap → Prop where
  | refused {op : Op} {result : RoomReqResult} (refusal : result ≠ .ok)
      (turned : ∀ player, op = .joinRoom (some player) → ¬ room.Receives player) (stays : room.roster op = room.memberIds) :
      Performed room heap op (.ok result) room heap
  | marked {player : GamePlayer} {result : RoomReqResult} (refusal : result ≠ .ok) (receives : room.Receives player)
      (turned : ¬ room.Admits player) :
      Performed room heap (.joinRoom (some player)) (.ok result) room (player.enterRoom heap room.info.roomId)
  | admitted {player : GamePlayer} (admits : room.Admits player) :
      Performed room heap (.joinRoom (some player)) (.ok .ok) (room.seat player) (player.enterRoom heap room.info.roomId)
  | left {playerId : UserId} (member : playerId ∈ room.memberIds) : Performed room heap (.leaveRoom playerId) (.ok .ok)
      { room with
        info := { room.info with playerCount := room.info.playerCount - 1 }
        group := (room.group.removeMember GamePlayer.userId playerId).2 } heap
  | readied {playerId : UserId} {ready : Bool} {player : GamePlayer}
      (found : room.group.findMember GamePlayer.userId playerId = some player) :
      Performed room heap (.setReady playerId ready) (.ok .ok) room (player.setReady heap ready)
  | started {loadMapData : StdString → Option MapData} {playerId : UserId} {next : GameRoom}
      (info : next.info = { room.info with state := .running }) (group : next.group = room.group)
      (ticking : next.cmdHandler.ticking = true) : Performed room heap (.startGame loadMapData playerId) (.ok .ok) next heap
  | thrown {loadMapData : StdString → Option MapData} {playerId : UserId} {error : Thrown} {next : GameRoom}
      (info : next.info = room.info) (group : next.group = room.group)
      (ticking : next.cmdHandler.ticking = room.cmdHandler.ticking) :
      Performed room heap (.startGame loadMapData playerId) (.error error) next heap
  | mapped {playerId : UserId} {mapPath : StdString} : Performed room heap (.changeMap playerId mapPath) (.ok .ok)
      { room with info := { room.info with selectedMapPath := mapPath } } heap
  | renamed {playerId : UserId} {newName : StdString} : Performed room heap (.changeRoomName playerId newName) (.ok .ok)
      { room with info := { room.info with roomName := newName } } heap
  | relocked {playerId : UserId} {newPassword : StdString} : Performed room heap (.changePassword playerId newPassword) (.ok .ok)
      { room with info := { room.info with password := newPassword } } heap
  | kicked {playerId targetId : UserId} (expels : room.Expels playerId targetId) :
      Performed room heap (.kickPlayer playerId targetId) (.ok .ok)
        { room with group := (room.group.removeMember GamePlayer.userId targetId).2 } heap
  | resized {playerId : UserId} {newCapacity : Nat} : Performed room heap (.changeCapacity playerId newCapacity) (.ok .ok)
      { room with group := { room.group with capacity := newCapacity } } heap
  | dissolved {playerId : UserId} (owner : playerId = room.info.ownerId) : Performed room heap (.dissolveRoom playerId) (.ok .ok)
      { room with
        info := { room.info with state := .lobby }
        cmdHandler := room.cmdHandler.stopTicking
        group := room.group.clearMembers } heap
  | played {iteration : Iteration} {cmd : BattleCmd} {b : Battle} : Performed room heap (.processCommand iteration cmd) (.ok .ok)
      (b.endings.foldl onGameEnd { room with cmdHandler := { room.cmdHandler with runtime := b.runtime } }) heap
  | misplayed {iteration : Iteration} {cmd : BattleCmd} {error : Thrown} {rt : RuntimeData} :
      Performed room heap (.processCommand iteration cmd) (.error error)
        { room with cmdHandler := { room.cmdHandler with runtime := rt } } heap
  | ticked {deltaMs : UInt64} : Performed room heap (.tick deltaMs) (.ok .ok)
      { room with cmdHandler := room.cmdHandler.tick deltaMs } heap

theorem joinRoom_performed (player : Option GamePlayer) : Performed room heap (.joinRoom player) (.ok (room.joinRoom heap player).1)
    (room.joinRoom heap player).2.1 (room.joinRoom heap player).2.2 := by
  cases player with
  | none =>
    have turned : ∀ player, Op.joinRoom none = .joinRoom (some player) → ¬ room.Receives player := nofun
    unfold joinRoom
    split <;> exact .refused RoomReqResult.noConfusion turned rfl
  | some player =>
    have cases_ := joinRoom_cases room heap player
    generalize room.joinRoom heap (some player) = out at cases_
    cases cases_ with
    | turned closed refused =>
      refine .refused refused ?_ (if_neg fun admits => closed admits.1)
      rintro _ ⟨⟩
      exact closed
    | present receives member => exact .marked RoomReqResult.noConfusion receives fun admits => admits.2.1 member
    | crowded receives fresh full => exact .marked RoomReqResult.noConfusion receives fun admits => Nat.not_lt.mpr full admits.2.2
    | admitted admits => exact .admitted admits

theorem removeMember_cases (room : GameRoom) (memberKey : UserId) :
    (memberKey ∈ room.memberIds ∧ (room.group.removeMember GamePlayer.userId memberKey).1 = .ok) ∨
      (memberKey ∉ room.memberIds ∧ room.group.removeMember GamePlayer.userId memberKey = (.notInGroup,room.group)) := by
  unfold Group.removeMember
  split
  · rename_i held
    exact .inl ⟨contains_member.mp held,rfl⟩
  · rename_i absent
    exact .inr ⟨fun member => absent (contains_member.mpr member),rfl⟩

theorem leaveRoom_performed (playerId : UserId) : Performed room heap (.leaveRoom playerId) (.ok (room.leaveRoom playerId).1)
    (room.leaveRoom playerId).2 heap := by
  unfold leaveRoom
  rcases removeMember_cases room playerId with ⟨member,ok⟩ | ⟨absent,same⟩
  · dsimp only
    rw [ok]
    exact .left member
  · rw [same]
    change Performed room heap _ (.ok .notInRoom) room heap
    exact .refused RoomReqResult.noConfusion nofun (List.erase_of_not_mem absent)

theorem kickPlayer_performed (playerId targetId : UserId) : Performed room heap (.kickPlayer playerId targetId)
    (.ok (room.kickPlayer playerId targetId).1) (room.kickPlayer playerId targetId).2 heap := by
  have roster : room.roster (.kickPlayer playerId targetId) =
      if room.Expels playerId targetId then room.memberIds.erase targetId else room.memberIds := rfl
  have turned : ∀ player, Op.kickPlayer playerId targetId = .joinRoom (some player) → ¬ room.Receives player := by rintro _ ⟨⟩
  unfold kickPlayer
  split
  · rename_i stranger
    exact .refused RoomReqResult.noConfusion turned (roster.trans (if_neg fun expels => stranger expels.1))
  · rename_i owner
    split
    · rename_i running
      exact .refused RoomReqResult.noConfusion turned (roster.trans (if_neg fun expels => by simp [expels.2.1] at running))
    · rename_i lobby
      split
      · rename_i self
        exact .refused RoomReqResult.noConfusion turned (roster.trans (if_neg fun expels => expels.2.2 self))
      · rename_i other
        have expels : room.Expels playerId targetId := ⟨not_not.mp owner,by simpa using lobby,other⟩
        rcases removeMember_cases room targetId with ⟨member,ok⟩ | ⟨absent,same⟩
        · dsimp only
          rw [ok]
          exact .kicked expels
        · rw [same]
          exact .refused RoomReqResult.noConfusion turned (roster.trans ((if_pos expels).trans (List.erase_of_not_mem absent)))

theorem startGame_performed (loadMapData : StdString → Option MapData) (playerId : UserId) :
    Performed room heap (.startGame loadMapData playerId) (room.startGame heap loadMapData playerId).1
      (room.startGame heap loadMapData playerId).2 heap := by
  unfold startGame
  split
  · exact .refused RoomReqResult.noConfusion nofun rfl
  · split
    · exact .refused RoomReqResult.noConfusion nofun rfl
    · split
      · exact .refused RoomReqResult.noConfusion nofun rfl
      · unfold GameCmdHandler.startGame
        cases loadMapData (room.createMatchInfo heap).selectedMapPath with
        | none => exact .thrown rfl rfl rfl
        | some mapData => exact .started rfl rfl (startTicking_ticking _ 50)

theorem perform_cases {op : Op} {result : Except Thrown RoomReqResult}
    (performed : room.perform heap op = some (result,next,after)) : Performed room heap op result next after := by
  cases op with
  | joinRoom player => cases performed; exact joinRoom_performed player
  | leaveRoom playerId => cases performed; exact leaveRoom_performed playerId
  | setReady playerId ready =>
    cases performed
    unfold setReady
    split
    · exact .refused RoomReqResult.noConfusion nofun rfl
    · rename_i found
      exact .readied found
  | startGame loadMapData playerId => cases performed; exact startGame_performed loadMapData playerId
  | changeMap playerId mapPath =>
    cases performed
    unfold changeMap
    split
    · exact .refused RoomReqResult.noConfusion nofun rfl
    · split
      · exact .refused RoomReqResult.noConfusion nofun rfl
      · exact .mapped
  | changeRoomName playerId newName =>
    cases performed
    unfold changeRoomName
    split
    · exact .refused RoomReqResult.noConfusion nofun rfl
    · exact .renamed
  | changePassword playerId newPassword =>
    cases performed
    unfold changePassword
    split
    · exact .refused RoomReqResult.noConfusion nofun rfl
    · exact .relocked
  | kickPlayer playerId targetId => cases performed; exact kickPlayer_performed playerId targetId
  | changeCapacity playerId newCapacity =>
    cases performed
    unfold changeCapacity Group.setCapacity
    split
    · exact .refused RoomReqResult.noConfusion nofun rfl
    · dsimp only
      split
      · exact .refused RoomReqResult.noConfusion nofun rfl
      · exact .resized
  | dissolveRoom playerId =>
    cases performed
    unfold dissolveRoom
    split
    · rename_i stranger
      exact .refused RoomReqResult.noConfusion nofun ((roster_dissolveRoom playerId).trans (if_neg stranger))
    · rename_i owner
      exact .dissolved (not_not.mp owner)
  | processCommand iteration cmd =>
    obtain ⟨out,played,same⟩ := Option.map_eq_some_iff.mp performed
    cases same
    unfold processCommand at played
    split at played
    · cases played; exact .played
    · cases played; exact .misplayed
    · cases played
  | tick deltaMs => cases performed; exact .ticked

theorem endings_kept (endings : List Ending) : ∀ room : GameRoom, (endings.foldl onGameEnd room).group = room.group ∧
    (endings.foldl onGameEnd room).info.ownerId = room.info.ownerId ∧
    (endings.foldl onGameEnd room).info.playerCount = room.info.playerCount := by
  induction endings with
  | nil => intro room; exact ⟨rfl,rfl,rfl⟩
  | cons ending rest ih => intro room; exact ih (room.onGameEnd ending)

theorem perform_roster {op : Op} {result : Except Thrown RoomReqResult}
    (performed : room.perform heap op = some (result,next,after)) : next.memberIds = room.roster op := by
  have grouped {next : GameRoom} (same : next.group = room.group) : next.memberIds = room.memberIds := by
    rw [memberIds,same,memberIds]
  cases perform_cases performed with
  | refused refusal turned stays => exact stays.symm
  | marked refusal receives turned => exact (if_neg turned).symm
  | admitted admits => rw [roster_joinRoom,if_pos admits,memberIds,seat,List.map_append]; rfl
  | left member => exact removeMember_ids _
  | kicked expels => rw [roster_kickPlayer,if_pos expels]; exact removeMember_ids _
  | dissolved owner => rw [roster_dissolveRoom,if_pos owner]; rfl
  | started info group ticking => exact grouped group
  | thrown info group ticking => exact grouped group
  | played => exact grouped (endings_kept _ _).1
  | _ => rfl

theorem perform_owner {op : Op} {result : Except Thrown RoomReqResult}
    (performed : room.perform heap op = some (result,next,after)) : next.info.ownerId = room.info.ownerId := by
  cases perform_cases performed with
  | started info group ticking => rw [info]
  | thrown info group ticking => rw [info]
  | played => exact (endings_kept _ _).2.1
  | _ => rfl

theorem startGame_group (heap : Heap) (loadMapData : StdString → Option MapData) (playerId : UserId) :
    (room.startGame heap loadMapData playerId).2.group = room.group ∧
      (room.startGame heap loadMapData playerId).2.info.ownerId = room.info.ownerId := by
  have performed : Performed room heap (.startGame loadMapData playerId) _ _ heap := startGame_performed loadMapData playerId
  generalize room.startGame heap loadMapData playerId = out at performed
  obtain ⟨answer,next⟩ := out
  cases performed with
  | refused refusal turned stays => exact ⟨rfl,rfl⟩
  | started info group ticking => exact ⟨group,by rw [info]⟩
  | thrown info group ticking => exact ⟨group,by rw [info]⟩

theorem roster_subset {op : Op} (turned : ∀ player, op = .joinRoom (some player) → ¬ room.Admits player) :
    room.roster op ⊆ room.memberIds := by
  cases op with
  | joinRoom player =>
    cases player with
    | none => exact List.Subset.refl _
    | some player => rw [roster_joinRoom,if_neg (turned player rfl)]; exact List.Subset.refl _
  | leaveRoom playerId => exact List.erase_subset
  | kickPlayer playerId targetId =>
    rw [roster_kickPlayer]
    split
    · exact List.erase_subset
    · exact List.Subset.refl _
  | dissolveRoom playerId =>
    rw [roster_dissolveRoom]
    split
    · exact List.nil_subset _
    · exact List.Subset.refl _
  | _ => exact List.Subset.refl _

def recordOf (heap : Heap) (object : Nat) : RoomId := (heap object).bInfo.currentGroupId

theorem update_kept {β : Type*} (read : GamePlayerInfo → β) {change : GamePlayerInfo → GamePlayerInfo}
    (kept : ∀ info, read (change info) = read info) (player : GamePlayer) (heap : Heap) (object : Nat) :
    read (player.update heap change object) = read (heap object) := by
  unfold GamePlayer.update
  rw [Function.update_apply]
  split
  · rename_i same; rw [same,kept]
  · rfl

theorem enterRoom_record (player : GamePlayer) (heap : Heap) (roomId : RoomId) (object : Nat) :
    recordOf (player.enterRoom heap roomId) object = if object = player.object then roomId else recordOf heap object := by
  unfold recordOf GamePlayer.enterRoom GamePlayer.update
  rw [Function.update_apply]
  split <;> rfl

theorem perform_marks {player : GamePlayer} {result : Except Thrown RoomReqResult} (receives : room.Receives player)
    (performed : room.perform heap (.joinRoom (some player)) = some (result,next,after)) :
    after = player.enterRoom heap room.info.roomId := by
  cases performed
  have cases_ := joinRoom_cases room heap player
  generalize room.joinRoom heap (some player) = out at cases_
  cases cases_ with
  | turned closed refused => exact (closed receives).elim
  | present receives member => rfl
  | crowded receives fresh full => rfl
  | admitted admits => rfl

theorem perform_record {op : Op} {result : Except Thrown RoomReqResult}
    (turned : ∀ player, op = .joinRoom (some player) → ¬ room.Receives player)
    (performed : room.perform heap op = some (result,next,after)) (object : Nat) : recordOf after object = recordOf heap object := by
  cases perform_cases performed with
  | marked refusal receives _ => exact (turned _ rfl receives).elim
  | admitted admits => exact (turned _ rfl admits.1).elim
  | readied found =>
    apply update_kept fun info => info.bInfo.currentGroupId
    intro info
    rfl
  | _ => rfl

end Rosters
end GameServer.GameRoom
