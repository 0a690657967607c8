import GameServer.GameRoom
import GameServer.BaseCount

namespace GameServer.GameRoom
open Foundation RuntimeData

def memberIds (room : GameRoom) : List UserId := room.group.members.map GamePlayer.userId

-- The players of a match, in the seats of the members' positions.
structure SeatsMembers (room : GameRoom) (rt : RuntimeData) : Prop where
  keys : ∀ id, id ∈ rt.players ↔ id ∈ room.memberIds
  seats : ∀ place member, room.group.members[place]? = some member →
    ∃ state, rt.players.lookup member.userId = some state ∧ state.seatIndex.toNat = place

def SamePlayers (ids : List UserId) (b : Battle) : Prop := ∀ id, id ∈ b.runtime.players ↔ id ∈ ids

-- An accepted move or attack only ever meets tiles owned by players of the match.
def OwnersPlay (ids : List UserId) (rt : RuntimeData) (cmd : BattleCmd) : Prop :=
  rt.Accepted cmd → cmd.type ≠ .grow → ∀ place, rt.index cmd.param1 = some place ∨ rt.index cmd.param2 = some place →
    (rt.tile place).owner ∈ ids

theorem matchInfo_ids (room : GameRoom) (heap : Heap) : GameCmdHandler.ids (room.createMatchInfo heap) = room.memberIds := by
  simp [GameCmdHandler.ids,createMatchInfo,memberIds,GamePlayer.getInfo,Function.comp_def]

theorem nodup_bound {ids : List UInt32} (nodup : ids.Nodup) : ids.length ≤ 2 ^ 32 := by
  have values : (ids.map UInt32.toNat).Nodup := nodup.map fun _ _ same => UInt32.toNat_inj.mp same
  have inside : ids.map UInt32.toNat ⊆ List.range (2 ^ 32) := by
    intro value member
    obtain ⟨id,_,rfl⟩ := List.mem_map.mp member
    exact List.mem_range.mpr (UInt32.toNat_lt id)
  have bound := (List.subperm_of_subset values inside).length_le
  rwa [List.length_map,List.length_range] at bound

theorem seatPlayers_seat {players : UnorderedMap UserId PlayerRuntimeState} {seat : Nat} {infos : List GamePlayerInfo}
    (nodup : (infos.map (·.bInfo.userId)).Nodup) {place : Nat} {info : GamePlayerInfo}
    (found : infos[place]? = some info) : (seatPlayers players seat infos).lookup info.bInfo.userId =
      some { playerId := info.bInfo.userId, seatIndex := UInt32.ofNat (seat + place) } := by
  induction infos generalizing players seat place with
  | nil => cases found
  | cons first rest ih =>
    obtain ⟨fresh,nodup⟩ := List.nodup_cons.mp nodup
    rw [seatPlayers]
    cases place with
    | zero =>
      cases found
      rw [GameCmdHandler.seated_absent fresh,UnorderedMap.lookup_insert_eq,if_pos rfl,Nat.add_zero]
    | succ place =>
      rw [ih nodup found,Nat.add_assoc,Nat.add_comm 1 place]

theorem seatPlayers_keys {infos : List GamePlayerInfo} {id : UserId} :
    id ∈ seatPlayers ∅ 0 infos ↔ id ∈ infos.map (·.bInfo.userId) := by
  by_cases member : id ∈ infos.map (·.bInfo.userId)
  · have seated : ∃ place, (seatPlayers ∅ 0 infos).lookup id = some { playerId := id, seatIndex := place } :=
      GameCmdHandler.seated_present member
    obtain ⟨place,found⟩ := seated
    exact iff_of_true (UnorderedMap.mem_of_lookup found) member
  · have absent : (seatPlayers ∅ 0 infos).lookup id = none := GameCmdHandler.seated_absent member
    exact iff_of_false (AList.lookup_eq_none.mp absent) member

theorem startGame_runtime {room next : GameRoom} {heap : Heap} {loadMapData : StdString → Option MapData}
    {playerId : UserId} (started : room.startGame heap loadMapData playerId = (.ok .ok,next)) :
    next.cmdHandler.runtime.players = seatPlayers ∅ 0 (room.createMatchInfo heap).players := by
  unfold startGame at started
  split at started
  · cases started
  · split at started
    · cases started
    · split at started
      · cases started
      · split at started
        · cases started
        · rename_i handler played
          cases started
          obtain ⟨mapData,_,runtime⟩ := GameCmdHandler.startGame_started played
          have same : (handler.startTicking 50).runtime = handler.runtime := by
            unfold GameCmdHandler.startTicking
            split <;> rfl
          simp only [setRoomState,same,runtime]
          rfl

theorem started_calm {rt : RuntimeData} {infos : List GamePlayerInfo} (players : rt.players = seatPlayers ∅ 0 infos) :
    rt.Calm := by
  intro id
  let cleared : RuntimeData := { rt with players := ∅ }
  have start : cleared.Calm := fun _ => rfl
  have calm := GameCmdHandler.seatPlayers_calm start infos id
  simp only [player,players] at calm ⊢
  exact calm

theorem started_seats {room : GameRoom} (seated : room.Seated) {heap : Heap} {rt : RuntimeData}
    (players : rt.players = seatPlayers ∅ 0 (room.createMatchInfo heap).players) : SeatsMembers room rt := by
  refine ⟨?_,?_⟩
  · intro id
    rw [players,seatPlayers_keys,← matchInfo_ids room heap]
    rfl
  · intro place member found
    have ids : ((room.createMatchInfo heap).players.map (·.bInfo.userId)).Nodup := by
      have nodup := seated.keyed
      rw [Group.Keyed] at nodup
      have same := matchInfo_ids room heap
      rw [GameCmdHandler.ids,memberIds] at same
      rwa [same]
    have here : (room.createMatchInfo heap).players[place]? = some (member.getInfo heap) := by
      simp [createMatchInfo,found]
    have inside : place < 2 ^ 32 := by
      have bound := nodup_bound ids
      obtain ⟨early,_⟩ := List.getElem?_eq_some_iff.mp here
      rw [List.length_map] at bound
      omega
    refine ⟨{ playerId := member.userId, seatIndex := UInt32.ofNat place },?_,UInt32.toNat_ofNat_of_lt' inside⟩
    have seat : (seatPlayers ∅ 0 (room.createMatchInfo heap).players).lookup member.userId =
        some { playerId := member.userId, seatIndex := UInt32.ofNat (0 + place) } := seatPlayers_seat ids here
    rw [Nat.zero_add] at seat
    rw [players,seat]

theorem taken_players {rt : RuntimeData} (calm : rt.Calm) {ids : List UserId} (same : ∀ id, id ∈ rt.players ↔ id ∈ ids)
    {cmd : BattleCmd} (accepted : rt.Accepted cmd) {iteration : Iteration} {b : Battle} (taken : Taken iteration rt cmd b) :
    SamePlayers ids b ↔ OwnersPlay ids rt cmd := by
  cases taken with
  | @move src dst type first second different ownSrc ownDst strong =>
    have members := (move_moved calm different (index_bound rt first).1 (index_bound rt second).1 ownSrc ownDst).members
    refine ⟨?_,?_⟩
    · intro after _ _ place found
      have mine : cmd.playerId.toUInt32 ∈ ids := (after _).mp ((members _).mpr (Or.inl rfl))
      rcases found with one | two
      · cases first.symm.trans one; rw [ownSrc]; exact mine
      · cases second.symm.trans two; rw [ownDst]; exact mine
    · intro owners id
      have mine := owners accepted (by rw [type]; decide) src (Or.inl first)
      rw [ownSrc] at mine
      rw [members id,same id,or_iff_right_of_imp]
      intro player
      exact player ▸ mine
  | @attack src dst type first second facing own =>
    have members := (attack_resolved calm facing iteration).members
    refine ⟨?_,?_⟩
    · intro after _ _ place found
      rcases found with one | two
      · cases first.symm.trans one; exact (after _).mp ((members _).mpr (Or.inl rfl))
      · cases second.symm.trans two; exact (after _).mp ((members _).mpr (Or.inr (Or.inl rfl)))
    · intro owners id
      have attacker := owners accepted (by rw [type]; decide) src (Or.inl first)
      have defender := owners accepted (by rw [type]; decide) dst (Or.inr second)
      rw [members id,same id,← or_assoc,or_iff_right_of_imp]
      intro owner
      rcases owner with rfl | rfl
      · exact attacker
      · exact defender
  | grow type first own alive =>
    refine iff_of_true same ?_
    intro _ other
    exact absurd type other

theorem step_players {ids : List UserId} {b next : Battle} {c : Command} (calm : b.runtime.Calm)
    (same : SamePlayers ids b) (stepped : b.step c = some next) :
    SamePlayers ids next ↔ OwnersPlay ids b.runtime c.cmd := by
  rcases Battle.step_cases stepped with ⟨refused,rfl⟩ | ⟨accepted,played,taken,rfl⟩
  · exact iff_of_true same (fun accepted => absurd accepted refused)
  · have exact_ := taken_players calm same accepted taken
    exact exact_

-- The seats are dealt as promised, and the key set then stays what it is in
-- exactly the matches whose accepted moves and attacks meet players' tiles only.
theorem match_players_exact (info : GameRoomInfo) (heap : Heap) (ops : List Op) (room : GameRoom) (after : Heap)
    (path : Machine.run step (create info,heap) ops = some (room,after))
    (loadMapData : StdString → Option MapData) (playerId : UserId) (next : GameRoom)
    (started : room.startGame after loadMapData playerId = (.ok .ok,next)) (commands : List Command) :
    (SeatsMembers room next.cmdHandler.runtime ∧
        Machine.Always Battle.step (SamePlayers room.memberIds) ⟨next.cmdHandler.runtime,[]⟩ commands) ↔
      Machine.Every Battle.step (fun b c _ => OwnersPlay room.memberIds b.runtime c.cmd)
        ⟨next.cmdHandler.runtime,[]⟩ commands := by
  have players := startGame_runtime started
  have seats := started_seats (run_seated path) players
  refine (and_iff_right seats).trans ?_
  exact Machine.always_iff_guarded (fun _ _ _ calm _ stepped _ => Battle.step_calm calm stepped)
    (fun _ _ _ calm same stepped => step_players calm same stepped) (started_calm players) seats.keys

def duelInfos : Heap := fun _ => Battle.duelist 0

def duelRoom : GameRoom × Heap :=
  let one := (create { ownerId := 1, capacity := 4 }).joinRoom duelInfos (some ⟨0,1⟩)
  (one.2.1.joinRoom one.2.2 (some ⟨1,2⟩)).2

def duelOps : List Op := [.joinRoom (some ⟨0,1⟩),.joinRoom (some ⟨1,2⟩)]

def duelOn (mapData : MapData) : GameRoom := (duelRoom.1.startGame duelRoom.2 (fun _ => some mapData) 1).2

theorem match_players_kept : SeatsMembers duelRoom.1 (duelOn Battle.duelMap).cmdHandler.runtime ∧
    Machine.Always Battle.step (SamePlayers duelRoom.1.memberIds) ⟨(duelOn Battle.duelMap).cmdHandler.runtime,[]⟩
      [⟨Battle.keyOrder,⟨1,.attack,0,2⟩⟩] := by
  refine (match_players_exact { ownerId := 1, capacity := 4 } duelInfos duelOps duelRoom.1 duelRoom.2 rfl
    (fun _ => some Battle.duelMap) 1 (duelOn Battle.duelMap) rfl _).mpr ?_
  intro next stepped
  refine ⟨?_,trivial⟩
  intro _ _ place found
  rcases found with one | two
  · cases (show some 0 = some place from one)
    decide
  · cases (show some 2 = some place from two)
    decide

-- Attacking a neutral tile gives the match a player 0.
theorem neutral_tile_adds_player : ¬ (SeatsMembers duelRoom.1 (duelOn Battle.neutralMap).cmdHandler.runtime ∧
    Machine.Always Battle.step (SamePlayers duelRoom.1.memberIds) ⟨(duelOn Battle.neutralMap).cmdHandler.runtime,[]⟩
      [⟨Battle.keyOrder,⟨1,.attack,0,2⟩⟩]) := by
  intro holds
  have started : duelRoom.1.startGame duelRoom.2 (fun _ => some Battle.neutralMap) 1 =
      (.ok .ok,duelOn Battle.neutralMap) := rfl
  have calm := started_calm (startGame_runtime started)
  obtain ⟨next,stepped⟩ := Battle.step_total ⟨(duelOn Battle.neutralMap).cmdHandler.runtime,[]⟩
    ⟨Battle.keyOrder,⟨1,.attack,0,2⟩⟩
  have reached := holds.2 _ [] next (List.append_nil _).symm (by rw [Machine.run_cons,stepped]; rfl)
  have same : SamePlayers duelRoom.1.memberIds ⟨(duelOn Battle.neutralMap).cmdHandler.runtime,[]⟩ := holds.1.keys
  have owners := (step_players calm same stepped).mp reached
  have member : (0 : UserId) ∈ duelRoom.1.memberIds := owners rfl (by decide) 2 (Or.inr rfl)
  revert member
  decide

end GameServer.GameRoom
