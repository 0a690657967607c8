import Mathlib.Data.Int.ModEq
import GameServer.Armies

namespace GameServer
open Foundation

namespace RuntimeData

def holding (id : UserId) (tile : TileData) : Nat := if tile.owner = id then 1 else 0

def territory (rt : RuntimeData) (id : UserId) : Nat := weigh (holding id) rt.mapData.tiles

-- The player's resources change by as much as its territory, modulo 2 ^ 32.
def Tracks (rt next : RuntimeData) (id : UserId) : Prop :=
  ((next.player id).resources.toNat - (rt.player id).resources.toNat : Int) ≡
    (next.territory id - rt.territory id : Int) [ZMOD 2 ^ 32]

-- An accepted attack between players of the match that eliminates nobody.
structure Sortie (rt : RuntimeData) (cmd : BattleCmd) (src dst : Nat) : Prop where
  accepted : rt.Accepted cmd
  type : cmd.type = .attack
  first : rt.index cmd.param1 = some src
  second : rt.index cmd.param2 = some dst
  attacker : (rt.tile src).owner ∈ rt.players
  defender : (rt.tile dst).owner ∈ rt.players
  spares : rt.Spares src dst

-- Equal sides, the defender having struck back before.
def Stalemate (rt : RuntimeData) (src dst : Nat) : Prop :=
  (rt.tile dst).countered = true ∧ (rt.tile src).value = (rt.tile dst).value

-- The tile that changes hands is left to nobody.
def Abandons (rt : RuntimeData) (src dst : Nat) : Prop :=
  if (rt.tile src).value > (rt.tile dst).value then (rt.tile dst).value = 2 else (rt.tile dst).countered = false

section Territories
variable {rt next : RuntimeData} {src dst : Nat} {id : UserId}

theorem rewritten_territory {atSrc atDst : TileData} (facing : Facing rt src dst)
    (board : Rewritten rt next src dst atSrc atDst) :
    next.territory id + holding id (rt.tile src) + holding id (rt.tile dst) =
      rt.territory id + holding id atSrc + holding id atDst :=
  weigh_rewritten _ board facing.different facing.insideSrc facing.insideDst

theorem settled_resources (id : UserId) (facing : Facing rt src dst) :
    ((rt.settled src dst).player id).resources = if ⟨id,.resources,true⟩ ∈ rt.attackUpdates src dst
      then (rt.player id).resources + 1 else if ⟨id,.resources,false⟩ ∈ rt.attackUpdates src dst
      then (rt.player id).resources - 1 else (rt.player id).resources := by
  split
  · rename_i gains
    exact settled_updated facing gains
  · rename_i keeps
    split
    · rename_i loses
      exact settled_updated facing loses
    · rename_i stays
      have other : (id,Counter.resources) ∉ (rt.attackUpdates src dst).map Update.account := by
        intro member
        obtain ⟨⟨player,counter,gain⟩,named,account⟩ := List.mem_map.mp member
        cases account
        cases gain with
        | true => exact keeps named
        | false => exact stays named
      exact settled_untouched facing other

theorem settled_territory (id : UserId) (facing : Facing rt src dst) :
    (rt.settled src dst).territory id + holding id (rt.tile src) + holding id (rt.tile dst) =
      rt.territory id + holding id (rt.settledSrc src dst) + holding id (rt.settledDst src dst) :=
  rewritten_territory facing (settled_board facing)

theorem up_toNat (value : UInt32) : (value + 1).toNat = (value.toNat + 1) % 2 ^ 32 := UInt32.toNat_add value 1

theorem down_toNat (value : UInt32) : (value - 1).toNat = (value.toNat + (2 ^ 32 - 1)) % 2 ^ 32 := by
  have one : (1 : UInt32).toNat = 1 := rfl
  rw [UInt32.toNat_sub,one]
  omega

theorem gains_iff : (⟨id,.resources,true⟩ : Update) ∈ rt.attackUpdates src dst ↔
    (rt.tile src).value > (rt.tile dst).value ∧ (rt.tile dst).value ≠ 2 ∧ id = (rt.tile src).owner := by
  unfold attackUpdates plunder
  dsimp only
  split_ifs <;> simp_all

theorem loses_iff : (⟨id,.resources,false⟩ : Update) ∈ rt.attackUpdates src dst ↔
    if (rt.tile src).value > (rt.tile dst).value then id = (rt.tile dst).owner
    else if (rt.tile dst).countered = false then id = (rt.tile src).owner
    else (rt.tile src).value = (rt.tile dst).value ∧ (id = (rt.tile src).owner ∨ id = (rt.tile dst).owner) := by
  unfold attackUpdates plunder
  dsimp only
  split_ifs <;> simp_all

-- The two sides of the books, as integers.
def resourceChange (rt : RuntimeData) (src dst : Nat) (id : UserId) : Int :=
  if ⟨id,.resources,true⟩ ∈ rt.attackUpdates src dst then 1
  else if ⟨id,.resources,false⟩ ∈ rt.attackUpdates src dst then -1 else 0

def territoryChange (rt : RuntimeData) (src dst : Nat) (id : UserId) : Int :=
  holding id (rt.settledSrc src dst) + holding id (rt.settledDst src dst) -
    holding id (rt.tile src) - holding id (rt.tile dst)

theorem holding_small (id : UserId) (tile : TileData) : holding id tile ≤ 1 := by
  unfold holding
  split <;> omega

theorem settled_tracks (facing : Facing rt src dst) :
    Tracks rt (rt.settled src dst) id ↔ rt.resourceChange src dst id = rt.territoryChange src dst id := by
  have territory := settled_territory id facing
  have resources := settled_resources id facing
  have up := up_toNat (rt.player id).resources
  have down := down_toNat (rt.player id).resources
  have bound := UInt32.toNat_lt (rt.player id).resources
  have src1 := holding_small id (rt.tile src)
  have dst1 := holding_small id (rt.tile dst)
  have src2 := holding_small id (rt.settledSrc src dst)
  have dst2 := holding_small id (rt.settledDst src dst)
  unfold Tracks Int.ModEq resourceChange territoryChange
  rw [resources]
  split_ifs <;> omega

theorem settledSrc_owner : (rt.settledSrc src dst).owner = if (rt.tile src).value > (rt.tile dst).value
    then (rt.tile src).owner else if (rt.tile dst).countered = false then 0 else (rt.tile src).owner := by
  unfold settledSrc
  split_ifs <;> rfl

theorem settledDst_owner : (rt.settledDst src dst).owner = if (rt.tile src).value > (rt.tile dst).value
    then rt.spoils src dst else if (rt.tile dst).countered = false then (rt.tile dst).owner
    else if (rt.tile src).value = (rt.tile dst).value then 0 else (rt.tile dst).owner := by
  unfold settledDst
  split_ifs <;> rfl

theorem changes_agree (facing : Facing rt src dst) : rt.resourceChange src dst id = rt.territoryChange src dst id ↔
    (Stalemate rt src dst → id ≠ (rt.tile src).owner ∧ id ≠ 0) ∧ (Abandons rt src dst → id ≠ 0) := by
  have apart := facing.owners
  have attacker : id = (rt.tile src).owner ↔ (rt.tile src).owner = id := eq_comm
  have defender : id = (rt.tile dst).owner ↔ (rt.tile dst).owner = id := eq_comm
  unfold resourceChange territoryChange Stalemate Abandons
  simp only [gains_iff,loses_iff,holding,settledSrc_owner,settledDst_owner,spoils,attacker,defender]
  by_cases stronger : (rt.tile src).value > (rt.tile dst).value
  · have uneven : (rt.tile src).value ≠ (rt.tile dst).value := by grind
    by_cases two : (rt.tile dst).value = 2
    · simp only [two]
      grind
    · simp only [if_pos stronger,two]
      grind
  · by_cases first : (rt.tile dst).countered = false
    · simp only [if_neg stronger,if_pos first]
      grind
    · by_cases even : (rt.tile src).value = (rt.tile dst).value
      · simp only [if_neg stronger,if_neg first,if_pos even]
        grind
      · simp only [if_neg stronger,if_neg first,if_neg even]
        grind

-- An attack keeps the books except in a stalemate, where the attacker pays for
-- a tile it keeps, and where a tile is left to nobody and nobody has an entry.
theorem bookkeeping_exact (iteration : Iteration) {cmd : BattleCmd} (sortie : Sortie rt cmd src dst) :
    (∃ b, processCommand iteration rt cmd = .done b ∧ ∀ id ∈ rt.players, Tracks rt b.runtime id) ↔
      ¬ Stalemate rt src dst ∧ (Abandons rt src dst → 0 ∉ rt.players) := by
  obtain ⟨accepted,type,first,second,attacker,_,spares⟩ := sortie
  have facing := accepted_facing accepted type first second iteration
  have outcome : (∃ b, processCommand iteration rt cmd = .done b ∧ ∀ id ∈ rt.players, Tracks rt b.runtime id) ↔
      ∀ id ∈ rt.players, (Stalemate rt src dst → id ≠ (rt.tile src).owner ∧ id ≠ 0) ∧ (Abandons rt src dst → id ≠ 0) := by
    rw [accepted_attacks accepted type first second iteration fun b => ∀ id ∈ rt.players, Tracks rt b.runtime id,
      attack_settled iteration facing spares]
    exact forall₂_congr fun id _ => (settled_tracks facing).trans (changes_agree facing)
  rw [outcome]
  refine ⟨?_,?_⟩
  · intro holds
    refine ⟨?_,?_⟩
    · intro stalemate
      exact ((holds _ attacker).1 stalemate).1 rfl
    · intro abandons present
      exact (holds 0 present).2 abandons rfl
  · intro fair id member
    refine ⟨fun stalemate => absurd stalemate fair.1,?_⟩
    intro abandons same
    exact fair.2 abandons (same ▸ member)

end Territories

-- The duelists' one base changes hands, and a resource goes with it.
theorem conquest_tracks : ∃ b, processCommand Battle.keyOrder Battle.duelStart.runtime ⟨1,.attack,0,2⟩ = .done b ∧
    ∀ id ∈ Battle.duelStart.runtime.players, Tracks Battle.duelStart.runtime b.runtime id := by
  have calm : Battle.duelStart.runtime.Calm := GameCmdHandler.startGame_calm (fun _ => rfl) _ _
  have accepted : Battle.duelStart.runtime.Accepted ⟨1,.attack,0,2⟩ := rfl
  have facing : Facing Battle.duelStart.runtime 0 2 := accepted_facing accepted rfl rfl rfl Battle.keyOrder
  have sortie : Sortie Battle.duelStart.runtime ⟨1,.attack,0,2⟩ 0 2 :=
    ⟨accepted,rfl,rfl,rfl,by decide,by decide,calm_spares calm facing⟩
  exact (bookkeeping_exact Battle.keyOrder sortie).mpr ⟨by unfold Stalemate; decide,by unfold Abandons; decide⟩

def evenMap : MapData := ⟨2,1,[{ tileId := 1, owner := 1, value := 3, roundType := 0 },
  { tileId := 2, owner := 2, value := 3, countered := true, roundType := 0 }]⟩

def evenStart : GameCmdHandler := ((GameCmdHandler.create 1).startGame (fun _ => some evenMap) Battle.duel).2

-- Player 1 pays a resource and still owns the tile it attacked from.
theorem stalemate_drifts : Sortie evenStart.runtime ⟨1,.attack,0,1⟩ 0 1 ∧
    ¬ ∃ b, processCommand Battle.keyOrder evenStart.runtime ⟨1,.attack,0,1⟩ = .done b ∧
      ∀ id ∈ evenStart.runtime.players, Tracks evenStart.runtime b.runtime id := by
  have calm : evenStart.runtime.Calm := GameCmdHandler.startGame_calm (fun _ => rfl) _ _
  have accepted : evenStart.runtime.Accepted ⟨1,.attack,0,1⟩ := rfl
  have facing : Facing evenStart.runtime 0 1 := accepted_facing accepted rfl rfl rfl Battle.keyOrder
  refine ⟨⟨accepted,rfl,rfl,rfl,by decide,by decide,calm_spares calm facing⟩,?_⟩
  intro holds
  obtain ⟨b,done,tracks⟩ := holds
  cases done
  have drift := tracks 1 (by decide)
  revert drift
  unfold Tracks
  decide

end RuntimeData
end GameServer
