import Mathlib.Algebra.Group.Nat.Defs
import GameServer.Foundation.UnorderedMap
import GameServer.MessageProto

namespace GameServer
open Foundation

structure UserBaseInfo where
  userId : UserId
  currentGroupId : GroupId
  userName : StdString
  sessionId : SessionId
  isOnline : Bool
deriving DecidableEq, Repr

structure GamePlayerInfo where
  bInfo : UserBaseInfo
  seatIndex : UInt8
  color : UInt8
  position : UInt8
  ready : Bool
deriving DecidableEq, Repr

structure MatchInfo where
  players : List GamePlayerInfo
  selectedMapPath : StdString
  ownerId : UserId

structure PlayerRuntimeState where
  playerId : UserId := 0
  seatIndex : UInt32 := 0
  score : UInt32 := 0
  resources : UInt32 := 0
  baseCount : UInt32 := 0
  failure : Bool := false
deriving DecidableEq, Repr, Inhabited

inductive TileType where
  | mountain | water | forest | ground | qMark | eMark | blackBg | base
deriving DecidableEq, Repr, Inhabited

structure TileData where
  tileId : UInt32
  owner : UserId
  value : UInt32
  type : TileType := .blackBg
  roundType : UInt8
  countered : Bool := false
  acted : Bool := false
  isDisconnected : Bool := false
deriving DecidableEq, Repr, Inhabited

structure MapData where
  width : UInt32 := 0
  height : UInt32 := 0
  tiles : List TileData := []

structure RuntimeData where
  mapName : StdString := []
  mapData : MapData := {}
  players : UnorderedMap UserId PlayerRuntimeState := ∅
  tick : UInt64 := 0
  currentPlayerId : UserId := 0

inductive BattleCmdType where
  | move | attack | grow | other (raw : Int32)
deriving DecidableEq, Repr

structure BattleCmd where
  playerId : UInt64
  type : BattleCmdType
  param1 : Int32
  param2 : Int32
deriving DecidableEq, Repr

namespace RuntimeData

-- Where tiles[param] lies. A negative parameter becomes a size that no vector
-- reaches.
def index (rt : RuntimeData) (param : Int32) : Option Nat :=
  if 0 ≤ param.toInt ∧ param.toInt.toNat < rt.mapData.tiles.length then some param.toInt.toNat else none

def tile (rt : RuntimeData) (place : Nat) : TileData := rt.mapData.tiles.getD place default

def setTile (rt : RuntimeData) (place : Nat) (change : TileData → TileData) : RuntimeData :=
  { rt with mapData := { rt.mapData with tiles := rt.mapData.tiles.set place (change (rt.tile place)) } }

def player (rt : RuntimeData) (id : UserId) : PlayerRuntimeState := (rt.players.lookup id).getD {}

-- players[id] reads through a reference, and makes an entry where there is none.
def touch (rt : RuntimeData) (id : UserId) : RuntimeData := { rt with players := rt.players.insertNew id {} }

def setPlayer (rt : RuntimeData) (id : UserId) (change : PlayerRuntimeState → PlayerRuntimeState) : RuntimeData :=
  { rt with players := rt.players.modify id change }

section Accessors
variable (rt : RuntimeData) (place other : Nat) (id user : UserId)
variable (tileChange : TileData → TileData) (change : PlayerRuntimeState → PlayerRuntimeState)

@[simp] theorem touch_mapData : (rt.touch id).mapData = rt.mapData := by rw [touch]
@[simp] theorem setPlayer_mapData : (rt.setPlayer id change).mapData = rt.mapData := by rw [setPlayer]
@[simp] theorem touch_tile : (rt.touch id).tile place = rt.tile place := rfl
@[simp] theorem setPlayer_tile : (rt.setPlayer id change).tile place = rt.tile place := rfl

@[simp] theorem setTile_length :
    (rt.setTile place tileChange).mapData.tiles.length = rt.mapData.tiles.length := List.length_set

theorem setTile_tile (inside : place < rt.mapData.tiles.length) :
    (rt.setTile place tileChange).tile other = if other = place then tileChange (rt.tile place) else rt.tile other := by
  unfold setTile tile
  dsimp only
  rw [List.getD_eq_getElem?_getD,List.getElem?_set]
  by_cases same : place = other
  · subst same; simp [inside]
  · simp [same,Ne.symm same]

theorem setTile_map {β : Type*} (read : TileData → β) (kept : read (tileChange (rt.tile place)) = read (rt.tile place)) :
    (rt.setTile place tileChange).mapData.tiles.map read = rt.mapData.tiles.map read := by
  by_cases inside : place < rt.mapData.tiles.length
  · have here : rt.tile place = rt.mapData.tiles[place] := by simp [tile,inside]
    rw [setTile,List.map_set,kept,here,← List.map_set,List.set_getElem_self]
  · rw [setTile,List.set_eq_of_length_le (Nat.le_of_not_lt inside)]

theorem touch_player : (rt.touch id).player user = rt.player user := by
  unfold touch player
  rw [UnorderedMap.lookup_insertNew]
  split
  · rename_i same; subst same; rfl
  · rfl

theorem touch_mem : user ∈ (rt.touch id).players ↔ user = id ∨ user ∈ rt.players := UnorderedMap.mem_insertNew

@[simp] theorem setPlayer_mem : user ∈ (rt.setPlayer id change).players ↔ user ∈ rt.players := UnorderedMap.mem_modify

theorem setPlayer_player (present : id ∈ rt.players) :
    (rt.setPlayer id change).player user = if user = id then change (rt.player id) else rt.player user := by
  obtain ⟨state,found⟩ := UnorderedMap.mem_iff_lookup.mp present
  unfold setPlayer player
  rw [UnorderedMap.lookup_modify]
  split
  · simp [found]
  · rfl

theorem index_bound {param : Int32} {place : Nat} (found : rt.index param = some place) :
    place < rt.mapData.tiles.length ∧ place < 2 ^ 31 := by
  unfold index at found
  split at found
  · rename_i inside
    cases found
    have upper := Int32.toInt_lt param
    exact ⟨inside.2,by omega⟩
  · cases found

end Accessors

end RuntimeData
end GameServer
