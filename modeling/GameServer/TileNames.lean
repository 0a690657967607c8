import GameServer.CommandJson
import GameServer.GameEnd
import GameServer.GameMapIO
import GameServer.TileAccess

namespace GameServer
open Foundation JSONTranslator RuntimeData

-- What may happen to a game in progress: a command parsed from its text, or
-- anything else short of another start.
inductive Play where
  | parsed (iteration : Iteration) (jsonStr : StdString)
  | other (event : GameCmdHandler.Event)

namespace GameCmdHandler

def play (library : DocLibrary) (h : GameCmdHandler) : Play → Option GameCmdHandler
  | .parsed iteration jsonStr => h.step (.command iteration (parseCommand library jsonStr))
  | .other (.startGame _ _) => none
  | .other event => h.step event

-- What is asked of every command ParseCommand has understood and ProcessCommand accepts.
def Commands (library : DocLibrary) (law : Iteration → RuntimeData → JsonPayload → Prop) (h : GameCmdHandler) :
    Play → GameCmdHandler → Prop
  | .parsed iteration jsonStr,_ => ∀ payload, parseJsonCommand library jsonStr = some payload →
      h.runtime.Accepted payload.battleCmd → law iteration h.runtime payload
  | .other _,_ => True

end GameCmdHandler

-- Each id of the command stands for the tiles that have it, and the tiles whose
-- id it does not give are neither read nor modified.
structure ByTileId (iteration : Iteration) (rt : RuntimeData) (payload : JsonPayload) : Prop where
  found : List.Forall₂ (fun id access => ∀ place, access = some place ↔ rt.tileIds[place]? = some id) payload.tileIds
    (rt.accessed payload.battleCmd)
  others : ∀ place id, rt.tileIds[place]? = some id → id ∉ payload.tileIds → Untouched iteration rt payload.battleCmd place

-- The file gives the id to the tile it lists at that place, counted from 0, and to no other.
def Placed (ids : List (Option UInt32)) (id : UInt32) : Prop := ∀ place, ids[place]? = some (some id) ↔ place = id.toNat

section Names
variable {rt : RuntimeData} {payload : JsonPayload} {playerId : UInt64}

theorem index_self {id : UInt32} {place : Nat} (found : rt.index id.toInt32 = some place) :
    rt.index id.toInt32 = some id.toNat := by
  rw [found]
  congr 1
  unfold index at found
  split at found
  · rename_i inside
    cases found
    have value : id.toInt32.toInt = id.toBitVec.toInt := rfl
    have low := inside.1
    rw [value,BitVec.toInt_eq_toNat_cond] at low ⊢
    split at low
    · rename_i small
      rw [if_pos small]
      rfl
    · have bound := id.toBitVec.isLt
      omega
  · cases found

theorem move_home_refused (playerId : UInt64) (param : Int32) : ¬ rt.Accepted ⟨playerId,.move,param,param⟩ := by
  intro accepted
  rcases processCommand_cases Battle.keyOrder rt ⟨playerId,.move,param,param⟩ with ⟨refused,_⟩ | ⟨_,played,_,taken⟩
  · exact refused accepted
  · cases taken with
    | move type first second different =>
      cases first.symm.trans second
      exact different rfl
    | attack type => cases type
    | grow type => cases type

theorem unparsed_refused (library : DocLibrary) {jsonStr : StdString} (unparsed : parseJsonCommand library jsonStr = none)
    (playerId : UInt64) : ¬ rt.Accepted { parseCommand library jsonStr with playerId := playerId } := by
  unfold parseCommand
  rw [unparsed]
  exact move_home_refused playerId 0

theorem accepted_place (accepted : rt.Accepted { payload.battleCmd with playerId := playerId }) :
    ∀ id ∈ payload.tileIds, rt.index id.toInt32 = some id.toNat := by
  intro id member
  have accessed_ : rt.index id.toInt32 ∈ rt.accessed { payload.battleCmd with playerId := playerId } := by
    have all : rt.accessed { payload.battleCmd with playerId := playerId } =
        payload.tileIds.map fun id => rt.index id.toInt32 := by cases payload <;> rfl
    rw [all]
    exact List.mem_map_of_mem member
  obtain ⟨place,found,_⟩ := (accepted_guarded accepted).inside _ accessed_
  exact index_self found

theorem accessed_named (accepted : rt.Accepted payload.battleCmd) :
    rt.accessed payload.battleCmd = payload.tileIds.map fun id => some id.toNat := by
  have unsent : { payload.battleCmd with playerId := 0 } = payload.battleCmd := by cases payload <;> rfl
  have all : rt.accessed payload.battleCmd = payload.tileIds.map fun id => rt.index id.toInt32 := by cases payload <;> rfl
  rw [all]
  apply List.map_congr_left
  exact accepted_place (unsent ▸ accepted)

theorem byTileId_exact (calm : rt.Calm) (accepted : rt.Accepted payload.battleCmd) (iteration : Iteration) :
    ByTileId iteration rt payload ↔ ∀ id ∈ payload.tileIds, Placed (rt.tileIds.map some) id := by
  have named := accessed_named accepted
  have each : List.Forall₂ (fun id access => ∀ place, access = some place ↔ rt.tileIds[place]? = some id) payload.tileIds
      (rt.accessed payload.battleCmd) ↔ ∀ id ∈ payload.tileIds, Placed (rt.tileIds.map some) id := by
    rw [named,List.forall₂_map_right_iff,List.forall₂_same]
    refine forall₂_congr fun id _ => forall_congr' fun place => ?_
    rw [List.getElem?_map]
    cases rt.tileIds[place]? with
    | none => simp [eq_comm]
    | some other => simp [eq_comm,iff_comm]
  refine ⟨?_,?_⟩
  · intro held
    exact each.mp held.found
  · intro placed
    refine ⟨each.mpr placed,?_⟩
    intro place id stands absent
    apply processCommand_untouched calm accepted
    intro accessed
    rw [named] at accessed
    obtain ⟨other,member,same⟩ := List.mem_map.mp accessed
    have here := (placed other member place).mpr (Option.some.inj same).symm
    rw [List.getElem?_map,stands] at here
    cases here
    exact absent member

end Names

namespace GameCmdHandler

theorem command_steps (h : GameCmdHandler) (iteration : Iteration) (cmd : BattleCmd) :
    ∃ next, h.step (.command iteration cmd) = some next := by
  rcases processCommand_cases iteration h.runtime cmd with ⟨_,error,result⟩ | ⟨_,played,result,_⟩
  · exact ⟨_,by rw [step,result]⟩
  · exact ⟨_,by rw [step,result]⟩

theorem play_keeps {library : DocLibrary} {h next : GameCmdHandler} {turn : Play} (calm : h.runtime.Calm)
    (stepped : h.play library turn = some next) : next.runtime.Calm ∧ next.runtime.tileIds = h.runtime.tileIds := by
  have commanded : ∀ iteration cmd, h.step (.command iteration cmd) = some next →
      next.runtime.Calm ∧ next.runtime.tileIds = h.runtime.tileIds := by
    intro iteration cmd stepped
    refine ⟨step_calm calm stepped,?_⟩
    rcases processCommand_cases iteration h.runtime cmd with ⟨_,error,result⟩ | ⟨_,played,result,taken⟩
    · rw [step,result] at stepped
      cases stepped
      rfl
    · rw [step,result] at stepped
      cases stepped
      exact taken_ids taken
  cases turn with
  | parsed iteration jsonStr => exact commanded iteration _ stepped
  | other event =>
    cases event with
    | startGame loadMapData info => cases stepped
    | command iteration cmd => exact commanded iteration cmd stepped
    | startTicking interval =>
      have stepped : h.step (.startTicking interval) = some next := stepped
      refine ⟨step_calm calm stepped,?_⟩
      cases stepped
      unfold startTicking
      split <;> rfl
    | stopTicking => cases stepped; exact ⟨calm,rfl⟩
    | initGameState =>
      have stepped : h.step .initGameState = some next := stepped
      refine ⟨step_calm calm stepped,?_⟩
      cases stepped
      rfl
    | tick deltaMs => cases stepped; exact ⟨calm,rfl⟩

theorem started_ids {library : DocLibrary} {root : JsonDoc} {data : MapData}
    (parsed : GameMap.parseMapData library root = some data) (h : GameCmdHandler) {loadMapData : StdString → Option MapData} {info : MatchInfo}
    (loads : loadMapData info.selectedMapPath = some data) :
    (h.startGame loadMapData info).2.runtime.tileIds.map some = GameMap.fileIds library root := by
  rw [← GameMap.parseMapData_ids library parsed]
  unfold startGame
  rw [loads]
  exact List.map_map

theorem tiles_by_id_exact (library : DocLibrary) {root : JsonDoc} {data : MapData}
    (parsed : GameMap.parseMapData library root = some data) {roomId : RoomId} {history : List Event} {h : GameCmdHandler}
    (path : Machine.run step (create roomId) history = some h) {loadMapData : StdString → Option MapData} {info : MatchInfo}
    (loads : loadMapData info.selectedMapPath = some data) (plays : List Play) :
    Machine.Every (play library) (Commands library ByTileId) (h.startGame loadMapData info).2 plays ↔
      Machine.Every (play library) (Commands library fun _ _ payload => ∀ id ∈ payload.tileIds,
        Placed (GameMap.fileIds library root) id) (h.startGame loadMapData info).2 plays := by
  have calm := startGame_calm (run_calm path) loadMapData info
  have ids := started_ids parsed h loads
  have kept : ∀ (s : GameCmdHandler) turn next, s.runtime.Calm ∧ s.runtime.tileIds.map some = GameMap.fileIds library root →
      s.play library turn = some next → Commands library ByTileId s turn next →
      next.runtime.Calm ∧ next.runtime.tileIds.map some = GameMap.fileIds library root := by
    intro s turn next held stepped _
    obtain ⟨after,same⟩ := play_keeps held.1 stepped
    exact ⟨after,same ▸ held.2⟩
  refine Machine.every_congr kept ?_ ⟨calm,ids⟩
  intro s turn next held _
  cases turn with
  | parsed iteration jsonStr =>
    refine forall₂_congr fun payload understood => forall_congr' fun accepted => ?_
    rw [← held.2]
    exact byTileId_exact held.1 accepted iteration
  | other event => exact Iff.rfl

def sampleTile (tileId : UInt64) : JsonDoc := .object [
  (stdString "tile_id",.unsigned tileId),
  (stdString "type",.string (stdString "Ground")),
  (stdString "value",.unsigned 1)]

def sampleMap : JsonDoc := .object [
  (stdString "height",.unsigned 1),
  (stdString "tiles",.array [sampleTile 1,sampleTile 2]),
  (stdString "width",.unsigned 2)]

def growText : StdString := stdString "\x7b\"cmd_type\":2,\"cmd_data\":\x7b\"target_tile_id\":1,\"grow_value\":3\x7d\x7d"
def growDataText : StdString := stdString "\x7b\"grow_value\":3,\"target_tile_id\":1\x7d"

def growData : JsonDoc := .object [(stdString "grow_value",.unsigned 3),(stdString "target_tile_id",.unsigned 1)]

def sampleLibrary : DocLibrary where
  parse text := if text = growText then some (.object [(stdString "cmd_data",growData),(stdString "cmd_type",.unsigned 2)])
    else if text = growDataText then some growData else none
  dump
    | .object [(_,.unsigned 3),(_,.unsigned 1)] => some growDataText
    | _ => none
  floatToUnsigned _ := 0
  floatToInt _ := 0

def sampleInfo : MatchInfo := ⟨[],stdString "sample_map",1⟩

def sampleGame : GameCmdHandler :=
  ((create 1).startGame (fun _ => GameMap.parseMapData sampleLibrary sampleMap) sampleInfo).2

theorem tiles_by_id_sample : Machine.Every (play sampleLibrary) (Commands sampleLibrary ByTileId) sampleGame
      [.parsed Battle.keyOrder growText] ↔
    Machine.Every (play sampleLibrary) (Commands sampleLibrary fun _ _ payload => ∀ id ∈ payload.tileIds,
      Placed (GameMap.fileIds sampleLibrary sampleMap) id) sampleGame [.parsed Battle.keyOrder growText] := by
  have accepted : (GameMap.parseMapData sampleLibrary sampleMap).isSome = true := by decide +kernel
  obtain ⟨data,parsed⟩ := Option.isSome_iff_exists.mp accepted
  have path : Machine.run step (create 1) [] = some (create 1) := rfl
  have loads : (fun _ : StdString => GameMap.parseMapData sampleLibrary sampleMap) sampleInfo.selectedMapPath = some data :=
    parsed
  exact tiles_by_id_exact sampleLibrary parsed path loads _

-- The command is taken, and the tile it grows is the one with tile_id 2.
theorem sample_map_off_by_one : ¬ Machine.Every (play sampleLibrary) (Commands sampleLibrary ByTileId) sampleGame
    [.parsed Battle.keyOrder growText] := by
  intro every
  have understood : parseJsonCommand sampleLibrary growText = some (.grow ⟨1,3⟩) := by decide +kernel
  have shown : (sampleGame.runtime.validateCmd (JsonPayload.grow ⟨1,3⟩).battleCmd).toOption = some true ∧
      sampleGame.runtime.index 1 = some 1 ∧ sampleGame.runtime.tileIds = [1,2] := by decide +kernel
  obtain ⟨valid,grown,ids⟩ := shown
  have accepted : sampleGame.runtime.Accepted (JsonPayload.grow ⟨1,3⟩).battleCmd := by
    unfold Accepted
    cases checked : sampleGame.runtime.validateCmd (JsonPayload.grow ⟨1,3⟩).battleCmd with
    | error error => rw [checked] at valid; cases valid
    | ok answer => rw [checked] at valid; cases valid; rfl
  obtain ⟨next,stepped⟩ := command_steps sampleGame Battle.keyOrder (parseCommand sampleLibrary growText)
  obtain ⟨found,_⟩ := (every next stepped).1 (.grow ⟨1,3⟩) understood accepted
  obtain ⟨access,_⟩ := List.forall₂_cons.mp found
  have wanted := (access 0).mpr (by rw [ids]; rfl)
  cases wanted.symm.trans grown

end GameCmdHandler
end GameServer
