import GameServer.Foundation.JsonDoc
import GameServer.RuntimeData

namespace GameServer
open Foundation

namespace GameMap

def tileTypes : List (StdString × TileType) := [
  (stdString "Mountain",.mountain),
  (stdString "Water",.water),
  (stdString "Forest",.forest),
  (stdString "Ground",.ground),
  (stdString "QMark",.qMark),
  (stdString "EMark",.eMark),
  (stdString "BlackBg",.blackBg),
  (stdString "Base",.base)]

def parseTileType (node : JsonDoc) : Option TileType := do
  let typeStr ← node.getString
  return ((tileTypes.find? fun name => name.1 = typeStr).map Prod.snd).getD .blackBg

variable (library : DocLibrary)

def parseTile (tileNode : JsonDoc) : Option TileData := do
  let tileId ← (← tileNode.at_ (stdString "tile_id")).getUnsigned library
  let owner ← tileNode.value (JsonDoc.getUnsigned library) (stdString "owner") 0
  let value ← tileNode.value (JsonDoc.getUnsigned library) (stdString "value") 0
  let type ← parseTileType (← tileNode.at_ (stdString "type"))
  let roundType ← tileNode.value (JsonDoc.getUnsigned library) (stdString "round_type") 0
  let countered ← tileNode.value JsonDoc.getBool (stdString "countered") false
  let acted ← tileNode.value JsonDoc.getBool (stdString "acted") false
  let isDisconnected ← tileNode.value JsonDoc.getBool (stdString "isDisconnected") false
  return { tileId, owner, value, type, roundType := roundType.toUInt8, countered, acted, isDisconnected }

-- Nothing is said about the size of the tiles array or about which ids it has.
def parseMapData (root : JsonDoc) : Option MapData := do
  let width ← (← root.at_ (stdString "width")).getUnsigned library
  let height ← (← root.at_ (stdString "height")).getUnsigned library
  let tilesNode ← root.at_ (stdString "tiles")
  let tiles ← tilesNode.elements.mapM (parseTile library)
  return { width, height, tiles }

def fileIds (root : JsonDoc) : List (Option UInt32) :=
  match root.at_ (stdString "tiles") with
  | none => []
  | some tilesNode => tilesNode.elements.map fun tileNode =>
      (tileNode.at_ (stdString "tile_id")).bind (JsonDoc.getUnsigned library)

theorem parseTile_id {tileNode : JsonDoc} {tile : TileData} (parsed : parseTile library tileNode = some tile) :
    (tileNode.at_ (stdString "tile_id")).bind (JsonDoc.getUnsigned library) = some tile.tileId := by
  simp only [parseTile,Option.bind_eq_bind,Option.bind_eq_some_iff,Option.pure_def,Option.some.injEq] at parsed
  obtain ⟨node,found,tileId,got,owner,_,value,_,typeNode,_,type,_,roundType,_,countered,_,acted,_,isDisconnected,_,rfl⟩ := parsed
  rw [found]
  exact got

theorem parseMapData_ids {root : JsonDoc} {data : MapData} (parsed : parseMapData library root = some data) :
    data.tiles.map (fun tile => some tile.tileId) = fileIds library root := by
  simp only [parseMapData,Option.bind_eq_bind,Option.bind_eq_some_iff,Option.pure_def,Option.some.injEq] at parsed
  obtain ⟨widthNode,_,width,_,heightNode,_,height,_,tilesNode,found,tiles,each,rfl⟩ := parsed
  unfold fileIds
  rw [found]
  dsimp only
  generalize tilesNode.elements = nodes at each
  induction nodes generalizing tiles with
  | nil =>
    cases each
    rfl
  | cons node rest ih =>
    simp only [List.mapM_cons,Option.bind_eq_bind,Option.bind_eq_some_iff,Option.pure_def,Option.some.injEq] at each
    obtain ⟨tile,first,others,later,rfl⟩ := each
    rw [List.map_cons,List.map_cons,parseTile_id library first,ih others later]

end GameMap
end GameServer
