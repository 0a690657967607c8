import GameServer.Foundation.JsonDoc
import GameServer.RuntimeData

namespace GameServer
open Foundation

structure JsonMoveCommand where
  sourceId : UInt32
  destId : UInt32
  value : UInt32
deriving DecidableEq, Repr

structure JsonAttackCommand where
  sourceId : UInt32
  destId : UInt32
  sourceValue : UInt32
  destValue : UInt32
deriving DecidableEq, Repr

structure JsonGrowCommand where
  targetTileId : UInt32
  growValue : UInt32
deriving DecidableEq, Repr

-- What the cmd_data of an understood command holds.
inductive JsonPayload where
  | move (mv : JsonMoveCommand)
  | attack (at_ : JsonAttackCommand)
  | grow (gr : JsonGrowCommand)
deriving DecidableEq, Repr

namespace JSONTranslator

def gameCmdMove : UInt8 := 0
def gameCmdAttack : UInt8 := 1
def gameCmdGrow : UInt8 := 2

variable (library : DocLibrary)

def word (doc : JsonDoc) (key : String) : Option UInt32 := doc.value (JsonDoc.getUnsigned library) (stdString key) 0

-- cmd_data may be an object or a string; its JSON text is kept.
def cmdDataText (root : JsonDoc) : Option StdString :=
  match root.at_ (stdString "cmd_data") with
  | none => some []
  | some (.string text) => some text
  | some doc => library.dump doc

def parsePayload (cmdType : UInt8) (cmdData : StdString) : Option JsonPayload :=
  if cmdType = gameCmdMove then do
    let d ← library.parse cmdData
    return .move ⟨← word library d "source_id",← word library d "dest_id",← word library d "value"⟩
  else if cmdType = gameCmdAttack then do
    let d ← library.parse cmdData
    return .attack ⟨← word library d "source_id",← word library d "dest_id",← word library d "source_value",
      ← word library d "dest_value"⟩
  else if cmdType = gameCmdGrow then do
    let d ← library.parse cmdData
    return .grow ⟨← word library d "target_tile_id",← word library d "grow_value"⟩
  else none

def parseJsonCommand (jsonStr : StdString) : Option JsonPayload := do
  let root ← library.parse jsonStr
  let cmdType ← (← root.at_ (stdString "cmd_type")).getInt library
  let cmdData ← cmdDataText library root
  parsePayload library cmdType.toUInt32.toUInt8 cmdData

end JSONTranslator

namespace JsonPayload

def battleCmd : JsonPayload → BattleCmd
  | .move mv => ⟨0,.move,mv.sourceId.toInt32,mv.destId.toInt32⟩
  | .attack at_ => ⟨0,.attack,at_.sourceId.toInt32,at_.destId.toInt32⟩
  | .grow gr => ⟨0,.grow,gr.targetTileId.toInt32,gr.growValue.toInt32⟩

def tileIds : JsonPayload → List UInt32
  | .move mv => [mv.sourceId,mv.destId]
  | .attack at_ => [at_.sourceId,at_.destId]
  | .grow gr => [gr.targetTileId]

end JsonPayload

namespace JSONTranslator

-- Every way to fail leaves the command as it was made: a move of player 0 from 0 to 0.
def parseCommand (library : DocLibrary) (jsonStr : StdString) : BattleCmd :=
  match parseJsonCommand library jsonStr with
  | some payload => payload.battleCmd
  | none => ⟨0,.move,0,0⟩

end JSONTranslator
end GameServer
