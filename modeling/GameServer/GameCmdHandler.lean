import GameServer.Foundation.Machine
import GameServer.RuntimeData

namespace GameServer
open Foundation

inductive Thrown where
  | runtimeError (what : StdString)
  | outOfRange
deriving DecidableEq, Repr

-- One call of the end-of-game callback: its argument, and the players map it sees.
structure Ending where
  winner : UserId
  players : UnorderedMap UserId PlayerRuntimeState

structure Battle where
  runtime : RuntimeData
  endings : List Ending

-- The order in which a loop over an unordered map meets its keys.
structure Iteration where
  order : UnorderedMap UserId PlayerRuntimeState → List UserId
  complete : ∀ players, (order players).Perm players.keys

namespace RuntimeData

def clearTilesOfPlayer (rt : RuntimeData) (playerId : UserId) : RuntimeData :=
  let clear (tile : TileData) : TileData :=
    if tile.owner = playerId then { tile with owner := 0, value := 0, countered := false, acted := false } else tile
  { rt with mapData := { rt.mapData with tiles := rt.mapData.tiles.map clear } }

structure EndScan where
  runtime : RuntimeData
  singlePlayerLeft : Bool
  lastPlayerId : UInt64

def scanPlayer (scan : EndScan) (playerId : UserId) : EndScan :=
  if (scan.runtime.player playerId).failure then
    let other := scan.lastPlayerId ≠ 0 && scan.lastPlayerId ≠ playerId.toUInt64
    let scan := { scan with
      singlePlayerLeft := scan.singlePlayerLeft && !other
      lastPlayerId := playerId.toUInt64 }
    if (scan.runtime.player playerId).baseCount = 0 then
      let failed := scan.runtime.setPlayer playerId fun state => { state with failure := true }
      { scan with runtime := failed.clearTilesOfPlayer playerId }
    else scan
  else scan

-- GameRoom always installs the callback, so only the flag decides.
def gameEndCheck (iteration : Iteration) (b : Battle) : Battle :=
  let scan := (iteration.order b.runtime.players).foldl scanPlayer ⟨b.runtime,true,0⟩
  { runtime := scan.runtime
    endings := if scan.singlePlayerLeft
      then b.endings ++ [⟨scan.lastPlayerId.toUInt32,scan.runtime.players⟩] else b.endings }

def gainResource (rt : RuntimeData) (playerId : UserId) : RuntimeData :=
  rt.setPlayer playerId fun state => { state with resources := state.resources + 1 }

def loseResource (rt : RuntimeData) (playerId : UserId) : RuntimeData :=
  rt.setPlayer playerId fun state => { state with resources := state.resources - 1 }

def gainBase (rt : RuntimeData) (playerId : UserId) : RuntimeData :=
  rt.setPlayer playerId fun state => { state with baseCount := state.baseCount + 1 }

def loseBase (rt : RuntimeData) (playerId : UserId) : RuntimeData :=
  rt.setPlayer playerId fun state => { state with baseCount := state.baseCount - 1 }

def setOwner (rt : RuntimeData) (place : Nat) (owner : UserId) : RuntimeData :=
  rt.setTile place fun tile => { tile with owner := owner }

def move (rt : RuntimeData) (src dst : Nat) (playerId : UserId) : RuntimeData :=
  let rt := rt.setTile src fun tile => { tile with value := 1 }
  let rt := rt.setTile src fun tile => { tile with acted := true }
  let rt := rt.setOwner dst (rt.tile src).owner
  let rt := rt.setTile dst fun tile => { tile with value := tile.value + ((rt.tile src).value - 1) }
  let rt := (rt.touch playerId).gainResource playerId
  if (rt.tile dst).type = .base then rt.gainBase playerId else rt

-- The attacker outnumbers the defender. `owner1` and `owner2` are the keys under
-- which player_state1 and player_state2 were taken.
def attackWon (iteration : Iteration) (rt : RuntimeData) (src dst : Nat) (owner1 owner2 : UserId) : Battle :=
  let rt := rt.setTile src fun tile => { tile with value := 1 }
  let rt := rt.setTile dst fun tile => { tile with value := tile.value - (rt.tile src).value - 1 }
  let rt := if (rt.tile dst).value > 0
    then ((rt.setOwner dst (rt.tile src).owner).gainResource owner1).loseResource owner2
    else (rt.setOwner dst 0).loseResource owner2
  if (rt.tile dst).type = .base then
    let rt := if (rt.tile dst).owner = (rt.tile src).owner then rt.gainBase owner1 else rt
    gameEndCheck iteration ⟨rt.loseBase owner2,[]⟩
  else ⟨rt,[]⟩

-- The defender strikes back once; after that the attacker only spends its turn.
def counterStrike (iteration : Iteration) (rt : RuntimeData) (src dst : Nat) (owner1 : UserId) : Battle :=
  if (rt.tile dst).countered = false then
    let rt := rt.setTile dst fun tile => { tile with countered := true }
    let rt := rt.setTile src fun tile => { tile with value := 0 }
    let rt := (rt.setOwner src 0).loseResource owner1
    if (rt.tile src).type = .base then gameEndCheck iteration ⟨rt.loseBase owner1,[]⟩ else ⟨rt,[]⟩
  else ⟨rt.setTile src fun tile => { tile with acted := true },[]⟩

def attackLost (iteration : Iteration) (b : Battle) (src dst : Nat) (owner1 owner2 : UserId) : Battle :=
  let rt := b.runtime.setTile dst fun tile => { tile with value := tile.value - (b.runtime.tile src).value }
  if (rt.tile dst).value = 0 then
    let rt := ((rt.setOwner dst 0).loseResource owner1).loseResource owner2
    if (rt.tile dst).type = .base then gameEndCheck iteration ⟨rt.loseBase owner2,b.endings⟩ else ⟨rt,b.endings⟩
  else ⟨rt,b.endings⟩

def attack (iteration : Iteration) (rt : RuntimeData) (src dst : Nat) : Battle :=
  let owner1 := (rt.tile src).owner
  let owner2 := (rt.tile dst).owner
  let rt := (rt.touch owner1).touch owner2
  if (rt.tile src).value > (rt.tile dst).value then attackWon iteration rt src dst owner1 owner2
  else attackLost iteration (counterStrike iteration rt src dst owner1) src dst owner1 owner2

def grow (rt : RuntimeData) (dst : Nat) (amount : Int32) : RuntimeData :=
  rt.setTile dst fun tile => { tile with value := tile.value + amount.toUInt32 }

-- tiles.at(param): the bounds-checked access.
def tileAt (rt : RuntimeData) (param : Int32) : Except Thrown TileData :=
  match rt.index param with
  | some place => .ok (rt.tile place)
  | none => .error .outOfRange

def validateCmd (rt : RuntimeData) (cmd : BattleCmd) : Except Thrown Bool :=
  match cmd.type with
  | .move => do
    let src ← rt.tileAt cmd.param1
    let dst ← rt.tileAt cmd.param2
    return cmd.param1 ≠ cmd.param2 && src.owner.toUInt64 = cmd.playerId && dst.owner.toUInt64 = cmd.playerId
      && src.value > 1
  | .attack => do
    let src ← rt.tileAt cmd.param1
    let dst ← rt.tileAt cmd.param2
    return cmd.param1 ≠ cmd.param2 && src.owner.toUInt64 = cmd.playerId && dst.owner.toUInt64 ≠ cmd.playerId
      && src.value > 1
  | .grow => do
    let dst ← rt.tileAt cmd.param1
    return cmd.playerId = dst.owner.toUInt64 && dst.value > 0
  | .other _ => return false

inductive Outcome where
  | done (b : Battle)
  | thrown (error : Thrown) (rt : RuntimeData)
  | undefined

-- The accesses of the switch are unchecked: outside the vector they are undefined.
def processCommand (iteration : Iteration) (rt : RuntimeData) (cmd : BattleCmd) : Outcome :=
  match rt.validateCmd cmd with
  | .error error => .thrown error rt
  | .ok false => .thrown (.runtimeError (stdString "invalid command")) rt
  | .ok true =>
    match cmd.type with
    | .move =>
      match rt.index cmd.param1,rt.index cmd.param2 with
      | some src,some dst => .done ⟨rt.move src dst cmd.playerId.toUInt32,[]⟩
      | _,_ => .undefined
    | .attack =>
      match rt.index cmd.param1,rt.index cmd.param2 with
      | some src,some dst => .done (rt.attack iteration src dst)
      | _,_ => .undefined
    | .grow =>
      match rt.index cmd.param1 with
      | some dst => .done ⟨rt.grow dst cmd.param2,[]⟩
      | none => .undefined
    | .other _ => .thrown (.runtimeError (stdString "unknown command type")) rt

def seatPlayers (players : UnorderedMap UserId PlayerRuntimeState) (seat : Nat) :
    List GamePlayerInfo → UnorderedMap UserId PlayerRuntimeState
  | [] => players
  | info :: rest =>
    let state : PlayerRuntimeState := { playerId := info.bInfo.userId, seatIndex := UInt32.ofNat seat }
    seatPlayers (AList.insert info.bInfo.userId state players) (seat + 1) rest

end RuntimeData

structure GameCmdHandler where
  roomId : RoomId
  ticking : Bool := false
  tickInterval : Nat := 50
  runtime : RuntimeData := {}

namespace GameCmdHandler

def create (roomId : RoomId) : GameCmdHandler := { roomId }

def startTicking (h : GameCmdHandler) (interval : Nat) : GameCmdHandler :=
  if h.ticking then h else { h with tickInterval := interval, ticking := true }

def stopTicking (h : GameCmdHandler) : GameCmdHandler := { h with ticking := false }

def initGameState (h : GameCmdHandler) : GameCmdHandler := { h with runtime := { h.runtime with players := ∅ } }

def tick (h : GameCmdHandler) (deltaMs : UInt64) : GameCmdHandler :=
  { h with runtime := { h.runtime with tick := h.runtime.tick + deltaMs } }

-- `loadMapData` is what GameMap::LoadMapData answers at this moment, a null
-- pointer being none. A throw leaves the map name behind.
def startGame (h : GameCmdHandler) (loadMapData : StdString → Option MapData) (info : MatchInfo) :
    Option Thrown × GameCmdHandler :=
  let named := { h.runtime with mapName := info.selectedMapPath }
  match loadMapData info.selectedMapPath with
  | none => (some (.runtimeError (stdString "Failed to load map data for: " ++ info.selectedMapPath)),
      { h with runtime := named })
  | some mapData => (none,{ h with runtime := { named with
      mapData := mapData
      currentPlayerId := info.ownerId
      tick := 0
      players := RuntimeData.seatPlayers named.players 0 info.players } })

end GameCmdHandler

end GameServer
