import GameServer.Elimination
import GameServer.TileAccess

namespace GameServer
open Foundation

-- What belongs to the map and not to the match.
structure Ground where
  tileId : UInt32
  type : TileType
  roundType : UInt8
  isDisconnected : Bool

def TileData.ground (tile : TileData) : Ground := ⟨tile.tileId,tile.type,tile.roundType,tile.isDisconnected⟩

namespace RuntimeData

-- All that may differ from one state to the next: the tiles at `places`, the
-- entries of `owners`, and the tiles of those who have lost.
structure Framed (places : Set Nat) (owners : Set UserId) (rt next : RuntimeData) : Prop where
  course : next.mapName = rt.mapName ∧ next.tick = rt.tick ∧ next.currentPlayerId = rt.currentPlayerId
  extent : next.mapData.width = rt.mapData.width ∧ next.mapData.height = rt.mapData.height
  size : next.mapData.tiles.length = rt.mapData.tiles.length
  grounds : ∀ place, (next.tile place).ground = (rt.tile place).ground
  elsewhere : ∀ place ∉ places, next.tile place = rt.tile place ∨ (next.player (rt.tile place).owner).failure = true
  entries : ∀ id ∉ owners, next.players.lookup id = rt.players.lookup id
  flags : ∀ id, (next.player id).failure = (rt.player id).failure

theorem tile_outside {rt : RuntimeData} {place : Nat} (outside : rt.mapData.tiles.length ≤ place) : rt.tile place = default := by
  rw [tile,List.getD_eq_getElem?_getD,List.getElem?_eq_none outside]
  rfl

theorem cull_place (rt : RuntimeData) (place : Nat) : rt.cull.tile place = rt.tile place ∨
    (rt.Doomed (rt.tile place).owner ∧ rt.cull.tile place = vacated (rt.tile place)) := by
  by_cases inside : place < rt.mapData.tiles.length
  · rw [cull_tile inside]
    split
    · rename_i doomed
      exact Or.inr ⟨doomed,rfl⟩
    · exact Or.inl rfl
  · have outside := Nat.le_of_not_lt inside
    have after : rt.cull.mapData.tiles.length ≤ place := by rwa [cull_length]
    rw [tile_outside outside,tile_outside after]
    exact Or.inl rfl

namespace Framed
variable {places : Set Nat} {owners : Set UserId} {start rt next : RuntimeData} {place : Nat} {id owner : UserId}

theorem refl (places : Set Nat) (owners : Set UserId) (rt : RuntimeData) : Framed places owners rt rt :=
  ⟨⟨rfl,rfl,rfl⟩,⟨rfl,rfl⟩,rfl,fun _ => rfl,fun _ _ => Or.inl rfl,fun _ _ => rfl,fun _ => rfl⟩

theorem trans (left : Framed places owners start rt) (right : Framed places owners rt next) :
    Framed places owners start next := by
  obtain ⟨name,ticks,current⟩ := right.course
  obtain ⟨width,height⟩ := right.extent
  refine ⟨⟨name.trans left.course.1,ticks.trans left.course.2.1,current.trans left.course.2.2⟩,
    ⟨width.trans left.extent.1,height.trans left.extent.2⟩,right.size.trans left.size,?_,?_,?_,?_⟩
  · intro place
    exact (right.grounds place).trans (left.grounds place)
  · intro place outside
    -- Who had lost half-way still has.
    rcases left.elsewhere place outside with same | lost
    · rw [← same]
      exact right.elsewhere place outside
    · exact Or.inr ((right.flags _).trans lost)
  · intro id other
    exact (right.entries id other).trans (left.entries id other)
  · intro id
    exact (right.flags id).trans (left.flags id)

theorem setTile {change : TileData → TileData} (framed : Framed places owners start rt) (here : place ∈ places)
    (kept : ∀ tile, (change tile).ground = tile.ground) : Framed places owners start (rt.setTile place change) := by
  by_cases inside : place < rt.mapData.tiles.length
  · refine framed.trans ⟨⟨rfl,rfl,rfl⟩,⟨rfl,rfl⟩,setTile_length rt place change,?_,?_,fun _ _ => rfl,fun _ => rfl⟩
    · intro other
      rw [setTile_tile rt place other change inside]
      split
      · rename_i same
        rw [same]
        exact kept _
      · rfl
    · intro other outside
      have apart : other ≠ place := fun same => outside (same ▸ here)
      rw [setTile_tile rt place other change inside,if_neg apart]
      exact Or.inl rfl
  · have same : rt.setTile place change = rt := by
      simp only [RuntimeData.setTile]
      rw [List.set_eq_of_length_le (Nat.le_of_not_lt inside)]
    rw [same]
    exact framed

theorem setOwner (framed : Framed places owners start rt) (here : place ∈ places) :
    Framed places owners start (rt.setOwner place owner) := framed.setTile here fun _ => rfl

theorem touch (framed : Framed places owners start rt) (ours : id ∈ owners) : Framed places owners start (rt.touch id) := by
  refine framed.trans ⟨⟨rfl,rfl,rfl⟩,⟨rfl,rfl⟩,rfl,fun _ => rfl,fun _ _ => Or.inl rfl,?_,?_⟩
  · intro other outside
    have apart : other ≠ id := fun same => outside (same ▸ ours)
    rw [RuntimeData.touch,UnorderedMap.lookup_insertNew,if_neg apart]
  · intro user
    rw [touch_player]

theorem setPlayer {change : PlayerRuntimeState → PlayerRuntimeState} (framed : Framed places owners start rt)
    (ours : id ∈ owners) (kept : ∀ state, (change state).failure = state.failure) :
    Framed places owners start (rt.setPlayer id change) := by
  refine framed.trans ⟨⟨rfl,rfl,rfl⟩,⟨rfl,rfl⟩,rfl,fun _ => rfl,fun _ _ => Or.inl rfl,?_,?_⟩
  · intro other outside
    have apart : other ≠ id := fun same => outside (same ▸ ours)
    rw [RuntimeData.setPlayer,UnorderedMap.lookup_modify,if_neg apart]
  · intro user
    exact setPlayer_keeps PlayerRuntimeState.failure kept

theorem gainResource (framed : Framed places owners start rt) (ours : id ∈ owners) :
    Framed places owners start (rt.gainResource id) := framed.setPlayer ours fun _ => rfl

theorem loseResource (framed : Framed places owners start rt) (ours : id ∈ owners) :
    Framed places owners start (rt.loseResource id) := framed.setPlayer ours fun _ => rfl

theorem gainBase (framed : Framed places owners start rt) (ours : id ∈ owners) :
    Framed places owners start (rt.gainBase id) := framed.setPlayer ours fun _ => rfl

theorem loseBase (framed : Framed places owners start rt) (ours : id ∈ owners) :
    Framed places owners start (rt.loseBase id) := framed.setPlayer ours fun _ => rfl

theorem gameEndCheck {b : Battle} (framed : Framed places owners start b.runtime) (iteration : Iteration) :
    Framed places owners start (gameEndCheck iteration b).runtime := by
  rw [gameEndCheck_runtime]
  refine framed.trans ⟨⟨rfl,rfl,rfl⟩,⟨rfl,rfl⟩,cull_length,?_,?_,fun _ _ => rfl,fun _ => rfl⟩
  · intro place
    rcases cull_place b.runtime place with same | ⟨_,cleared⟩
    · rw [same]
    · rw [cleared]
      rfl
  · intro place _
    rcases cull_place b.runtime place with same | ⟨doomed,_⟩
    · exact Or.inl same
    · exact Or.inr doomed.1

section Commands
variable {src dst : Nat} {owner1 owner2 : UserId}

theorem move (framed : Framed places owners start rt) (atSrc : src ∈ places) (atDst : dst ∈ places) (ours : id ∈ owners) :
    Framed places owners start (rt.move src dst id) := by
  unfold RuntimeData.move
  dsimp only
  split
  · refine gainBase ?_ ours
    refine gainResource (touch ?_ ours) ours
    refine setTile (setOwner ?_ atDst) atDst fun _ => rfl
    exact setTile (setTile framed atSrc fun _ => rfl) atSrc fun _ => rfl
  · refine gainResource (touch ?_ ours) ours
    refine setTile (setOwner ?_ atDst) atDst fun _ => rfl
    exact setTile (setTile framed atSrc fun _ => rfl) atSrc fun _ => rfl

theorem grow (framed : Framed places owners start rt) (atDst : dst ∈ places) (amount : Int32) :
    Framed places owners start (rt.grow dst amount) := setTile framed atDst fun _ => rfl

theorem counterStrike (framed : Framed places owners start rt) (atSrc : src ∈ places) (atDst : dst ∈ places)
    (ours : owner1 ∈ owners) (iteration : Iteration) :
    Framed places owners start (counterStrike iteration rt src dst owner1).runtime := by
  unfold RuntimeData.counterStrike
  dsimp only
  split
  · have struck : Framed places owners start ((((rt.setTile dst fun tile => { tile with countered := true }).setTile src
        fun tile => { tile with value := 0 }).setOwner src 0).loseResource owner1) := by
      refine loseResource (setOwner ?_ atSrc) ours
      exact setTile (setTile framed atDst fun _ => rfl) atSrc fun _ => rfl
    split
    · exact gameEndCheck (struck.loseBase ours) iteration
    · exact struck
  · dsimp only
    exact setTile framed atSrc fun _ => rfl

theorem attackLost {b : Battle} (framed : Framed places owners start b.runtime) (atDst : dst ∈ places)
    (first : owner1 ∈ owners) (second : owner2 ∈ owners) (iteration : Iteration) :
    Framed places owners start (attackLost iteration b src dst owner1 owner2).runtime := by
  unfold RuntimeData.attackLost
  dsimp only
  have weakened : Framed places owners start (b.runtime.setTile dst fun tile =>
      { tile with value := tile.value - (b.runtime.tile src).value }) := setTile framed atDst fun _ => rfl
  split
  · split
    · refine gameEndCheck (loseBase ?_ second) iteration
      exact ((weakened.setOwner atDst).loseResource first).loseResource second
    · exact ((weakened.setOwner atDst).loseResource first).loseResource second
  · exact weakened

theorem attack (atSrc : src ∈ places) (atDst : dst ∈ places) (first : (rt.tile src).owner ∈ owners)
    (second : (rt.tile dst).owner ∈ owners) (iteration : Iteration) :
    Framed places owners rt (rt.attack iteration src dst).runtime := by
  have entered : Framed places owners rt (rt.entered src dst) := ((refl places owners rt).touch first).touch second
  by_cases stronger : (rt.tile src).value > (rt.tile dst).value
  · have fought : Framed places owners rt (rt.fought src dst) := by
      unfold RuntimeData.fought
      exact setTile (setTile entered atSrc fun _ => rfl) atDst fun _ => rfl
    have taken : Framed places owners rt (rt.taken src dst) := by
      unfold RuntimeData.taken
      dsimp only
      split
      · exact ((fought.setOwner atDst).gainResource first).loseResource second
      · exact (fought.setOwner atDst).loseResource second
    have captured : Framed places owners rt (rt.captured src dst) := by
      unfold RuntimeData.captured
      split
      · exact taken.gainBase first
      · exact taken
    rw [attack_won stronger]
    split
    · apply gameEndCheck
      exact captured.loseBase second
    · exact taken
  · rw [attack_lost stronger]
    apply attackLost _ atDst first second
    exact counterStrike entered atSrc atDst first iteration

end Commands

end Framed

section Locality
variable {rt : RuntimeData} {cmd : BattleCmd} {iteration : Iteration} {b : Battle}

def commandPlaces (rt : RuntimeData) (cmd : BattleCmd) : Set Nat := { place | some place ∈ rt.accessed cmd }

def formerOwners (rt : RuntimeData) (cmd : BattleCmd) : Set UserId :=
  { id | ∃ place ∈ rt.commandPlaces cmd, (rt.tile place).owner = id }

theorem mem_commandPlaces {place : Nat} : place ∈ rt.commandPlaces cmd ↔ some place ∈ rt.accessed cmd := Iff.rfl

theorem taken_framed (taken : Taken iteration rt cmd b) :
    Framed (rt.commandPlaces cmd) (rt.formerOwners cmd) rt b.runtime := by
  have start := Framed.refl (rt.commandPlaces cmd) (rt.formerOwners cmd) rt
  cases taken with
  | @move src dst type first second _ ownSrc =>
    have atSrc : src ∈ rt.commandPlaces cmd := by simp [mem_commandPlaces,accessed,type,first]
    have atDst : dst ∈ rt.commandPlaces cmd := by simp [mem_commandPlaces,accessed,type,second]
    exact start.move atSrc atDst ⟨src,atSrc,ownSrc⟩
  | @attack src dst type first second =>
    have atSrc : src ∈ rt.commandPlaces cmd := by simp [mem_commandPlaces,accessed,type,first]
    have atDst : dst ∈ rt.commandPlaces cmd := by simp [mem_commandPlaces,accessed,type,second]
    refine Framed.attack atSrc atDst ?_ ?_ iteration
    · exact ⟨src,atSrc,rfl⟩
    · exact ⟨dst,atDst,rfl⟩
  | @grow dst type first =>
    have atDst : dst ∈ rt.commandPlaces cmd := by simp [mem_commandPlaces,accessed,type,first]
    exact start.grow atDst cmd.param2

-- What a command leaves alone.
structure LocalTo (rt : RuntimeData) (cmd : BattleCmd) (next : RuntimeData) : Prop where
  width : next.mapData.width = rt.mapData.width
  height : next.mapData.height = rt.mapData.height
  size : next.mapData.tiles.length = rt.mapData.tiles.length
  grounds : ∀ place < rt.mapData.tiles.length, (next.tile place).tileId = (rt.tile place).tileId ∧
    (next.tile place).type = (rt.tile place).type ∧ (next.tile place).roundType = (rt.tile place).roundType ∧
    (next.tile place).isDisconnected = (rt.tile place).isDisconnected
  mapName : next.mapName = rt.mapName
  tick : next.tick = rt.tick
  currentPlayerId : next.currentPlayerId = rt.currentPlayerId
  elsewhere : ∀ place < rt.mapData.tiles.length, some place ∉ rt.accessed cmd → next.tile place = rt.tile place ∨
    ∃ state, next.players.lookup (rt.tile place).owner = some state ∧ state.failure = true
  bystanders : ∀ id, id.toUInt64 ≠ cmd.playerId → (∀ place, some place ∈ rt.accessed cmd → (rt.tile place).owner ≠ id) →
    next.players.lookup id = rt.players.lookup id

theorem failed_entry {id : UserId} (failed : (rt.player id).failure = true) :
    ∃ state, rt.players.lookup id = some state ∧ state.failure = true := by
  unfold player at failed
  cases found : rt.players.lookup id with
  | none => rw [found] at failed; cases failed
  | some state => rw [found] at failed; exact ⟨state,rfl,failed⟩

theorem framed_local {next : RuntimeData} (framed : Framed (rt.commandPlaces cmd) (rt.formerOwners cmd) rt next) :
    LocalTo rt cmd next where
  width := framed.extent.1
  height := framed.extent.2
  size := framed.size
  grounds := by
    intro place _
    have same := framed.grounds place
    simpa only [TileData.ground,Ground.mk.injEq] using same
  mapName := framed.course.1
  tick := framed.course.2.1
  currentPlayerId := framed.course.2.2
  elsewhere := by
    intro place _ outside
    exact (framed.elsewhere place outside).imp_right failed_entry
  bystanders := by
    intro id _ uninvolved
    refine framed.entries id ?_
    rintro ⟨place,here,own⟩
    exact uninvolved place here own

-- Whatever is accepted is played out on its own tiles and by their owners; the
-- rest of the match changes only where losers are swept off the board.
theorem commands_local (iteration : Iteration) (rt : RuntimeData) (cmd : BattleCmd) (accepted : rt.Accepted cmd) :
    ∃ b, processCommand iteration rt cmd = .done b ∧ LocalTo rt cmd b.runtime := by
  rcases processCommand_cases iteration rt cmd with ⟨refused,_⟩ | ⟨_,b,result,taken⟩
  · exact absurd accepted refused
  · exact ⟨b,result,framed_local (taken_framed taken)⟩

theorem duel_attack_local : ∃ b, processCommand Battle.keyOrder Battle.duelStart.runtime ⟨1,.attack,0,2⟩ = .done b ∧
    LocalTo Battle.duelStart.runtime ⟨1,.attack,0,2⟩ b.runtime :=
  commands_local Battle.keyOrder Battle.duelStart.runtime ⟨1,.attack,0,2⟩ rfl

end Locality
end RuntimeData
end GameServer
