import GameServer.BattleRules

namespace GameServer
open Foundation

namespace GameCmdHandler

-- What happens to a handler before a match, as far as its runtime is concerned.
inductive Event where
  | startTicking (interval : Nat)
  | stopTicking
  | initGameState
  | tick (deltaMs : UInt64)
  | startGame (loadMapData : StdString → Option MapData) (info : MatchInfo)
  | command (iteration : Iteration) (cmd : BattleCmd)

def step (h : GameCmdHandler) : Event → Option GameCmdHandler
  | .startTicking interval => some (h.startTicking interval)
  | .stopTicking => some h.stopTicking
  | .initGameState => some h.initGameState
  | .tick deltaMs => some (h.tick deltaMs)
  | .startGame loadMapData info => some (h.startGame loadMapData info).2
  | .command iteration cmd =>
    match h.runtime.processCommand iteration cmd with
    | .done b => some { h with runtime := b.runtime }
    | .thrown _ rt => some { h with runtime := rt }
    | .undefined => none

end GameCmdHandler

-- One call of ProcessCommand during a match; a refused one throws.
structure Command where
  iteration : Iteration
  cmd : BattleCmd

namespace Battle
open RuntimeData

def step (b : Battle) (c : Command) : Option Battle :=
  match b.runtime.processCommand c.iteration c.cmd with
  | .done next => some ⟨next.runtime,b.endings ++ next.endings⟩
  | .thrown _ rt => some ⟨rt,b.endings⟩
  | .undefined => none

theorem step_cases {b next : Battle} {c : Command} (stepped : b.step c = some next) :
    (¬ b.runtime.Accepted c.cmd ∧ next = b) ∨ (b.runtime.Accepted c.cmd ∧ ∃ played,
      Taken c.iteration b.runtime c.cmd played ∧ next = ⟨played.runtime,b.endings ++ played.endings⟩) := by
  rcases processCommand_cases c.iteration b.runtime c.cmd with ⟨refused,error,result⟩ | ⟨accepted,played,result,taken⟩
  · rw [step,result] at stepped
    cases stepped
    exact Or.inl ⟨refused,rfl⟩
  · rw [step,result] at stepped
    cases stepped
    exact Or.inr ⟨accepted,played,taken,rfl⟩

theorem step_total (b : Battle) (c : Command) : ∃ next, b.step c = some next := by
  rcases processCommand_cases c.iteration b.runtime c.cmd with ⟨_,error,result⟩ | ⟨_,played,result,_⟩ <;>
    exact ⟨_,by rw [step,result]⟩

theorem taken_calm {rt : RuntimeData} (calm : rt.Calm) {cmd : BattleCmd} {iteration : Iteration} {b : Battle}
    (taken : Taken iteration rt cmd b) : b.runtime.Calm := by
  cases taken with
  | move type first second different ownSrc ownDst strong =>
    exact (move_moved calm different (index_bound rt first).1 (index_bound rt second).1 ownSrc ownDst).calm
  | attack type first second facing own => exact (attack_resolved calm facing iteration).calm
  | grow type first own alive => exact calm

theorem step_calm {b next : Battle} {c : Command} (calm : b.runtime.Calm) (stepped : b.step c = some next) :
    next.runtime.Calm := by
  rcases step_cases stepped with ⟨_,rfl⟩ | ⟨_,played,taken,rfl⟩
  · exact calm
  · have after := taken_calm calm taken
    exact after

end Battle

namespace GameCmdHandler
open RuntimeData

def ids (info : MatchInfo) : List UserId := info.players.map (·.bInfo.userId)

section Seats
variable {players : UnorderedMap UserId PlayerRuntimeState} {seat : Nat} {infos : List GamePlayerInfo} {id : UserId}

theorem seated_absent (absent : id ∉ infos.map (·.bInfo.userId)) :
    (seatPlayers players seat infos).lookup id = players.lookup id := by
  induction infos generalizing players seat with
  | nil => rfl
  | cons info rest ih =>
    simp only [List.map_cons,List.mem_cons,not_or] at absent
    rw [seatPlayers,ih absent.2,UnorderedMap.lookup_insert_eq,if_neg absent.1]

theorem seated_present (present : id ∈ infos.map (·.bInfo.userId)) :
    ∃ place, (seatPlayers players seat infos).lookup id = some { playerId := id, seatIndex := place } := by
  induction infos generalizing players seat with
  | nil => cases present
  | cons info rest ih =>
    rw [seatPlayers]
    by_cases later : id ∈ rest.map (·.bInfo.userId)
    · exact ih later
    · rw [seated_absent later,UnorderedMap.lookup_insert_eq]
      rcases List.mem_cons.mp present with same | other
      · exact ⟨_,by rw [if_pos same,same]⟩
      · exact absurd other later

theorem seatPlayers_calm {rt : RuntimeData} (calm : rt.Calm) (infos : List GamePlayerInfo) :
    Calm { rt with players := seatPlayers rt.players 0 infos } := by
  intro id
  by_cases present : id ∈ infos.map (·.bInfo.userId)
  · have seated : ∃ place, (seatPlayers rt.players 0 infos).lookup id =
        some { playerId := id, seatIndex := place } := seated_present present
    obtain ⟨place,found⟩ := seated
    simp [player,found]
  · have kept := calm id
    simp only [player] at kept ⊢
    rw [seated_absent present]
    exact kept

end Seats

theorem startGame_started {h next : GameCmdHandler} {loadMapData : StdString → Option MapData} {info : MatchInfo}
    (started : h.startGame loadMapData info = (none,next)) :
    ∃ mapData, loadMapData info.selectedMapPath = some mapData ∧ next.runtime = { h.runtime with
      mapName := info.selectedMapPath, mapData := mapData, currentPlayerId := info.ownerId, tick := 0,
      players := seatPlayers h.runtime.players 0 info.players } := by
  unfold startGame at started
  cases loaded : loadMapData info.selectedMapPath with
  | none => rw [loaded] at started; cases started
  | some mapData => rw [loaded] at started; cases started; exact ⟨mapData,rfl,rfl⟩

theorem startGame_calm {h : GameCmdHandler} (calm : h.runtime.Calm) (loadMapData : StdString → Option MapData)
    (info : MatchInfo) : (h.startGame loadMapData info).2.runtime.Calm := by
  unfold startGame
  cases loadMapData info.selectedMapPath with
  | none => exact calm
  | some mapData => exact seatPlayers_calm calm info.players

theorem step_calm {h next : GameCmdHandler} {event : Event} (calm : h.runtime.Calm)
    (stepped : h.step event = some next) : next.runtime.Calm := by
  cases event with
  | startTicking interval => cases stepped; unfold startTicking; split <;> exact calm
  | stopTicking => cases stepped; exact calm
  | initGameState => cases stepped; intro id; rfl
  | tick deltaMs => cases stepped; exact calm
  | startGame loadMapData info => cases stepped; exact startGame_calm calm loadMapData info
  | command iteration cmd =>
    rcases processCommand_cases iteration h.runtime cmd with ⟨_,error,result⟩ | ⟨_,played,result,taken⟩
    · rw [step,result] at stepped; cases stepped; exact calm
    · rw [step,result] at stepped; cases stepped; exact Battle.taken_calm calm taken

theorem run_calm {roomId : RoomId} {history : List Event} {h : GameCmdHandler}
    (path : Machine.run step (create roomId) history = some h) : h.runtime.Calm := by
  have kept : ∀ (s : GameCmdHandler) event next, s.runtime.Calm → s.step event = some next → next.runtime.Calm :=
    fun _ _ _ calm stepped => step_calm calm stepped
  have start : (create roomId).runtime.Calm := fun _ => rfl
  exact Machine.run_preserves kept start path

end GameCmdHandler
end GameServer
