import GameServer.MatchRun

namespace GameServer
open Foundation

namespace RuntimeData

-- The tiles ProcessCommand takes references to, in the order of its parameters.
def accessed (rt : RuntimeData) (cmd : BattleCmd) : List (Option Nat) :=
  match cmd.type with
  | .move | .attack => [rt.index cmd.param1,rt.index cmd.param2]
  | .grow => [rt.index cmd.param1]
  | .other _ => []

def withTile (rt : RuntimeData) (place : Nat) (tile : TileData) : RuntimeData := rt.setTile place fun _ => tile

end RuntimeData

def Battle.withTile (b : Battle) (place : Nat) (tile : TileData) : Battle := { b with runtime := b.runtime.withTile place tile }

namespace RuntimeData

-- Whatever stands at the place, the command does the same and leaves it there:
-- the tile is neither read nor modified.
def Untouched (iteration : Iteration) (rt : RuntimeData) (cmd : BattleCmd) (place : Nat) : Prop :=
  ∀ tile, (rt.withTile place tile).Accepted cmd ∧ ∀ b, processCommand iteration rt cmd = .done b →
    processCommand iteration (rt.withTile place tile) cmd = .done (b.withTile place tile)

section Elsewhere
variable {rt : RuntimeData} {place other src dst : Nat} {tile : TileData} {id : UserId}

theorem withTile_tile (elsewhere : other ≠ place) : (rt.withTile place tile).tile other = rt.tile other := by
  simp [withTile,setTile,RuntimeData.tile,List.getD_eq_getElem?_getD,elsewhere.symm]

theorem withTile_index (param : Int32) : (rt.withTile place tile).index param = rt.index param := by
  simp [withTile,setTile,index]

theorem setTile_withTile {change : TileData → TileData} (elsewhere : other ≠ place) :
    (rt.withTile place tile).setTile other change = (rt.setTile other change).withTile place tile := by
  have kept : (rt.withTile place tile).tile other = rt.tile other := withTile_tile elsewhere
  unfold setTile
  rw [kept]
  simp only [withTile,setTile]
  rw [List.set_comm _ _ elsewhere.symm]

theorem setOwner_withTile {owner : UserId} (elsewhere : other ≠ place) :
    (rt.withTile place tile).setOwner other owner = (rt.setOwner other owner).withTile place tile :=
  setTile_withTile elsewhere

theorem touch_withTile : (rt.withTile place tile).touch id = (rt.touch id).withTile place tile := rfl
theorem gainResource_withTile : (rt.withTile place tile).gainResource id = (rt.gainResource id).withTile place tile := rfl
theorem loseResource_withTile : (rt.withTile place tile).loseResource id = (rt.loseResource id).withTile place tile := rfl
theorem gainBase_withTile : (rt.withTile place tile).gainBase id = (rt.gainBase id).withTile place tile := rfl
theorem loseBase_withTile : (rt.withTile place tile).loseBase id = (rt.loseBase id).withTile place tile := rfl

theorem move_withTile (notSrc : src ≠ place) (notDst : dst ≠ place) :
    (rt.withTile place tile).move src dst id = (rt.move src dst id).withTile place tile := by
  simp only [move,setTile_withTile notSrc,setOwner_withTile notDst,setTile_withTile notDst,withTile_tile notSrc,
    withTile_tile notDst,touch_withTile,gainResource_withTile,gainBase_withTile]
  split <;> rfl

theorem gameEndCheck_withTile (calm : rt.Calm) (iteration : Iteration) (endings : List Ending) :
    gameEndCheck iteration ⟨rt.withTile place tile,endings⟩ = (gameEndCheck iteration ⟨rt,endings⟩).withTile place tile := by
  have same : (rt.withTile place tile).Calm := calm
  rw [gameEndCheck_calm same,gameEndCheck_calm calm]
  rfl

theorem taken_withTile (notSrc : src ≠ place) (notDst : dst ≠ place) :
    (rt.withTile place tile).taken src dst = (rt.taken src dst).withTile place tile := by
  have fought : (rt.withTile place tile).fought src dst = (rt.fought src dst).withTile place tile := by
    simp only [RuntimeData.fought,entered,touch_withTile,setTile_withTile notSrc,setTile_withTile notDst,withTile_tile notSrc,
      withTile_tile notDst]
  simp only [taken,fought,withTile_tile notSrc,withTile_tile notDst,setOwner_withTile notDst]
  split <;> rfl

theorem captured_withTile (notSrc : src ≠ place) (notDst : dst ≠ place) :
    (rt.withTile place tile).captured src dst = (rt.captured src dst).withTile place tile := by
  simp only [captured,taken_withTile notSrc notDst,withTile_tile notSrc,withTile_tile notDst]
  split <;> rfl

theorem counterStrike_withTile (calm : rt.Calm) (notSrc : src ≠ place) (notDst : dst ≠ place) (iteration : Iteration) :
    counterStrike iteration (rt.withTile place tile) src dst id = (counterStrike iteration rt src dst id).withTile place tile := by
  simp only [counterStrike,withTile_tile notSrc,withTile_tile notDst,setTile_withTile notSrc,setTile_withTile notDst,
    setOwner_withTile notSrc,loseResource_withTile]
  split
  · split
    · rw [loseBase_withTile]
      apply gameEndCheck_withTile
      exact loseBase_calm (loseResource_calm calm)
    · rfl
  · rfl

theorem attackLost_withTile {b : Battle} (calm : b.runtime.Calm) (notSrc : src ≠ place) (notDst : dst ≠ place)
    (owner1 owner2 : UserId) (iteration : Iteration) :
    attackLost iteration (b.withTile place tile) src dst owner1 owner2 =
      (attackLost iteration b src dst owner1 owner2).withTile place tile := by
  simp only [attackLost,Battle.withTile,withTile_tile notSrc,withTile_tile notDst,setTile_withTile notDst,setOwner_withTile notDst,
    loseResource_withTile]
  split
  · split
    · rw [loseBase_withTile]
      apply gameEndCheck_withTile
      exact loseBase_calm (loseResource_calm (loseResource_calm calm))
    · rfl
  · rfl

theorem attack_withTile (calm : rt.Calm) (facing : Facing rt src dst) (notSrc : src ≠ place) (notDst : dst ≠ place)
    (iteration : Iteration) :
    (rt.withTile place tile).attack iteration src dst = (rt.attack iteration src dst).withTile place tile := by
  have atSrc : (rt.withTile place tile).tile src = rt.tile src := withTile_tile notSrc
  have atDst : (rt.withTile place tile).tile dst = rt.tile dst := withTile_tile notDst
  by_cases stronger : (rt.tile src).value > (rt.tile dst).value
  · rw [attack_won stronger,attack_won (by rw [atSrc,atDst]; exact stronger),taken_withTile notSrc notDst,
      captured_withTile notSrc notDst,withTile_tile notDst,atDst]
    split
    · rw [loseBase_withTile]
      apply gameEndCheck_withTile
      exact loseBase_calm (captured_calm calm facing)
    · rfl
  · have entered_ : (rt.withTile place tile).entered src dst = (rt.entered src dst).withTile place tile := by
      simp only [entered,atSrc,atDst,touch_withTile]
    rw [attack_lost stronger,attack_lost (by rw [atSrc,atDst]; exact stronger),atSrc,atDst,entered_,
      counterStrike_withTile (entered_calm calm) notSrc notDst]
    apply attackLost_withTile _ notSrc notDst
    exact counterStrike_calm (entered_calm calm) _ iteration

end Elsewhere

section Accesses
variable {rt : RuntimeData} {cmd : BattleCmd} {iteration : Iteration} {place : Nat} {tile : TileData}

theorem tileAt_withTile {param : Int32} (elsewhere : rt.index param ≠ some place) :
    (rt.withTile place tile).tileAt param = rt.tileAt param := by
  unfold tileAt
  rw [withTile_index]
  cases found : rt.index param with
  | none => rfl
  | some other =>
    have apart : other ≠ place := fun same => elsewhere (same ▸ found)
    exact congrArg Except.ok (withTile_tile apart)

theorem validateCmd_withTile (elsewhere : some place ∉ rt.accessed cmd) :
    (rt.withTile place tile).validateCmd cmd = rt.validateCmd cmd := by
  unfold accessed at elsewhere
  unfold validateCmd
  cases type : cmd.type with
  | move | attack =>
    simp only [type,List.mem_cons,List.not_mem_nil,or_false,not_or] at elsewhere
    dsimp only
    rw [tileAt_withTile (Ne.symm elsewhere.1),tileAt_withTile (Ne.symm elsewhere.2)]
  | grow =>
    simp only [type,List.mem_singleton] at elsewhere
    dsimp only
    rw [tileAt_withTile (Ne.symm elsewhere)]
  | other raw => rfl

theorem processCommand_untouched (calm : rt.Calm) (accepted : rt.Accepted cmd) (elsewhere : some place ∉ rt.accessed cmd) :
    Untouched iteration rt cmd place := by
  intro tile
  have validated : (rt.withTile place tile).validateCmd cmd = .ok true := (validateCmd_withTile elsewhere).trans accepted
  refine ⟨validated,?_⟩
  intro b done
  rcases processCommand_cases iteration rt cmd with ⟨refused,_⟩ | ⟨_,played,result,taken⟩
  · exact absurd accepted refused
  cases result.symm.trans done
  unfold accessed at elsewhere
  unfold processCommand
  rw [validated]
  dsimp only
  cases taken with
  | @move src dst type first second =>
    simp only [type,first,second,List.mem_cons,List.not_mem_nil,or_false,not_or,Option.some.injEq] at elsewhere
    simp only [type,withTile_index,first,second,move_withTile (Ne.symm elsewhere.1) (Ne.symm elsewhere.2)]
    rfl
  | @attack src dst type first second facing =>
    simp only [type,first,second,List.mem_cons,List.not_mem_nil,or_false,not_or,Option.some.injEq] at elsewhere
    simp only [type,withTile_index,first,second,
      attack_withTile calm facing (Ne.symm elsewhere.1) (Ne.symm elsewhere.2)]
  | @grow dst type first =>
    simp only [type,first,List.mem_singleton,Option.some.injEq] at elsewhere
    simp only [type,withTile_index,first,grow,setTile_withTile (Ne.symm elsewhere)]
    rfl

-- What the switch is entered with: both tiles exist, and they are two.
structure Guarded (rt : RuntimeData) (cmd : BattleCmd) : Prop where
  validated : rt.Accepted cmd
  inside : ∀ access ∈ rt.accessed cmd, ∃ place, access = some place ∧ place < rt.mapData.tiles.length
  different : cmd.type = .move ∨ cmd.type = .attack → ∀ src dst, rt.index cmd.param1 = some src →
    rt.index cmd.param2 = some dst → src ≠ dst

theorem pair_inside {src dst : Nat} (first : rt.index cmd.param1 = some src) (second : rt.index cmd.param2 = some dst) :
    ∀ access ∈ [rt.index cmd.param1,rt.index cmd.param2], ∃ place, access = some place ∧
      place < rt.mapData.tiles.length := by
  intro access member
  rcases List.mem_cons.mp member with rfl | other
  · exact ⟨src,first,(index_bound rt first).1⟩
  · cases List.mem_singleton.mp other
    exact ⟨dst,second,(index_bound rt second).1⟩

theorem pair_different {src dst : Nat} (first : rt.index cmd.param1 = some src) (second : rt.index cmd.param2 = some dst)
    (different : src ≠ dst) : ∀ one other, rt.index cmd.param1 = some one → rt.index cmd.param2 = some other → one ≠ other := by
  intro one other atOne atOther
  cases first.symm.trans atOne
  cases second.symm.trans atOther
  exact different

theorem taken_guarded {b : Battle} (accepted : rt.Accepted cmd) (taken : Taken iteration rt cmd b) : rt.Guarded cmd := by
  cases taken with
  | move type first second different =>
    refine ⟨accepted,?_,fun _ => pair_different first second different⟩
    unfold accessed
    rw [type]
    exact pair_inside first second
  | attack type first second facing =>
    refine ⟨accepted,?_,fun _ => pair_different first second facing.different⟩
    unfold accessed
    rw [type]
    exact pair_inside first second
  | grow type first =>
    refine ⟨accepted,?_,?_⟩
    · intro access member
      unfold accessed at member
      rw [type] at member
      cases List.mem_singleton.mp member
      exact ⟨_,first,(index_bound rt first).1⟩
    · intro pairs
      rw [type] at pairs
      rcases pairs with other | other <;> cases other

theorem accepted_guarded (accepted : rt.Accepted cmd) : rt.Guarded cmd := by
  have order : Iteration := ⟨fun players => players.keys,fun _ => List.Perm.refl _⟩
  rcases processCommand_cases order rt cmd with ⟨refused,_⟩ | ⟨_,b,_,taken⟩
  · exact absurd accepted refused
  · exact taken_guarded accepted taken

-- A command throws and leaves everything as it was, or it is carried out on
-- tiles that are there: no access runs off the vector.
theorem process_command_safe (iteration : Iteration) (rt : RuntimeData) (cmd : BattleCmd) :
    (∃ error, processCommand iteration rt cmd = .thrown error rt) ∨
      (rt.Guarded cmd ∧ ∃ b, processCommand iteration rt cmd = .done b) := by
  rcases processCommand_cases iteration rt cmd with ⟨_,refused⟩ | ⟨accepted,b,result,taken⟩
  · exact Or.inl refused
  · exact Or.inr ⟨taken_guarded accepted taken,b,result⟩

end Accesses

section Ids
variable {rt : RuntimeData}

def tileIds (rt : RuntimeData) : List UInt32 := rt.mapData.tiles.map (·.tileId)

theorem setTile_ids {place : Nat} {change : TileData → TileData} (kept : ∀ tile, (change tile).tileId = tile.tileId) :
    (rt.setTile place change).tileIds = rt.tileIds := setTile_map rt place change (·.tileId) (kept _)

theorem clear_ids (playerId : UserId) : (rt.clearTilesOfPlayer playerId).tileIds = rt.tileIds := by
  simp only [tileIds,clearTilesOfPlayer,List.map_map]
  apply List.map_congr_left
  intro tile _
  simp only [Function.comp]
  split <;> rfl

theorem scan_ids (ids : List UserId) (scan : EndScan) : (ids.foldl scanPlayer scan).runtime.tileIds = scan.runtime.tileIds := by
  induction ids generalizing scan with
  | nil => rfl
  | cons id rest ih =>
    rw [List.foldl_cons,ih]
    unfold scanPlayer
    split
    · dsimp only
      split
      · exact clear_ids id
      · rfl
    · rfl

theorem gameEndCheck_ids (iteration : Iteration) (b : Battle) :
    (gameEndCheck iteration b).runtime.tileIds = b.runtime.tileIds := scan_ids _ _

@[simp] theorem setOwner_ids {place : Nat} {owner : UserId} : (rt.setOwner place owner).tileIds = rt.tileIds :=
  setTile_ids fun _ => rfl

@[simp] theorem touch_ids {id : UserId} : (rt.touch id).tileIds = rt.tileIds := rfl
@[simp] theorem gainResource_ids {id : UserId} : (rt.gainResource id).tileIds = rt.tileIds := rfl
@[simp] theorem loseResource_ids {id : UserId} : (rt.loseResource id).tileIds = rt.tileIds := rfl
@[simp] theorem gainBase_ids {id : UserId} : (rt.gainBase id).tileIds = rt.tileIds := rfl
@[simp] theorem loseBase_ids {id : UserId} : (rt.loseBase id).tileIds = rt.tileIds := rfl

theorem move_ids {src dst : Nat} {playerId : UserId} : (rt.move src dst playerId).tileIds = rt.tileIds := by
  unfold move
  dsimp only
  split <;> simp [setTile_ids]

theorem spoils_ids (rt : RuntimeData) (src dst : Nat) :
    (rt.taken src dst).tileIds = rt.tileIds ∧ (rt.captured src dst).tileIds = rt.tileIds := by
  have fought : (rt.fought src dst).tileIds = rt.tileIds := by simp [RuntimeData.fought,setTile_ids,entered]
  have taken : (rt.taken src dst).tileIds = rt.tileIds := by
    unfold RuntimeData.taken
    dsimp only
    split <;> simp [fought]
  refine ⟨taken,?_⟩
  unfold captured
  split
  · rw [gainBase_ids,taken]
  · exact taken

theorem counterStrike_ids {iteration : Iteration} {src dst : Nat} {owner1 : UserId} :
    (counterStrike iteration rt src dst owner1).runtime.tileIds = rt.tileIds := by
  unfold counterStrike
  dsimp only
  split
  · split
    · rw [gameEndCheck_ids]
      simp [setTile_ids]
    · simp [setTile_ids]
  · simp [setTile_ids]

theorem attackLost_ids {iteration : Iteration} {b : Battle} {src dst : Nat} {owner1 owner2 : UserId} :
    (attackLost iteration b src dst owner1 owner2).runtime.tileIds = b.runtime.tileIds := by
  unfold attackLost
  dsimp only
  split
  · split
    · rw [gameEndCheck_ids]
      simp [setTile_ids]
    · simp [setTile_ids]
  · simp [setTile_ids]

theorem attack_ids (iteration : Iteration) (src dst : Nat) : (rt.attack iteration src dst).runtime.tileIds = rt.tileIds := by
  obtain ⟨taken,captured⟩ := spoils_ids rt src dst
  by_cases stronger : (rt.tile src).value > (rt.tile dst).value
  · rw [attack_won stronger]
    split
    · rw [gameEndCheck_ids,loseBase_ids,captured]
    · exact taken
  · rw [attack_lost stronger,attackLost_ids,counterStrike_ids,entered,touch_ids,touch_ids]

theorem taken_ids {cmd : BattleCmd} {iteration : Iteration} {b : Battle} (taken : Taken iteration rt cmd b) :
    b.runtime.tileIds = rt.tileIds := by
  cases taken with
  | move => exact move_ids
  | attack => exact attack_ids iteration _ _
  | grow => exact setTile_ids fun _ => rfl

end Ids
end RuntimeData
end GameServer
