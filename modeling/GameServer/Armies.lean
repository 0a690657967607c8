import Mathlib.Algebra.GroupWithZero.Nat
import GameServer.FailedAttacks

namespace GameServer
open Foundation

namespace RuntimeData

def weigh (count : TileData → Nat) (tiles : List TileData) : Nat := (tiles.map count).sum

-- All units on the board, as a natural number.
def army (rt : RuntimeData) : Nat := weigh (·.value.toNat) rt.mapData.tiles

section Weights
variable {rt next : RuntimeData} {src dst place : Nat} {count other : TileData → Nat} {tiles : List TileData}

theorem weigh_set (count : TileData → Nat) (tile : TileData) (inside : place < tiles.length) :
    weigh count (tiles.set place tile) + count (tiles.getD place default) = weigh count tiles + count tile := by
  unfold weigh
  induction tiles generalizing place with
  | nil => cases inside
  | cons head rest ih =>
    cases place with
    | zero => simp; omega
    | succ place =>
      have later := ih (Nat.lt_of_succ_lt_succ inside)
      simp only [List.set_cons_succ,List.map_cons,List.sum_cons,List.getD_cons_succ]
      omega

theorem weigh_le (below : ∀ tile, count tile ≤ other tile) : weigh count tiles ≤ weigh other tiles := by
  unfold weigh
  induction tiles with
  | nil => exact Nat.le_refl _
  | cons head rest ih =>
    have first := below head
    simp only [List.map_cons,List.sum_cons]
    omega

theorem weigh_split {both : TileData → Nat} (parts : ∀ tile, count tile + other tile = both tile) :
    weigh count tiles + weigh other tiles = weigh both tiles := by
  unfold weigh
  induction tiles with
  | nil => rfl
  | cons head rest ih =>
    have first := parts head
    simp only [List.map_cons,List.sum_cons]
    omega

theorem weigh_rewritten (count : TileData → Nat) {atSrc atDst : TileData}
    (board : Rewritten rt next src dst atSrc atDst) (different : src ≠ dst) (insideSrc : src < rt.mapData.tiles.length)
    (insideDst : dst < rt.mapData.tiles.length) :
    weigh count next.mapData.tiles + count (rt.tile src) + count (rt.tile dst) =
      weigh count rt.mapData.tiles + count atSrc + count atDst := by
  have first := weigh_set count atSrc insideSrc
  have size : dst < (rt.mapData.tiles.set src atSrc).length := by rw [List.length_set]; exact insideDst
  have second := weigh_set count atDst size
  have held : (rt.mapData.tiles.set src atSrc).getD dst default = rt.tile dst := by
    simp [List.getD_eq_getElem?_getD,different,tile]
  rw [held] at second
  rw [board]
  have start : rt.mapData.tiles.getD src default = rt.tile src := rfl
  rw [start] at first
  omega

theorem weigh_cull : weigh count rt.cull.mapData.tiles =
    weigh (fun tile => if rt.Doomed tile.owner then count (vacated tile) else count tile) rt.mapData.tiles := by
  simp only [weigh,cull,evict,List.map_map,Function.comp_def]
  congr 2
  funext tile
  split <;> rfl

theorem cull_army : rt.cull.army ≤ rt.army := by
  unfold army
  rw [weigh_cull]
  apply weigh_le
  intro tile
  split
  · exact Nat.zero_le _
  · exact Nat.le_refl _

end Weights

-- Whether the end check of a conquered base clears this player: the counters
-- are then those of the players before, with the base given over.
def Falls (rt : RuntimeData) (src dst : Nat) (id : UserId) : Prop :=
  (rt.player id).failure = true ∧
    (rt.bases id + if id = (rt.tile src).owner then 1 else 0) - (if id = (rt.tile dst).owner then 1 else 0) = 0

instance {rt : RuntimeData} {src dst : Nat} : DecidablePred (rt.Falls src dst) := fun _ => inferInstanceAs (Decidable (_ ∧ _))

-- Units that stay on a board, and units that go, once some owners are out.
def staying (out : UserId → Prop) [DecidablePred out] (tile : TileData) : Nat := if out tile.owner then 0 else tile.value.toNat

def going (out : UserId → Prop) [DecidablePred out] (tile : TileData) : Nat := if out tile.owner then tile.value.toNat else 0

def bystanders (rt : RuntimeData) (src dst : Nat) : RuntimeData := { rt with mapData := { rt.mapData with
  tiles := (rt.mapData.tiles.set src (vacated (rt.tile src))).set dst (vacated (rt.tile dst)) } }

def fallen (rt : RuntimeData) (src dst : Nat) : Nat :=
  weigh (going (rt.Falls src dst)) (rt.bystanders src dst).mapData.tiles

section Attacks
variable {rt : RuntimeData} {src dst : Nat} {iteration : Iteration}

theorem gameEndCheck_army {b : Battle} : (gameEndCheck iteration b).runtime.army ≤ b.runtime.army := by
  rw [gameEndCheck_runtime]
  exact cull_army

theorem rewritten_army {next : RuntimeData} {atSrc atDst : TileData} (facing : Facing rt src dst)
    (board : Rewritten rt next src dst atSrc atDst) :
    next.army + (rt.tile src).value.toNat + (rt.tile dst).value.toNat =
      rt.army + atSrc.value.toNat + atDst.value.toNat :=
  weigh_rewritten _ board facing.different facing.insideSrc facing.insideDst

theorem army_congr {next : RuntimeData} (same : next.mapData = rt.mapData) : next.army = rt.army := by
  rw [army,same,army]

theorem attackLost_army {b : Battle} {owner1 owner2 : UserId} (empty : (b.runtime.tile src).value = 0)
    (inside : dst < b.runtime.mapData.tiles.length) :
    (attackLost iteration b src dst owner1 owner2).runtime.army ≤ b.runtime.army := by
  have held : b.runtime.setTile dst (fun tile => { tile with value := tile.value - (b.runtime.tile src).value }) = b.runtime := by
    apply setTile_same
    rw [empty]
    simp
  have owned : (b.runtime.setOwner dst 0).army = b.runtime.army := by
    have parts := weigh_set (fun tile => tile.value.toNat) { b.runtime.tile dst with owner := 0 } inside
    exact Nat.add_right_cancel parts
  have posted {next : RuntimeData} (same : next.mapData = (b.runtime.setOwner dst 0).mapData) : next.army = b.runtime.army :=
    (army_congr same).trans owned
  simp only [attackLost,held]
  split
  · split
    · exact Nat.le_trans gameEndCheck_army (Nat.le_of_eq (posted (by simp [loseBase,loseResource])))
    · exact Nat.le_of_eq (posted (by simp [loseResource]))
  · exact Nat.le_refl _

theorem repelled_army (facing : Facing rt src dst) (weaker : ¬ (rt.tile src).value > (rt.tile dst).value)
    (first : (rt.tile dst).countered = false) : (attack iteration rt src dst).runtime.army ≤ rt.army := by
  have board := rewritten_army facing (repelled_board facing)
  obtain ⟨emptied,_,size⟩ := struck_tiles iteration facing
  have outcome : (struck iteration rt src dst).runtime.army ≤ (rt.repelled src dst).army := by
    rw [struck_runtime]
    split
    · exact Nat.le_trans cull_army (Nat.le_of_eq (army_congr (by simp)))
    · exact Nat.le_refl _
  rw [attack_repelled facing weaker first]
  refine Nat.le_trans (attackLost_army emptied (size ▸ facing.insideDst)) (Nat.le_trans outcome ?_)
  dsimp only at board
  have nothing : (0 : UInt32).toNat = 0 := rfl
  omega

theorem exhausted_army (facing : Facing rt src dst) (weaker : ¬ (rt.tile src).value > (rt.tile dst).value)
    (again : (rt.tile dst).countered ≠ false) : (attack iteration rt src dst).runtime.army ≤ rt.army := by
  have lowered := UInt32.toNat_sub_of_le _ _ (UInt32.not_lt.mp weaker)
  have unequal := rewritten_army facing (exhausted_board facing)
  have equal := rewritten_army facing (spent_board facing)
  dsimp only at unequal equal
  rw [attack_exhausted facing weaker again]
  split
  · have spent : (rt.spent src dst).army ≤ rt.army := by omega
    split
    · exact Nat.le_trans gameEndCheck_army (Nat.le_trans (Nat.le_of_eq (army_congr (by simp))) spent)
    · exact spent
  · dsimp only
    omega

theorem conquered_army (facing : Facing rt src dst) (stronger : (rt.tile src).value > (rt.tile dst).value)
    (defended : ¬ (rt.tile dst).value < 2) : (attack iteration rt src dst).runtime.army ≤ rt.army := by
  have board := rewritten_army facing (taken_board facing)
  have two := UInt32.le_iff_toNat_le.mp (UInt32.not_lt.mp defended)
  have two_ : (2 : UInt32).toNat = 2 := rfl
  have one : (1 : UInt32).toNat = 1 := rfl
  have fewer : ((rt.tile dst).value - 1 - 1).toNat = (rt.tile dst).value.toNat - 2 := by
    have bound := UInt32.toNat_lt (rt.tile dst).value
    rw [UInt32.toNat_sub,UInt32.toNat_sub]
    omega
  have more := UInt32.lt_iff_toNat_lt.mp stronger
  have taken : (rt.taken src dst).army ≤ rt.army := by
    dsimp only at board
    omega
  rw [attack_conquers facing stronger]
  split
  · have same : ((rt.captured src dst).loseBase (rt.tile dst).owner).mapData = (rt.taken src dst).mapData := by
      rw [loseBase_mapData,captured_board]
    exact Nat.le_trans gameEndCheck_army (Nat.le_trans (Nat.le_of_eq (army_congr same)) taken)
  · exact taken

theorem overrun_doomed (facing : Facing rt src dst) (stronger : (rt.tile src).value > (rt.tile dst).value)
    (few : (rt.tile dst).value < 2) (base : (rt.tile dst).type = .base) {id : UserId} :
    (rt.settled src dst).Doomed id ↔ rt.Falls src dst id := by
  have apart := facing.owners
  have notTwo : (rt.tile dst).value ≠ 2 := by grind
  have kept : rt.spoils src dst = (rt.tile src).owner := if_neg notTwo
  have updates : rt.attackUpdates src dst = [⟨(rt.tile src).owner,.resources,true⟩,⟨(rt.tile dst).owner,.resources,false⟩,
      ⟨(rt.tile src).owner,.baseCount,true⟩,⟨(rt.tile dst).owner,.baseCount,false⟩] := by
    simp [attackUpdates,plunder,stronger,notTwo,base,kept]
  have counted : (rt.settled src dst).bases id =
      (rt.bases id + if id = (rt.tile src).owner then 1 else 0) - if id = (rt.tile dst).owner then 1 else 0 := by
    by_cases attacker : id = (rt.tile src).owner
    · have gained := settled_updated (u := ⟨(rt.tile src).owner,.baseCount,true⟩) facing (by simp [updates])
      rw [attacker,if_pos rfl,if_neg apart,UInt32.sub_zero]
      exact gained
    · by_cases defender : id = (rt.tile dst).owner
      · have lost := settled_updated (u := ⟨(rt.tile dst).owner,.baseCount,false⟩) facing (by simp [updates])
        rw [defender,if_neg apart.symm,if_pos rfl,UInt32.add_zero]
        exact lost
      · have same : (rt.settled src dst).reading (id,.baseCount) = rt.reading (id,.baseCount) := by
          apply settled_untouched facing
          simp [updates,Update.account,attacker,defender]
        rw [if_neg attacker,if_neg defender,UInt32.add_zero,UInt32.sub_zero]
        exact same
  unfold Doomed Falls
  rw [settled_failure facing,← counted,bases]

theorem staying_going (out : UserId → Prop) [DecidablePred out] (tile : TileData) :
    staying out tile + going out tile = tile.value.toNat := by
  unfold staying going
  split
  · exact Nat.zero_add _
  · exact Nat.add_zero _

theorem fallen_going (facing : Facing rt src dst) : rt.fallen src dst + going (rt.Falls src dst) (rt.tile src) +
    going (rt.Falls src dst) (rt.tile dst) = weigh (going (rt.Falls src dst)) rt.mapData.tiles := by
  have emptied (tile : TileData) : going (rt.Falls src dst) (vacated tile) = 0 := by
    unfold going
    split <;> rfl
  have rewritten : Rewritten rt (rt.bystanders src dst) src dst (vacated (rt.tile src)) (vacated (rt.tile dst)) := rfl
  have weighed := weigh_rewritten (going (rt.Falls src dst)) rewritten facing.different facing.insideSrc facing.insideDst
  rw [emptied,emptied] at weighed
  exact weighed

theorem overrun_value (few : (rt.tile dst).value < 2) :
    ((rt.tile dst).value - 1 - 1).toNat = 2 ^ 32 - 2 + (rt.tile dst).value.toNat := by
  have small := UInt32.lt_iff_toNat_lt.mp few
  have two : (2 : UInt32).toNat = 2 := rfl
  have one : (1 : UInt32).toNat = 1 := rfl
  rw [UInt32.toNat_sub,UInt32.toNat_sub]
  omega

theorem overrun_base (facing : Facing rt src dst) (stronger : (rt.tile src).value > (rt.tile dst).value)
    (few : (rt.tile dst).value < 2) (base : (rt.tile dst).type = .base) : (rt.settled src dst).cull.army ≤ rt.army ↔
      rt.Falls src dst (rt.tile src).owner ∨ 2 ^ 32 - 1 ≤ (rt.tile src).value.toNat + rt.fallen src dst := by
  have keeps : rt.spoils src dst = (rt.tile src).owner := by
    have notTwo : (rt.tile dst).value ≠ 2 := by grind
    exact if_neg notTwo
  have same : (rt.settled src dst).mapData = (rt.taken src dst).mapData := by
    unfold settled
    rw [if_pos stronger,if_pos base,loseBase_mapData,captured_board]
  have board : Rewritten rt (rt.settled src dst) src dst { rt.tile src with value := 1 }
      { rt.tile dst with owner := (rt.tile src).owner, value := (rt.tile dst).value - 1 - 1 } := by
    have taken := taken_board facing
    rw [keeps] at taken
    exact (congrArg MapData.tiles same).trans taken
  have culled : (rt.settled src dst).cull.army = weigh (staying (rt.Falls src dst)) (rt.settled src dst).mapData.tiles := by
    rw [army,weigh_cull]
    congr 1
    funext tile
    unfold staying
    exact if_congr (overrun_doomed facing stronger few base) rfl rfl
  have parts : weigh (staying (rt.Falls src dst)) rt.mapData.tiles + weigh (going (rt.Falls src dst)) rt.mapData.tiles =
      rt.army := weigh_split (staying_going _)
  have rewritten := weigh_rewritten (staying (rt.Falls src dst)) board facing.different facing.insideSrc facing.insideDst
  have others := fallen_going facing
  have atSrc := staying_going (rt.Falls src dst) (rt.tile src)
  have atDst := staying_going (rt.Falls src dst) (rt.tile dst)
  have value := overrun_value few
  have one : (1 : UInt32).toNat = 1 := rfl
  rw [culled]
  by_cases falls : rt.Falls src dst (rt.tile src).owner
  · simp only [staying,falls,if_true] at rewritten
    refine iff_of_true ?_ (Or.inl falls)
    omega
  · have kept : going (rt.Falls src dst) (rt.tile src) = 0 := if_neg falls
    simp only [staying,falls,if_false] at rewritten atSrc atDst parts ⊢
    rw [false_or]
    omega

-- The attacker's tile is set to 1 before it is taken off a defender of less
-- than two units, whose value wraps.
theorem overrun_army (facing : Facing rt src dst) (stronger : (rt.tile src).value > (rt.tile dst).value)
    (few : (rt.tile dst).value < 2) : (attack iteration rt src dst).runtime.army ≤ rt.army ↔
      (rt.tile src).value.toNat = 2 ^ 32 - 1 ∨ (rt.tile dst).type = .base ∧
        (rt.Falls src dst (rt.tile src).owner ∨ 2 ^ 32 - 1 ≤ (rt.tile src).value.toNat + rt.fallen src dst) := by
  have bound := UInt32.toNat_lt (rt.tile src).value
  rw [attack_conquers facing stronger]
  by_cases base : (rt.tile dst).type = .base
  · have conquered : (rt.captured src dst).loseBase (rt.tile dst).owner = rt.settled src dst := by
      unfold settled
      rw [if_pos stronger,if_pos base]
    rw [if_pos base,gameEndCheck_runtime,conquered,overrun_base facing stronger few base,and_iff_right base]
    refine ⟨Or.inr,?_⟩
    intro either
    rcases either with most | rest
    · exact Or.inr (by omega)
    · exact rest
  · have board := rewritten_army facing (taken_board facing)
    have value := overrun_value few
    have one : (1 : UInt32).toNat = 1 := rfl
    dsimp only at board
    rw [if_neg base]
    simp only [base,false_and,or_false]
    omega

end Attacks
section Commands
variable {rt : RuntimeData} {cmd : BattleCmd}

structure Carried (rt next : RuntimeData) (src dst : Nat) : Prop where
  left : (next.tile src).value = 1
  arrived : (next.tile dst).value.toNat = (rt.tile dst).value.toNat + (rt.tile src).value.toNat - 1
  total : next.army = rt.army

-- What the law of armies asks of one command.
structure ArmiesKept (rt next : RuntimeData) (cmd : BattleCmd) (src dst : Nat) : Prop where
  move : cmd.type = .move → Carried rt next src dst
  attack : cmd.type = .attack → next.army ≤ rt.army

-- A defender of less than two units is overrun, and nothing that the end check
-- clears makes up for the wrapped value.
def Overrun (rt : RuntimeData) (src dst : Nat) : Prop :=
  (rt.tile src).value > (rt.tile dst).value ∧ (rt.tile dst).value < 2 ∧ ¬ ((rt.tile src).value.toNat = 2 ^ 32 - 1 ∨
    (rt.tile dst).type = .base ∧
      (rt.Falls src dst (rt.tile src).owner ∨ 2 ^ 32 - 1 ≤ (rt.tile src).value.toNat + rt.fallen src dst))

theorem move_board {src dst : Nat} {playerId : UserId} : (rt.move src dst playerId).mapData = (rt.arrived src dst).mapData := by
  unfold move
  dsimp only
  split <;> simp [gainResource,arrived,setOwner]

-- The units that leave are counted after the tile they leave was set to 1.
theorem move_strands {src dst : Nat} {playerId : UserId} (different : src ≠ dst)
    (insideSrc : src < rt.mapData.tiles.length) (insideDst : dst < rt.mapData.tiles.length)
    (strong : (rt.tile src).value > 1) : ¬ Carried rt (rt.move src dst playerId) src dst := by
  intro carried
  have arrived := carried.arrived
  have held : (rt.move src dst playerId).tile dst = (rt.arrived src dst).tile dst := by rw [tile,move_board,tile]
  have value : ((rt.arrived src dst).tile dst).value = (rt.tile dst).value + (1 - 1) := by
    rw [rewritten_tile (arrived_board insideSrc insideDst different) insideSrc insideDst,if_pos rfl]
  have more := UInt32.lt_iff_toNat_lt.mp strong
  have one : (1 : UInt32).toNat = 1 := rfl
  rw [held,value,UInt32.sub_self,UInt32.add_zero] at arrived
  omega

theorem attack_army {src dst : Nat} (facing : Facing rt src dst) (iteration : Iteration) :
    (attack iteration rt src dst).runtime.army ≤ rt.army ↔ ¬ Overrun rt src dst := by
  by_cases stronger : (rt.tile src).value > (rt.tile dst).value
  · by_cases few : (rt.tile dst).value < 2
    · rw [overrun_army facing stronger few,Overrun,and_iff_right stronger,and_iff_right few,not_not]
    · exact iff_of_true (conquered_army facing stronger few) (fun overrun => few overrun.2.1)
  · refine iff_of_true ?_ (fun overrun => stronger overrun.1)
    by_cases first : (rt.tile dst).countered = false
    · exact repelled_army facing stronger first
    · exact exhausted_army facing stronger first

-- No move carries its units over, and the attacks that create units are those
-- that overrun a defender of less than two.
theorem armies_exact (iteration : Iteration) (accepted : rt.Accepted cmd) :
    (∃ b, processCommand iteration rt cmd = .done b ∧ ∀ src dst, rt.index cmd.param1 = some src →
        rt.index cmd.param2 = some dst → ArmiesKept rt b.runtime cmd src dst) ↔
      cmd.type ≠ .move ∧ (cmd.type = .attack → ∀ src dst, rt.index cmd.param1 = some src →
        rt.index cmd.param2 = some dst → ¬ Overrun rt src dst) := by
  rcases processCommand_cases iteration rt cmd with ⟨refused,_⟩ | ⟨_,b,result,taken⟩
  · exact absurd accepted refused
  have outcome (good : Battle → Prop) : (∃ b, processCommand iteration rt cmd = .done b ∧ good b) ↔ good b := by
    rw [result]
    simp
  rw [outcome fun b => ∀ src dst, rt.index cmd.param1 = some src → rt.index cmd.param2 = some dst →
    ArmiesKept rt b.runtime cmd src dst]
  cases taken with
  | move type first second different _ _ strong =>
    refine iff_of_false ?_ (fun both => both.1 type)
    intro kept
    exact move_strands different (index_bound rt first).1 (index_bound rt second).1 strong
      ((kept _ _ first second).move type)
  | attack type first second facing =>
    have law := attack_army facing iteration
    refine ⟨?_,?_⟩
    · intro kept
      refine ⟨by rw [type]; decide,?_⟩
      intro _ one other atOne atOther
      cases first.symm.trans atOne
      cases second.symm.trans atOther
      exact law.mp ((kept _ _ first second).attack type)
    · intro fair one other atOne atOther
      cases first.symm.trans atOne
      cases second.symm.trans atOther
      refine ⟨fun moved => absurd moved fair.1,?_⟩
      intro _
      exact law.mpr (fair.2 type _ _ first second)
  | grow type first =>
    refine iff_of_true ?_ ?_
    · intro src dst _ _
      refine ⟨?_,?_⟩ <;> intro other <;> rw [type] at other <;> cases other
    · refine ⟨by rw [type]; decide,?_⟩
      intro other
      rw [type] at other
      cases other

end Commands

-- Five units of player 1 take the base of player 2, which had three.
theorem conquest_creates_none : ∃ b, processCommand Battle.keyOrder Battle.duelStart.runtime ⟨1,.attack,0,2⟩ = .done b ∧
    ∀ src dst, Battle.duelStart.runtime.index 0 = some src → Battle.duelStart.runtime.index 2 = some dst →
      ArmiesKept Battle.duelStart.runtime b.runtime ⟨1,.attack,0,2⟩ src dst := by
  have accepted : Battle.duelStart.runtime.Accepted ⟨1,.attack,0,2⟩ := rfl
  refine (armies_exact Battle.keyOrder accepted).mpr ⟨by decide,?_⟩
  intro _ src dst first second overrun
  cases first
  cases second
  exact absurd overrun.2.1 (by decide)

-- A move of five units leaves 1 behind and brings none; an attack on a single
-- unit makes more than four billion of it.
theorem units_lost_and_created :
    (∃ b, processCommand Battle.keyOrder Battle.duelStart.runtime ⟨1,.move,0,1⟩ = .done b ∧
      ¬ ArmiesKept Battle.duelStart.runtime b.runtime ⟨1,.move,0,1⟩ 0 1) ∧
    ∃ b, processCommand Battle.keyOrder Battle.duelStart.runtime ⟨2,.attack,2,1⟩ = .done b ∧
      ¬ ArmiesKept Battle.duelStart.runtime b.runtime ⟨2,.attack,2,1⟩ 2 1 := by
  refine ⟨⟨_,rfl,?_⟩,⟨_,rfl,?_⟩⟩
  · intro kept
    have arrived := (kept.move rfl).arrived
    revert arrived
    decide
  · intro kept
    have total := kept.attack rfl
    revert total
    decide

end RuntimeData
end GameServer
