import GameServer.Settlement

namespace GameServer
open Foundation

namespace RuntimeData

-- An accepted attack on a tile at least as strong as the attacker's.
structure FailedAttack (rt : RuntimeData) (cmd : BattleCmd) (src dst : Nat) : Prop where
  accepted : rt.Accepted cmd
  type : cmd.type = .attack
  first : rt.index cmd.param1 = some src
  second : rt.index cmd.param2 = some dst
  weaker : (rt.tile src).value ≤ (rt.tile dst).value

def Neutral (tile : TileData) : Prop := tile.owner = 0 ∧ tile.value = 0

structure DefenderPays (rt next : RuntimeData) (src dst : Nat) : Prop where
  cost : (next.tile dst).value.toNat + (rt.tile src).value.toNat = (rt.tile dst).value.toNat
  mutual_ : (rt.tile src).value = (rt.tile dst).value → Neutral (next.tile src) ∧ Neutral (next.tile dst)
  first : (rt.tile dst).countered = false → Neutral (next.tile src) ∧ (next.tile dst).countered = true

section Losses
variable {rt : RuntimeData} {src dst : Nat} {iteration : Iteration}

theorem attackLost_countered_from {b : Battle} {owner1 owner2 : UserId} (inside : dst < b.runtime.mapData.tiles.length)
    (marked : ((attackLost iteration b src dst owner1 owner2).runtime.tile dst).countered = true) :
    (b.runtime.tile dst).countered = true := by
  have lowered (value : TileData → UInt32) :
      ((b.runtime.setTile dst fun tile => { tile with value := value tile }).tile dst).countered =
        (b.runtime.tile dst).countered := by
    rw [setTile_tile _ _ _ _ inside,if_pos rfl]
  unfold attackLost at marked
  dsimp only at marked
  split at marked
  · have owned (rt : RuntimeData) (within : dst < rt.mapData.tiles.length) :
        ((rt.setOwner dst 0).tile dst).countered = (rt.tile dst).countered := by
      rw [setOwner,setTile_tile _ _ _ _ within,if_pos rfl]
    split at marked
    · rw [gameEndCheck_runtime,cull_tile (by simpa [setOwner,loseBase,loseResource] using inside)] at marked
      split at marked
      · cases marked
      · exact (lowered _).symm.trans ((owned _ (by simpa using inside)).symm.trans marked)
    · exact (lowered _).symm.trans ((owned _ (by simpa using inside)).symm.trans marked)
  · exact (lowered _).symm.trans marked

-- The attacker's tile is emptied before its strength is taken off the defender's.
theorem repelled_unpaid (facing : Facing rt src dst) (weaker : ¬ (rt.tile src).value > (rt.tile dst).value)
    (first : (rt.tile dst).countered = false) :
    ¬ DefenderPays rt (attack iteration rt src dst).runtime src dst := by
  intro pays
  obtain ⟨emptied,fate,size⟩ := struck_tiles iteration facing
  have marked := (pays.first first).2
  have cost := pays.cost
  rw [attack_repelled facing weaker first] at marked cost
  rcases fate with stands | cleared
  · rw [defender_stands facing weaker stands emptied,stands] at cost
    have strong := UInt32.lt_iff_toNat_lt.mp facing.strong
    dsimp only at cost
    omega
  · have before := attackLost_countered_from (size ▸ facing.insideDst) marked
    rw [cleared] at before
    cases before

theorem exhausted_pays (facing : Facing rt src dst) (weaker : (rt.tile src).value < (rt.tile dst).value)
    (again : (rt.tile dst).countered ≠ false) : DefenderPays rt (attack iteration rt src dst).runtime src dst := by
  have less := UInt32.lt_iff_toNat_lt.mp weaker
  have notStronger : ¬ (rt.tile src).value > (rt.tile dst).value := by grind
  have uneven : (rt.tile src).value ≠ (rt.tile dst).value := by grind
  rw [attack_exhausted facing notStronger again,if_neg uneven]
  refine ⟨?_,fun even => absurd even uneven,fun first => absurd first again⟩
  rw [(exhausted_tile facing).1,UInt32.toNat_sub_of_le _ _ (UInt32.le_iff_toNat_le.mpr (by omega))]
  omega

theorem even_doomed (facing : Facing rt src dst) (even : (rt.tile src).value = (rt.tile dst).value)
    (again : (rt.tile dst).countered ≠ false) :
    (rt.settled src dst).Doomed (rt.tile src).owner ↔ rt.Doomed (rt.tile src).owner := by
  have notStronger : ¬ (rt.tile src).value > (rt.tile dst).value := by rw [even]; exact UInt32.lt_irrefl _
  have other : ((rt.tile src).owner,Counter.baseCount) ∉ (rt.attackUpdates src dst).map Update.account := by
    have apart := facing.owners
    unfold attackUpdates
    rw [if_neg notStronger,if_neg again,if_pos even]
    split <;> simp [Update.account,apart]
  have counted : ((rt.settled src dst).player (rt.tile src).owner).baseCount = (rt.player (rt.tile src).owner).baseCount :=
    settled_untouched facing other
  rw [Doomed,Doomed,settled_failure facing,counted]

theorem even_pays (facing : Facing rt src dst) (even : (rt.tile src).value = (rt.tile dst).value)
    (again : (rt.tile dst).countered ≠ false) : DefenderPays rt (attack iteration rt src dst).runtime src dst ↔
      (rt.tile dst).type = .base ∧ rt.Doomed (rt.tile src).owner := by
  have notStronger : ¬ (rt.tile src).value > (rt.tile dst).value := by rw [even]; exact UInt32.lt_irrefl _
  have doomed := even_doomed facing even again
  have board := rewritten_tile (spent_board facing) facing.insideSrc facing.insideDst
  have atDst := board dst
  have atSrc := board src
  rw [if_pos rfl,← even,UInt32.sub_self] at atDst
  rw [if_neg facing.different,if_pos rfl] at atSrc
  have strong := facing.strong
  have alive : (rt.tile src).value ≠ 0 := by grind
  unfold settled at doomed
  rw [if_neg notStronger,if_neg again,if_pos even] at doomed
  rw [attack_exhausted facing notStronger again,if_pos even]
  by_cases base : (rt.tile dst).type = .base
  · rw [if_pos base] at doomed
    have kept (place : Nat) : ((rt.spent src dst).loseBase (rt.tile dst).owner).tile place = (rt.spent src dst).tile place := by
      rw [tile,loseBase_mapData,tile]
    have inside {place : Nat} (within : place < rt.mapData.tiles.length) :
        place < ((rt.spent src dst).loseBase (rt.tile dst).owner).mapData.tiles.length := by
      rw [loseBase_mapData,rewritten_length (spent_board facing)]; exact within
    rw [if_pos base,gameEndCheck_runtime,and_iff_right base]
    refine ⟨?_,?_⟩
    · intro pays
      have left := (pays.mutual_ even).1.2
      rw [cull_tile (inside facing.insideSrc),kept,atSrc] at left
      by_contra spared
      rw [if_neg (fun holds => spared (doomed.mp holds))] at left
      exact alive left
    · intro failed
      have emptied : (((rt.spent src dst).loseBase (rt.tile dst).owner).cull.tile dst).owner = 0 ∧
          (((rt.spent src dst).loseBase (rt.tile dst).owner).cull.tile dst).value = 0 := by
        rw [cull_tile (inside facing.insideDst),kept,atDst]
        split <;> exact ⟨rfl,rfl⟩
      have vacant : ((rt.spent src dst).loseBase (rt.tile dst).owner).cull.tile src =
          vacated { rt.tile src with acted := true } := by
        rw [cull_tile (inside facing.insideSrc),kept,atSrc,if_pos (doomed.mpr failed)]
      refine ⟨?_,fun _ => ⟨?_,emptied⟩,fun first => absurd first again⟩
      · rw [emptied.2,even]
        exact Nat.zero_add _
      · rw [vacant]
        exact ⟨rfl,rfl⟩
  · rw [if_neg base]
    refine iff_of_false ?_ (fun both => base both.1)
    intro pays
    have left := (pays.mutual_ even).1.2
    rw [atSrc] at left
    exact alive left

-- A failed attack costs what it should only where the defender has struck back
-- before: the weaker attacker's strength is taken off, but of two equal sides
-- the attacker's stays, unless the end check clears it as well.
theorem failed_attack_exact (iteration : Iteration) {cmd : BattleCmd} (failed : FailedAttack rt cmd src dst) :
    (∃ b, processCommand iteration rt cmd = .done b ∧ DefenderPays rt b.runtime src dst) ↔
      (rt.tile dst).countered = true ∧ ((rt.tile src).value ≠ (rt.tile dst).value ∨
        (rt.tile dst).type = .base ∧ rt.Doomed (rt.tile src).owner) := by
  obtain ⟨accepted,type,first,second,weaker⟩ := failed
  have facing := accepted_facing accepted type first second iteration
  have outcome := accepted_attacks accepted type first second iteration fun b => DefenderPays rt b.runtime src dst
  have notStronger : ¬ (rt.tile src).value > (rt.tile dst).value := UInt32.not_lt.mpr weaker
  rw [outcome]
  by_cases before : (rt.tile dst).countered = false
  · refine iff_of_false (repelled_unpaid facing notStronger before) ?_
    intro holds
    rw [before] at holds
    cases holds.1
  · rw [and_iff_right (Bool.not_eq_false _ ▸ before)]
    by_cases even : (rt.tile src).value = (rt.tile dst).value
    · rw [even_pays facing even before]
      simp [even]
    · refine iff_of_true ?_ (Or.inl even)
      exact exhausted_pays facing (UInt32.lt_of_le_of_ne weaker even) before

end Losses

def raidMap : MapData := ⟨2,1,[{ tileId := 1, owner := 1, value := 3, roundType := 0 },
  { tileId := 2, owner := 2, value := 5, countered := true, roundType := 0 }]⟩

def raidStart : GameCmdHandler := ((GameCmdHandler.create 1).startGame (fun _ => some raidMap) Battle.duel).2

theorem second_attack_pays : ∃ b, processCommand Battle.keyOrder raidStart.runtime ⟨1,.attack,0,1⟩ = .done b ∧
    DefenderPays raidStart.runtime b.runtime 0 1 := by
  have failed : FailedAttack raidStart.runtime ⟨1,.attack,0,1⟩ 0 1 := ⟨rfl,rfl,rfl,rfl,by decide⟩
  exact (failed_attack_exact Battle.keyOrder failed).mpr ⟨rfl,Or.inl (by decide)⟩

-- Three units of player 2 attack five of player 1; all three are lost and the five stay.
theorem first_attack_unpaid : FailedAttack Battle.duelStart.runtime ⟨2,.attack,2,0⟩ 2 0 ∧
    ¬ ∃ b, processCommand Battle.keyOrder Battle.duelStart.runtime ⟨2,.attack,2,0⟩ = .done b ∧
      DefenderPays Battle.duelStart.runtime b.runtime 2 0 := by
  refine ⟨⟨rfl,rfl,rfl,rfl,by decide⟩,?_⟩
  intro holds
  obtain ⟨b,done,pays⟩ := holds
  cases done
  have cost := pays.cost
  revert cost
  decide

end RuntimeData
end GameServer
