import GameServer.Armies

namespace GameServer.Battle
open Foundation RuntimeData

def Held (tile : TileData) : Prop := tile.owner ≠ 0 → tile.value > 0

def Manned (rt : RuntimeData) : Prop := ∀ tile ∈ rt.mapData.tiles, Held tile

def GrowsBy (least : Nat) (rt : RuntimeData) (cmd : BattleCmd) (next : RuntimeData) : Prop :=
  rt.Accepted cmd → cmd.type = .grow → ∀ dst, rt.index cmd.param1 = some dst →
    (rt.tile dst).value.toNat + least ≤ (next.tile dst).value.toNat

-- The parameter, as the unsigned number it is added as, carries nothing over.
def Fits (least : Nat) (rt : RuntimeData) (cmd : BattleCmd) : Prop :=
  rt.Accepted cmd → cmd.type = .grow → ∀ dst, rt.index cmd.param1 = some dst →
    least ≤ cmd.param2.toUInt32.toNat ∧ (rt.tile dst).value.toNat + cmd.param2.toUInt32.toNat < 2 ^ 32

section Boards
variable {rt next : RuntimeData} {src dst : Nat}

theorem manned_tile {place : Nat} (manned : Manned rt) (inside : place < rt.mapData.tiles.length) : Held (rt.tile place) := by
  apply manned
  rw [tile,List.getD_eq_getElem?_getD,List.getElem?_eq_getElem inside]
  exact List.getElem_mem inside

theorem rewritten_manned {atSrc atDst : TileData} (manned : Manned rt) (board : Rewritten rt next src dst atSrc atDst)
    (first : Held atSrc) (second : Held atDst) : Manned next := by
  intro tile member
  rw [board] at member
  rcases List.mem_or_eq_of_mem_set member with member | rfl
  · rcases List.mem_or_eq_of_mem_set member with member | rfl
    · exact manned tile member
    · exact first
  · exact second

theorem move_manned {playerId : UserId} (manned : Manned rt) (different : src ≠ dst)
    (insideSrc : src < rt.mapData.tiles.length) (insideDst : dst < rt.mapData.tiles.length)
    (same : (rt.tile src).owner = (rt.tile dst).owner) : Manned (rt.move src dst playerId) := by
  have board : Rewritten rt (rt.move src dst playerId) src dst _ _ :=
    (congrArg MapData.tiles move_board).trans (arrived_board insideSrc insideDst different)
  refine rewritten_manned manned board ?_ ?_
  · intro _
    exact (by decide : (1 : UInt32) > 0)
  · intro owned
    rw [same] at owned
    have kept := manned_tile manned insideDst owned
    dsimp only
    rwa [UInt32.sub_self,UInt32.add_zero]

theorem settled_manned (manned : Manned rt) (facing : Facing rt src dst) : Manned (rt.settled src dst) := by
  refine rewritten_manned manned (settled_board facing) ?_ ?_
  · have attacker := manned_tile manned facing.insideSrc
    unfold settledSrc
    split_ifs
    · intro _
      exact (by decide : (1 : UInt32) > 0)
    · intro owned
      exact absurd rfl owned
    · exact attacker
  · have defender := manned_tile manned facing.insideDst
    unfold settledDst spoils
    split_ifs with stronger two first even
    · intro owned
      exact absurd rfl owned
    · intro _
      exact (two_fewer _).mpr two
    · exact defender
    · intro owned
      exact absurd rfl owned
    · intro _
      dsimp only
      grind

theorem grow_value (amount : Int32) (inside : dst < rt.mapData.tiles.length) :
    (rt.grow dst amount).tile dst = { rt.tile dst with value := (rt.tile dst).value + amount.toUInt32 } := by
  rw [grow,setTile_tile _ _ _ _ inside,if_pos rfl]

theorem grow_manned {amount : Int32} (manned : Manned rt)
    (fits : (rt.tile dst).value.toNat + amount.toUInt32.toNat < 2 ^ 32) (alive : (rt.tile dst).value > 0) :
    Manned (rt.grow dst amount) := by
  intro tile member
  rcases List.mem_or_eq_of_mem_set member with member | rfl
  · exact manned tile member
  · intro _
    have more := UInt32.lt_iff_toNat_lt.mp alive
    rw [gt_iff_lt,UInt32.lt_iff_toNat_lt]
    dsimp only
    rw [UInt32.toNat_add,Nat.mod_eq_of_lt fits]
    omega

end Boards

section Steps
variable {rt : RuntimeData} {cmd : BattleCmd}

-- A command that is no Grow keeps the tiles manned; a Grow adds what it should
-- exactly when its parameter fits, and then keeps them manned too.
theorem taken_manned (least : Nat) (calm : rt.Calm) (manned : Manned rt) {iteration : Iteration} {b : Battle}
    (accepted : rt.Accepted cmd) (taken : Taken iteration rt cmd b) :
    (Manned b.runtime ∧ GrowsBy least rt cmd b.runtime) ↔ Fits least rt cmd := by
  have other (type : cmd.type ≠ .grow) (after : Manned b.runtime) :
      (Manned b.runtime ∧ GrowsBy least rt cmd b.runtime) ↔ Fits least rt cmd :=
    iff_of_true ⟨after,fun _ grow => absurd grow type⟩ (fun _ grow => absurd grow type)
  cases taken with
  | move type first second different ownSrc ownDst =>
    apply other (by rw [type]; decide)
    exact move_manned manned different (index_bound rt first).1 (index_bound rt second).1 (ownSrc.trans ownDst.symm)
  | attack type first second facing =>
    apply other (by rw [type]; decide)
    rw [attack_settled iteration facing (calm_spares calm facing)]
    exact settled_manned manned facing
  | @grow dst type first own alive =>
    have inside := (index_bound rt first).1
    have value := grow_value cmd.param2 inside
    have sum : ((rt.grow dst cmd.param2).tile dst).value.toNat =
        ((rt.tile dst).value.toNat + cmd.param2.toUInt32.toNat) % 2 ^ 32 := by
      rw [value]
      exact UInt32.toNat_add ..
    have first_ := UInt32.toNat_lt (rt.tile dst).value
    have second_ := UInt32.toNat_lt cmd.param2.toUInt32
    refine ⟨?_,?_⟩
    · intro grown _ _ place found
      cases first.symm.trans found
      have more := grown.2 accepted type dst first
      rw [sum] at more
      omega
    · intro fits
      obtain ⟨enough,carry⟩ := fits accepted type dst first
      refine ⟨grow_manned manned carry alive,?_⟩
      intro _ _ place found
      cases first.symm.trans found
      rw [sum]
      omega

theorem step_manned (least : Nat) {b next : Battle} {c : Command} (calm : b.runtime.Calm) (manned : Manned b.runtime)
    (stepped : b.step c = some next) : (Manned next.runtime ∧ GrowsBy least b.runtime c.cmd next.runtime) ↔
      Fits least b.runtime c.cmd := by
  rcases step_cases stepped with ⟨refused,rfl⟩ | ⟨accepted,played,taken,rfl⟩
  · exact iff_of_true ⟨manned,fun accepted => absurd accepted refused⟩ (fun accepted => absurd accepted refused)
  · have law := taken_manned least calm manned accepted taken
    exact law

end Steps

-- On a map whose owned tiles are manned they stay so, and every Grow adds to
-- its tile, exactly as long as each accepted Grow has a parameter that fits. With
-- `least` 1 a Grow has to increase the value, with 0 only not to decrease it.
theorem troops_exact (least : Nat) (roomId : RoomId) (history : List GameCmdHandler.Event) (h : GameCmdHandler)
    (path : Machine.run GameCmdHandler.step (GameCmdHandler.create roomId) history = some h)
    (loadMapData : StdString → Option MapData) (info : MatchInfo) (next : GameCmdHandler)
    (started : h.startGame loadMapData info = (none,next)) (manned : Manned next.runtime) (commands : List Command) :
    (Machine.Always step (fun b => Manned b.runtime) ⟨next.runtime,[]⟩ commands ∧
        Machine.Every step (fun b c after => GrowsBy least b.runtime c.cmd after.runtime) ⟨next.runtime,[]⟩ commands) ↔
      Machine.Every step (fun b c _ => Fits least b.runtime c.cmd) ⟨next.runtime,[]⟩ commands := by
  have calm : next.runtime.Calm := by
    have after := GameCmdHandler.startGame_calm (GameCmdHandler.run_calm path) loadMapData info
    rwa [started] at after
  have kept : ∀ (b : Battle) c after, b.runtime.Calm ∧ Manned b.runtime → b.step c = some after →
      Manned after.runtime ∧ GrowsBy least b.runtime c.cmd after.runtime → after.runtime.Calm ∧ Manned after.runtime :=
    fun b c after valid stepped good => ⟨step_calm valid.1 stepped,good.1⟩
  have exact_at : ∀ (b : Battle) c after, b.runtime.Calm ∧ Manned b.runtime → b.step c = some after →
      ((Manned after.runtime ∧ GrowsBy least b.runtime c.cmd after.runtime) ↔ Fits least b.runtime c.cmd) :=
    fun b c after valid stepped => step_manned least valid.1 valid.2 stepped
  rw [Machine.always_iff_every,and_iff_right manned,Machine.every_and]
  exact Machine.every_congr kept exact_at ⟨calm,manned⟩

theorem growth_of_three : Machine.Always step (fun b => Manned b.runtime) ⟨duelStart.runtime,[]⟩ [⟨keyOrder,⟨1,.grow,0,3⟩⟩] ∧
    Machine.Every step (fun b c after => GrowsBy 1 b.runtime c.cmd after.runtime) ⟨duelStart.runtime,[]⟩
      [⟨keyOrder,⟨1,.grow,0,3⟩⟩] := by
  have manned : Manned duelStart.runtime := by
    unfold Manned Held
    decide
  refine (troops_exact 1 1 [] (GameCmdHandler.create 1) rfl (fun _ => some duelMap) duel duelStart rfl manned _).mpr ?_
  intro next stepped
  refine ⟨?_,trivial⟩
  intro _ _ dst found
  cases found
  decide

-- A Grow by -5 empties a tile of five units that its player goes on owning.
theorem negative_growth_empties : Manned duelStart.runtime ∧
    ¬ Machine.Always step (fun b => Manned b.runtime) ⟨duelStart.runtime,[]⟩ [⟨keyOrder,⟨1,.grow,0,-5⟩⟩] := by
  refine ⟨by unfold Manned Held; decide,?_⟩
  intro holds
  obtain ⟨next,stepped⟩ := step_total ⟨duelStart.runtime,[]⟩ ⟨keyOrder,⟨1,.grow,0,-5⟩⟩
  have reached := holds _ [] next (List.append_nil _).symm (by rw [Machine.run_cons,stepped]; rfl)
  cases stepped
  revert reached
  unfold Manned Held
  decide

end GameServer.Battle
