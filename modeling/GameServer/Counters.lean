import GameServer.Settlement

namespace GameServer.Battle
open Foundation RuntimeData

-- The counter updates of an accepted command, in the order of the code.
def updates (rt : RuntimeData) (cmd : BattleCmd) : List Update :=
  match cmd.type,rt.index cmd.param1,rt.index cmd.param2 with
  | .move,_,some dst => ⟨cmd.playerId.toUInt32,.resources,true⟩ ::
      if (rt.tile dst).type = .base then [⟨cmd.playerId.toUInt32,.baseCount,true⟩] else []
  | .attack,some src,some dst => rt.attackUpdates src dst
  | _,_,_ => []

-- The entries the command takes references to exist before it updates them.
def opened (rt : RuntimeData) (cmd : BattleCmd) : RuntimeData :=
  match cmd.type,rt.index cmd.param1,rt.index cmd.param2 with
  | .move,_,_ => rt.touch cmd.playerId.toUInt32
  | .attack,some src,some dst => rt.entered src dst
  | _,_,_ => rt

-- Every counter update of the command gives the result in the integers.
def Counted (rt : RuntimeData) (cmd : BattleCmd) (next : RuntimeData) : Prop :=
  rt.Accepted cmd → next.players = ((opened rt cmd).postAll (updates rt cmd)).players ∧
    Tallied (opened rt cmd) (updates rt cmd)

section Commands
variable {rt : RuntimeData} {src dst : Nat}

theorem move_updates {playerId : UserId} : (rt.move src dst playerId).players = ((rt.touch playerId).postAll
    (⟨playerId,.resources,true⟩ :: if ((rt.arrived src dst).tile dst).type = .base
      then [⟨playerId,.baseCount,true⟩] else [])).players := by
  unfold move
  dsimp only
  split
  · rename_i base
    have type : ((rt.arrived src dst).tile dst).type = .base := base
    rw [if_pos type]
    rfl
  · rename_i plain
    have type : ((rt.arrived src dst).tile dst).type ≠ .base := plain
    rw [if_neg type]
    rfl

theorem opened_reading {cmd : BattleCmd} (account : UserId × Counter) :
    (opened rt cmd).reading account = rt.reading account := by
  unfold opened
  split <;> simp only [reading,touch_player,entered_player]

theorem updates_opened {cmd : BattleCmd} : ∀ u ∈ updates rt cmd, u.player ∈ (opened rt cmd).players := by
  intro u member
  unfold updates at member
  unfold opened
  split at member
  · rename_i dst type second
    have mover : u.player = cmd.playerId.toUInt32 := by split_ifs at member <;> simp at member <;> grind
    simp only [type]
    exact (touch_mem _ _ _).mpr (Or.inl mover)
  · rename_i type first second
    simp only [type,first,second]
    exact attackUpdates_present u member
  · cases member

theorem taken_posted (calm : rt.Calm) {cmd : BattleCmd} {iteration : Iteration} {b : Battle}
    (taken : Taken iteration rt cmd b) : b.runtime.players = ((opened rt cmd).postAll (updates rt cmd)).players := by
  cases taken with
  | @move src dst type first second different ownSrc ownDst =>
    have held : ((rt.arrived src dst).tile dst).type = (rt.tile dst).type := by
      rw [rewritten_tile (arrived_board (index_bound rt first).1 (index_bound rt second).1 different)
        (index_bound rt first).1 (index_bound rt second).1,if_pos rfl]
    have played : (rt.move src dst cmd.playerId.toUInt32).players = _ := move_updates
    rw [held] at played
    simp only [opened,updates,type,first,second]
    exact played
  | @attack src dst type first second facing =>
    have played := settled_players facing
    rw [← attack_settled iteration facing (calm_spares calm facing)] at played
    simp only [opened,updates,type,first,second]
    exact played
  | grow type first =>
    simp only [opened,updates,type]
    rfl

end Commands

theorem taken_counted {rt : RuntimeData} (calm : rt.Calm) {cmd : BattleCmd} {iteration : Iteration} {b : Battle}
    (accepted : rt.Accepted cmd) (taken : Taken iteration rt cmd b) :
    Counted rt cmd b.runtime ↔ Tallied (opened rt cmd) (updates rt cmd) := by
  unfold Counted
  rw [forall_prop_of_true accepted,and_iff_right (taken_posted calm taken)]

end GameServer.Battle
