import GameServer.Counters
import GameServer.CommandFrames
import GameServer.Foundation.Traces

namespace GameServer
open Foundation

def BattleCmd.named (cmd : BattleCmd) : List Int32 :=
  match cmd.type with
  | .move | .attack => [cmd.param1,cmd.param2]
  | .grow => [cmd.param1]
  | .other _ => []

def BattleCmd.Apart (one other : BattleCmd) : Prop := List.Disjoint one.named other.named

namespace RuntimeData

-- What a command does to a match in which nobody has lost: the tiles it
-- rewrites, the entries it makes sure of, the counters it moves, and how often
-- the callback is called.
structure Patch where
  tiles : Nat → Option TileData := fun _ => none
  opened : List UserId := []
  updates : List Update := []
  notices : Nat := 0

def both (src dst : Nat) (atSrc atDst : TileData) (place : Nat) : Option TileData :=
  if place = dst then some atDst else if place = src then some atSrc else none

def basesLost (rt : RuntimeData) (src dst : Nat) : Nat :=
  match rt.handover src dst with
  | some (place,_) => if (rt.tile place).type = .base then 1 else 0
  | none => 0

def patch (rt : RuntimeData) (cmd : BattleCmd) : Patch :=
  match rt.validateCmd cmd,cmd.type,rt.index cmd.param1,rt.index cmd.param2 with
  | .ok true,.move,some src,some dst =>
    { tiles := both src dst { rt.tile src with value := 1, acted := true }
        { rt.tile dst with owner := (rt.tile src).owner, value := (rt.tile dst).value + (1 - 1) }
      opened := [cmd.playerId.toUInt32]
      updates := ⟨cmd.playerId.toUInt32,.resources,true⟩ ::
        if (rt.tile dst).type = .base then [⟨cmd.playerId.toUInt32,.baseCount,true⟩] else [] }
  | .ok true,.attack,some src,some dst =>
    { tiles := both src dst (rt.settledSrc src dst) (rt.settledDst src dst)
      opened := [(rt.tile src).owner,(rt.tile dst).owner]
      updates := rt.attackUpdates src dst
      notices := rt.basesLost src dst }
  | .ok true,.grow,some dst,_ =>
    { tiles := fun place => if place = dst
        then some { rt.tile dst with value := (rt.tile dst).value + cmd.param2.toUInt32 } else none }
  | _,_,_,_ => {}

def credited (state : PlayerRuntimeState) (resources baseCount : UInt32) : PlayerRuntimeState :=
  { state with resources := state.resources + resources, baseCount := state.baseCount + baseCount }

def worth (account : UserId × Counter) (u : Update) : UInt32 := if account = u.account then u.next 0 else 0

def income (updates : List Update) (account : UserId × Counter) : UInt32 := (updates.map (worth account)).foldr (· + ·) 0

structure Patched (rt : RuntimeData) (p : Patch) (next : RuntimeData) : Prop where
  course : next.mapName = rt.mapName ∧ next.tick = rt.tick ∧ next.currentPlayerId = rt.currentPlayerId
  extent : next.mapData.width = rt.mapData.width ∧ next.mapData.height = rt.mapData.height
  size : next.mapData.tiles.length = rt.mapData.tiles.length
  tiles : ∀ place, next.tile place = (p.tiles place).getD (rt.tile place)
  members : ∀ id, id ∈ next.players ↔ id ∈ p.opened ∨ id ∈ rt.players
  player : ∀ id, next.player id =
    credited (rt.player id) (income p.updates (id,.resources)) (income p.updates (id,.baseCount))

structure Alike (rt other : RuntimeData) : Prop where
  course : other.mapName = rt.mapName ∧ other.tick = rt.tick ∧ other.currentPlayerId = rt.currentPlayerId
  mapData : other.mapData = rt.mapData
  entries : ∀ id, other.players.lookup id = rt.players.lookup id

section Credits
variable {rt : RuntimeData} {u : Update} {id : UserId} {updates : List Update} {state : PlayerRuntimeState}

theorem credited_none : credited state 0 0 = state := by
  cases state
  simp [credited]

theorem credited_credited (one other one' other' : UInt32) :
    credited (credited state one other) one' other' = credited state (one + one') (other + other') := by
  simp only [credited,UInt32.add_assoc]

theorem post_player (present : u.player ∈ rt.players) : (rt.post u).player id =
    credited (rt.player id) (worth (id,.resources) u) (worth (id,.baseCount) u) := by
  obtain ⟨user,counter,gain⟩ := u
  unfold post
  rw [setPlayer_player _ _ _ _ present]
  by_cases same : id = user
  · subst same
    cases counter <;> cases gain <;> simp [credited,worth,Update.account,Update.next,Counter.write,Counter.read,
      UInt32.sub_eq_add_neg]
  · simp [credited_none,worth,Update.account,same]

theorem postAll_player (present : ∀ u ∈ updates, u.player ∈ rt.players) : (rt.postAll updates).player id =
    credited (rt.player id) (income updates (id,.resources)) (income updates (id,.baseCount)) := by
  unfold postAll
  induction updates generalizing rt with
  | nil => exact credited_none.symm
  | cons u rest ih =>
    have later : ∀ v ∈ rest, v.player ∈ (rt.post u).players :=
      fun v member => (setPlayer_mem _ _ _ _).mpr (present v (List.mem_cons_of_mem _ member))
    rw [List.foldl_cons,ih later,post_player (present u List.mem_cons_self),credited_credited]
    rfl

theorem postAll_mem : id ∈ (rt.postAll updates).players ↔ id ∈ rt.players := by
  unfold postAll
  induction updates generalizing rt with
  | nil => exact Iff.rfl
  | cons u rest ih => exact ih.trans (setPlayer_mem _ _ _ _)

theorem open_mem (opened : List UserId) : id ∈ (opened.foldl touch rt).players ↔ id ∈ opened ∨ id ∈ rt.players := by
  induction opened generalizing rt with
  | nil => simp
  | cons user rest ih =>
    rw [List.foldl_cons,ih,touch_mem,List.mem_cons]
    tauto

theorem open_player (opened : List UserId) : (opened.foldl touch rt).player id = rt.player id := by
  induction opened generalizing rt with
  | nil => rfl
  | cons user rest ih => rw [List.foldl_cons,ih,touch_player]

theorem posted_players {next : RuntimeData} (opened : List UserId) (ours : ∀ u ∈ updates, u.player ∈ opened)
    (posted : next.players = ((opened.foldl touch rt).postAll updates).players) :
    (∀ id, id ∈ next.players ↔ id ∈ opened ∨ id ∈ rt.players) ∧ ∀ id, next.player id =
      credited (rt.player id) (income updates (id,.resources)) (income updates (id,.baseCount)) := by
  refine ⟨?_,?_⟩
  · intro id
    rw [posted,postAll_mem,open_mem]
  · intro id
    have present : ∀ u ∈ updates, u.player ∈ (opened.foldl touch rt).players :=
      fun u member => (open_mem opened).mpr (Or.inl (ours u member))
    rw [player,posted,← player,postAll_player present,open_player]

end Credits

section Commands
variable {rt next other : RuntimeData} {cmd : BattleCmd} {src dst place : Nat}

theorem patch_refused (refused : ¬ rt.Accepted cmd) : rt.patch cmd = {} := by
  unfold patch
  split <;> first | exact absurd ‹_› refused | rfl

theorem patched_nothing (rt : RuntimeData) : Patched rt {} rt :=
  ⟨⟨rfl,rfl,rfl⟩,⟨rfl,rfl⟩,rfl,fun _ => rfl,fun _ => by simp,fun _ => credited_none.symm⟩

theorem rewritten_both {atSrc atDst : TileData} (board : Rewritten rt next src dst atSrc atDst)
    (insideSrc : src < rt.mapData.tiles.length) (insideDst : dst < rt.mapData.tiles.length) (place : Nat) :
    next.tile place = (both src dst atSrc atDst place).getD (rt.tile place) := by
  rw [rewritten_tile board insideSrc insideDst,both]
  split
  · rfl
  · split <;> rfl

theorem move_patched (accepted : rt.Accepted cmd) (type : cmd.type = .move) (first : rt.index cmd.param1 = some src)
    (second : rt.index cmd.param2 = some dst) (different : src ≠ dst)
    (framed : Framed (rt.commandPlaces cmd) (rt.formerOwners cmd) rt (rt.move src dst cmd.playerId.toUInt32)) :
    Patched rt (rt.patch cmd) (rt.move src dst cmd.playerId.toUInt32) := by
  have board := arrived_board (index_bound rt first).1 (index_bound rt second).1 different
  have tiles := rewritten_both board (index_bound rt first).1 (index_bound rt second).1
  have moved : (rt.move src dst cmd.playerId.toUInt32).mapData = (rt.arrived src dst).mapData := by
    unfold move
    dsimp only
    split
    · rw [gainBase_mapData]
      rfl
    · rfl
  have type' : ((rt.arrived src dst).tile dst).type = (rt.tile dst).type := by
    rw [tiles,both,if_pos rfl]
    rfl
  have played : (rt.move src dst cmd.playerId.toUInt32).players = _ := Battle.move_updates
  rw [type'] at played
  have accepted : rt.validateCmd cmd = .ok true := accepted
  have counted := posted_players [cmd.playerId.toUInt32] (by split_ifs <;> simp) played
  simp only [patch,accepted,type,first,second]
  refine ⟨framed.course,framed.extent,framed.size,?_,counted.1,counted.2⟩
  intro place
  rw [tile,moved,← tile]
  exact tiles place

theorem attack_patched (calm : rt.Calm) (accepted : rt.Accepted cmd) (type : cmd.type = .attack)
    (first : rt.index cmd.param1 = some src) (second : rt.index cmd.param2 = some dst) (facing : Facing rt src dst)
    (iteration : Iteration)
    (framed : Framed (rt.commandPlaces cmd) (rt.formerOwners cmd) rt (rt.attack iteration src dst).runtime) :
    Patched rt (rt.patch cmd) (rt.attack iteration src dst).runtime := by
  have settled := attack_settled iteration facing (calm_spares calm facing)
  have accepted : rt.validateCmd cmd = .ok true := accepted
  have ours : ∀ u ∈ rt.attackUpdates src dst, u.player ∈ [(rt.tile src).owner,(rt.tile dst).owner] := by
    intro u member
    unfold attackUpdates plunder at member
    dsimp only at member
    split_ifs at member <;> simp at member <;> grind
  have counted := posted_players [(rt.tile src).owner,(rt.tile dst).owner] ours (settled_players facing)
  rw [settled] at framed ⊢
  simp only [patch,accepted,type,first,second]
  refine ⟨framed.course,framed.extent,framed.size,?_,counted.1,counted.2⟩
  exact rewritten_both (settled_board facing) facing.insideSrc facing.insideDst

theorem grow_patched (accepted : rt.Accepted cmd) (type : cmd.type = .grow) (first : rt.index cmd.param1 = some dst) :
    Patched rt (rt.patch cmd) (rt.grow dst cmd.param2) := by
  have accepted : rt.validateCmd cmd = .ok true := accepted
  have inside := (index_bound rt first).1
  simp only [patch,accepted,type,first]
  refine ⟨⟨rfl,rfl,rfl⟩,⟨rfl,rfl⟩,setTile_length _ _ _,?_,fun _ => by simp [grow,setTile],fun _ => credited_none.symm⟩
  intro place
  rw [grow,setTile_tile _ _ _ _ inside]
  by_cases same : place = dst <;> simp [same]

theorem taken_patched (calm : rt.Calm) (accepted : rt.Accepted cmd) {iteration : Iteration} {b : Battle}
    (taken : Taken iteration rt cmd b) : Patched rt (rt.patch cmd) b.runtime := by
  have framed := taken_framed taken
  cases taken with
  | move type first second different ownSrc ownDst strong => exact move_patched accepted type first second different framed
  | attack type first second facing own => exact attack_patched calm accepted type first second facing iteration framed
  | grow type first own alive => exact grow_patched accepted type first

-- The callback is called at most once in a command, and always with 0.
theorem taken_notices (calm : rt.Calm) (accepted : rt.Accepted cmd) {iteration : Iteration} {b : Battle}
    (taken : Taken iteration rt cmd b) : b.endings.map (·.winner) = List.replicate (rt.patch cmd).notices 0 := by
  have accepted : rt.validateCmd cmd = .ok true := accepted
  cases taken with
  | move type first second => simp [patch,accepted,type,first,second]
  | @attack src dst type first second facing own =>
    have endings := (attack_resolved calm facing iteration).endings
    simp only [patch,accepted,type,first,second,basesLost]
    rw [endings]
    cases rt.handover src dst with
    | none => rfl
    | some change =>
      dsimp only
      split <;> rfl
  | grow type first => simp [patch,accepted,type,first]

end Commands
end RuntimeData
end GameServer
