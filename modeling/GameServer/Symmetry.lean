import Mathlib.Logic.Equiv.Basic
import GameServer.CommandOrder

namespace GameServer
open Foundation

-- Other names for the users, and other places for the tiles. The user 0 of a
-- tile is nobody, and stays so.
structure Relabel where
  users : Equiv.Perm UserId
  places : Equiv.Perm Nat
  nobody : users 0 = 0

namespace Relabel
variable (r : Relabel)

def tile (t : TileData) : TileData := { t with owner := r.users t.owner }

def state (s : PlayerRuntimeState) : PlayerRuntimeState := { s with playerId := r.users s.playerId }

def update (u : RuntimeData.Update) : RuntimeData.Update := { u with player := r.users u.player }

-- A command's 64-bit sender is a user where it fits in 32 bits, and nobody's
-- name otherwise.
def sender (id : UInt64) : UInt64 :=
  if id.toUInt32.toUInt64 = id then (r.users id.toUInt32).toUInt64 else id

section Kept
variable (t : TileData)

@[simp] theorem tile_owner : (r.tile t).owner = r.users t.owner := rfl
@[simp] theorem tile_value : (r.tile t).value = t.value := rfl
@[simp] theorem tile_type : (r.tile t).type = t.type := rfl
@[simp] theorem tile_countered : (r.tile t).countered = t.countered := rfl

end Kept

@[simp] theorem tile_default : r.tile default = default := congrArg (fun owner => { (default : TileData) with owner }) r.nobody

theorem state_default : r.state {} = {} := congrArg (fun playerId => { ({} : PlayerRuntimeState) with playerId }) r.nobody

theorem sender_iff (user : UserId) (id : UInt64) : (r.users user).toUInt64 = r.sender id ↔ user.toUInt64 = id := by
  unfold sender
  refine ⟨?_,?_⟩
  · intro same
    split at same
    · rename_i fits
      have same : r.users user = r.users id.toUInt32 := UInt32.toUInt64_inj.mp same
      rw [r.users.injective same,fits]
    · rename_i wide
      refine absurd ?_ wide
      rw [← same,UInt32.toUInt32_toUInt64]
  · rintro rfl
    rw [UInt32.toUInt32_toUInt64,if_pos rfl]

theorem sender_user {user : UserId} {id : UInt64} (own : user.toUInt64 = id) : (r.sender id).toUInt32 = r.users id.toUInt32 := by
  rw [← (r.sender_iff user id).mpr own,← own,UInt32.toUInt32_toUInt64,UInt32.toUInt32_toUInt64]

end Relabel

namespace RuntimeData

-- The same match under other names and on other places.
structure Renames (r : Relabel) (rt other : RuntimeData) : Prop where
  course : other.tick = rt.tick ∧ other.currentPlayerId = r.users rt.currentPlayerId
  inside : ∀ place, r.places place < other.mapData.tiles.length ↔ place < rt.mapData.tiles.length
  tiles : ∀ place, other.tile (r.places place) = r.tile (rt.tile place)
  members : ∀ id, r.users id ∈ other.players ↔ id ∈ rt.players
  player : ∀ id, other.player (r.users id) = r.state (rt.player id)

def PointsAlike (r : Relabel) (rt other : RuntimeData) (param param' : Int32) : Prop :=
  other.index param' = (rt.index param).map r.places

-- The same command, said by the renamed player of the renamed tiles. How much a
-- tile is to grow is no name.
structure Translates (r : Relabel) (rt other : RuntimeData) (cmd cmd' : BattleCmd) : Prop where
  type : cmd'.type = cmd.type
  sender : cmd'.playerId = r.sender cmd.playerId
  params : match cmd.type with
    | .move | .attack => PointsAlike r rt other cmd.param1 cmd'.param1 ∧ PointsAlike r rt other cmd.param2 cmd'.param2
    | .grow => PointsAlike r rt other cmd.param1 cmd'.param1 ∧ cmd'.param2 = cmd.param2
    | .other _ => True

structure RenamesPatch (r : Relabel) (p p' : Patch) : Prop where
  tiles : ∀ place, p'.tiles (r.places place) = (p.tiles place).map r.tile
  opened : p'.opened = p.opened.map r.users
  updates : p'.updates = p.updates.map r.update
  notices : p'.notices = p.notices

section Renamed
variable {r : Relabel} {rt other next next' : RuntimeData} {cmd cmd' : BattleCmd} {param param' : Int32} {src dst : Nat}
  {p p' : Patch}

theorem tileAt_some {place : Nat} (found : rt.index param = some place) : rt.tileAt param = .ok (rt.tile place) := by
  rw [tileAt,found]

theorem tileAt_none (outside : rt.index param = none) : rt.tileAt param = .error .outOfRange := by
  rw [tileAt,outside]

theorem renamed_pair {ρ : Type} {test test' : TileData → TileData → ρ} {two two' : Int32} (same : Renames r rt other)
    (first : PointsAlike r rt other param param') (second : PointsAlike r rt other two two')
    (agree : ∀ src dst, rt.index param = some src → rt.index two = some dst →
      test' (r.tile (rt.tile src)) (r.tile (rt.tile dst)) = test (rt.tile src) (rt.tile dst)) :
    ((other.tileAt param').bind fun src => (other.tileAt two').bind fun dst => Except.ok (test' src dst)) =
      (rt.tileAt param).bind fun src => (rt.tileAt two).bind fun dst => Except.ok (test src dst) := by
  unfold PointsAlike at first second
  cases here : rt.index param with
  | none =>
    rw [here] at first
    rw [tileAt_none here,tileAt_none first]
    rfl
  | some src =>
    rw [here] at first
    rw [tileAt_some here,tileAt_some first]
    cases there : rt.index two with
    | none =>
      rw [there] at second
      rw [tileAt_none there,tileAt_none second]
      rfl
    | some dst =>
      rw [there] at second
      rw [tileAt_some there,tileAt_some second,same.tiles,same.tiles]
      exact congrArg Except.ok (agree src dst here there)

theorem renamed_one {ρ : Type} {test test' : TileData → ρ} (same : Renames r rt other)
    (first : PointsAlike r rt other param param') (agree : ∀ dst, test' (r.tile (rt.tile dst)) = test (rt.tile dst)) :
    ((other.tileAt param').bind fun dst => Except.ok (test' dst)) = (rt.tileAt param).bind fun dst => Except.ok (test dst) := by
  unfold PointsAlike at first
  cases here : rt.index param with
  | none =>
    rw [here] at first
    rw [tileAt_none here,tileAt_none first]
    rfl
  | some dst =>
    rw [here] at first
    rw [tileAt_some here,tileAt_some first,same.tiles]
    exact congrArg Except.ok (agree dst)

theorem points_differ {two two' : Int32} (first : PointsAlike r rt other param param')
    (second : PointsAlike r rt other two two') (here : rt.index param = some src) (there : rt.index two = some dst) :
    param' = two' ↔ param = two := by
  unfold PointsAlike at first second
  rw [here,Option.map_some] at first
  rw [there,Option.map_some] at second
  refine ⟨?_,?_⟩
  · rintro rfl
    have same : src = dst := r.places.injective (Option.some.inj (first.symm.trans second))
    exact index_injective here (same ▸ there)
  · rintro rfl
    have same : src = dst := Option.some.inj (here.symm.trans there)
    exact index_injective first (same ▸ second)

theorem renamed_validate (same : Renames r rt other) (translates : Translates r rt other cmd cmd') :
    other.validateCmd cmd' = rt.validateCmd cmd := by
  obtain ⟨type,sender,params⟩ := translates
  unfold validateCmd
  rw [type,sender]
  cases kind : cmd.type with
  | move =>
    rw [kind] at params
    obtain ⟨first,second⟩ := params
    refine renamed_pair same first second fun src dst here there => ?_
    simp [points_differ first second here there,Relabel.tile,Relabel.sender_iff]
  | attack =>
    rw [kind] at params
    obtain ⟨first,second⟩ := params
    refine renamed_pair same first second fun src dst here there => ?_
    simp [points_differ first second here there,Relabel.tile,Relabel.sender_iff]
  | grow =>
    rw [kind] at params
    obtain ⟨first,_⟩ := params
    refine renamed_one same first fun dst => ?_
    have own : r.sender cmd.playerId = (r.users (rt.tile dst).owner).toUInt64 ↔ cmd.playerId = (rt.tile dst).owner.toUInt64 :=
      (eq_comm.trans (r.sender_iff _ _)).trans eq_comm
    simp [own]
  | other raw => rfl

theorem renamed_both (src dst : Nat) (atSrc atDst : TileData) (place : Nat) :
    both (r.places src) (r.places dst) (r.tile atSrc) (r.tile atDst) (r.places place) =
      (both src dst atSrc atDst place).map r.tile := by
  unfold both
  simp only [r.places.apply_eq_iff_eq]
  split_ifs <;> rfl

section Fighting
variable (src dst : Nat)

theorem renamed_spoils (same : Renames r rt other) : other.spoils (r.places src) (r.places dst) = r.users (rt.spoils src dst) := by
  unfold spoils
  simp only [same.tiles,Relabel.tile_value,Relabel.tile_owner]
  split_ifs
  · exact r.nobody.symm
  · rfl

theorem renamed_settledSrc (same : Renames r rt other) :
    other.settledSrc (r.places src) (r.places dst) = r.tile (rt.settledSrc src dst) := by
  unfold settledSrc
  simp only [same.tiles,Relabel.tile_value,Relabel.tile_countered]
  split_ifs <;> simp [Relabel.tile,r.nobody]

theorem renamed_settledDst (same : Renames r rt other) :
    other.settledDst (r.places src) (r.places dst) = r.tile (rt.settledDst src dst) := by
  unfold settledDst
  simp only [renamed_spoils src dst same,same.tiles,Relabel.tile_value,Relabel.tile_countered]
  split_ifs <;> simp [Relabel.tile,r.nobody]

theorem renamed_updates (same : Renames r rt other) :
    other.attackUpdates (r.places src) (r.places dst) = (rt.attackUpdates src dst).map r.update := by
  unfold attackUpdates plunder
  simp only [renamed_spoils src dst same,same.tiles,Relabel.tile_owner,Relabel.tile_value,Relabel.tile_type,
    Relabel.tile_countered,r.users.apply_eq_iff_eq]
  split_ifs <;> rfl

theorem renamed_basesLost (same : Renames r rt other) : other.basesLost (r.places src) (r.places dst) = rt.basesLost src dst := by
  have fate : other.handover (r.places src) (r.places dst) =
      (rt.handover src dst).map fun change => (r.places change.1,r.users change.2) := by
    unfold handover
    simp only [same.tiles,Relabel.tile_owner,Relabel.tile_value,Relabel.tile_countered]
    split_ifs <;> simp [r.nobody]
  unfold basesLost
  rw [fate]
  cases rt.handover src dst with
  | none => rfl
  | some change =>
    simp only [Option.map_some,same.tiles,Relabel.tile_type]

end Fighting

theorem mover_owns (accepted : rt.validateCmd cmd = .ok true) (type : cmd.type = .move)
    (first : rt.index cmd.param1 = some src) : (rt.tile src).owner.toUInt64 = cmd.playerId := by
  unfold validateCmd at accepted
  rw [type] at accepted
  obtain ⟨_,first',rest⟩ := tileAt_checked accepted
  obtain ⟨_,_,checks⟩ := tileAt_checked rest
  have checks := Except.ok.inj checks
  simp only [Bool.and_eq_true,decide_eq_true_eq] at checks
  cases first.symm.trans first'
  exact checks.1.1.2

theorem renamed_patch (same : Renames r rt other) (translates : Translates r rt other cmd cmd') :
    RenamesPatch r (rt.patch cmd) (other.patch cmd') := by
  have validated := renamed_validate same translates
  obtain ⟨type,sender,params⟩ := translates
  have nothing : RenamesPatch r {} {} := ⟨fun _ => rfl,rfl,rfl,rfl⟩
  unfold patch
  rw [validated,type]
  cases verdict : rt.validateCmd cmd with
  | error thrown => exact nothing
  | ok valid =>
    cases valid with
    | false => exact nothing
    | true =>
      cases kind : cmd.type with
      | move =>
        rw [kind] at params
        obtain ⟨first,second⟩ := params
        rw [first,second]
        cases here : rt.index cmd.param1 with
        | none => exact nothing
        | some src =>
          cases there : rt.index cmd.param2 with
          | none => exact nothing
          | some dst =>
            have mover := r.sender_user (mover_owns verdict kind here)
            simp only [Option.map_some,same.tiles,sender,mover]
            refine ⟨?_,rfl,?_,rfl⟩
            · exact renamed_both src dst { rt.tile src with value := 1, acted := true }
                { rt.tile dst with owner := (rt.tile src).owner, value := (rt.tile dst).value + (1 - 1) }
            · by_cases base : (rt.tile dst).type = .base <;> simp [base,Relabel.update]
      | attack =>
        rw [kind] at params
        obtain ⟨first,second⟩ := params
        rw [first,second]
        cases here : rt.index cmd.param1 with
        | none => exact nothing
        | some src =>
          cases there : rt.index cmd.param2 with
          | none => exact nothing
          | some dst =>
            simp only [Option.map_some,renamed_settledSrc src dst same,renamed_settledDst src dst same,
              renamed_updates src dst same,renamed_basesLost src dst same,same.tiles]
            exact ⟨renamed_both src dst _ _,rfl,rfl,rfl⟩
      | grow =>
        rw [kind] at params
        obtain ⟨first,amount⟩ := params
        rw [first]
        cases here : rt.index cmd.param1 with
        | none => exact nothing
        | some dst =>
          simp only [Option.map_some,same.tiles,amount]
          refine ⟨?_,rfl,rfl,rfl⟩
          intro place
          simp only [r.places.apply_eq_iff_eq]
          split_ifs <;> rfl
      | other raw => exact nothing

theorem renamed_credited (state : PlayerRuntimeState) (resources baseCount : UInt32) :
    credited (r.state state) resources baseCount = r.state (credited state resources baseCount) := rfl

theorem renamed_income (updates : List Update) (id : UserId) (counter : Counter) :
    income (updates.map r.update) (r.users id,counter) = income updates (id,counter) := by
  unfold income
  rw [List.map_map]
  congr 1
  refine List.map_congr_left fun u _ => ?_
  unfold worth
  have names : (r.users id,counter) = (r.update u).account ↔ (id,counter) = u.account := by
    simp [Update.account,Relabel.update]
  simp only [Function.comp_apply,names]
  rfl

theorem renamed_patched (same : Renames r rt other) (alike : RenamesPatch r p p') (patched : Patched rt p next)
    (patched' : Patched other p' next') : Renames r next next' := by
  obtain ⟨⟨-,ticks,current⟩,-,size,tiles,members,player⟩ := patched
  obtain ⟨⟨-,ticks',current'⟩,-,size',tiles',members',player'⟩ := patched'
  obtain ⟨ticksSame,currentSame⟩ := same.course
  refine ⟨⟨?_,?_⟩,?_,?_,?_,?_⟩
  · rw [ticks',ticksSame,ticks]
  · rw [current',currentSame,current]
  · intro place
    rw [size',size]
    exact same.inside place
  · intro place
    rw [tiles',alike.tiles,tiles,same.tiles]
    cases p.tiles place <;> rfl
  · intro id
    rw [members',members,same.members,alike.opened,List.mem_map_of_injective r.users.injective]
  · intro id
    rw [player',alike.updates,renamed_income,renamed_income,same.player,renamed_credited,player]

theorem renamed_calm (same : Renames r rt other) (calm : rt.Calm) : other.Calm := by
  intro id
  rw [← r.users.apply_symm_apply id,same.player]
  exact calm _

theorem translates_sized (size : next.mapData.tiles.length = rt.mapData.tiles.length)
    (size' : next'.mapData.tiles.length = other.mapData.tiles.length) (translates : Translates r rt other cmd cmd') :
    Translates r next next' cmd cmd' := by
  have points (param param' : Int32) : PointsAlike r next next' param param' = PointsAlike r rt other param param' := by
    simp only [PointsAlike,index,size,size']
  obtain ⟨type,sender,params⟩ := translates
  refine ⟨type,sender,?_⟩
  simp only [points]
  exact params

end Renamed

def RenamesPlayers (r : Relabel) (players copy : UnorderedMap UserId PlayerRuntimeState) : Prop :=
  ∀ id, copy.lookup (r.users id) = (players.lookup id).map r.state

def RenamesInfos (r : Relabel) (infos copy : List GamePlayerInfo) : Prop :=
  copy.map (·.bInfo.userId) = infos.map fun info => r.users info.bInfo.userId

structure RenamesMap (r : Relabel) (mapData copy : MapData) : Prop where
  inside : ∀ place, r.places place < copy.tiles.length ↔ place < mapData.tiles.length
  tiles : ∀ place (inside : place < mapData.tiles.length), copy.tiles[r.places place]? = some (r.tile mapData.tiles[place])

section Starts
variable {r : Relabel} {players copy : UnorderedMap UserId PlayerRuntimeState}

theorem seated_renames (same : RenamesPlayers r players copy) (infos infos' : List GamePlayerInfo)
    (named : RenamesInfos r infos infos') (seat : Nat) :
    RenamesPlayers r (seatPlayers players seat infos) (seatPlayers copy seat infos') := by
  unfold RenamesInfos at named
  induction infos generalizing infos' players copy seat with
  | nil =>
    rw [List.map_nil,List.map_eq_nil_iff] at named
    rw [named]
    exact same
  | cons info rest ih =>
    cases infos' with
    | nil => cases named
    | cons info' rest' =>
      rw [List.map_cons,List.map_cons,List.cons.injEq] at named
      obtain ⟨head,tail⟩ := named
      refine ih ?_ rest' tail (seat + 1)
      intro id
      rw [UnorderedMap.lookup_insert_eq,UnorderedMap.lookup_insert_eq,head]
      by_cases own : id = info.bInfo.userId
      · subst own
        simp [Relabel.state]
      · rw [if_neg own,if_neg (fun names => own (r.users.injective names))]
        exact same id

theorem started_renames {h h' next next' : GameCmdHandler} (same : RenamesPlayers r h.runtime.players h'.runtime.players)
    {load load' : StdString → Option MapData} {info info' : MatchInfo} {mapData copy : MapData}
    (loaded : load info.selectedMapPath = some mapData) (loaded' : load' info'.selectedMapPath = some copy)
    (maps : RenamesMap r mapData copy) (infos : RenamesInfos r info.players info'.players)
    (owner : info'.ownerId = r.users info.ownerId) (started : h.startGame load info = (none,next))
    (started' : h'.startGame load' info' = (none,next')) : Renames r next.runtime next'.runtime := by
  rw [GameCmdHandler.startGame,loaded] at started
  rw [GameCmdHandler.startGame,loaded'] at started'
  cases started
  cases started'
  have seated := seated_renames same info.players info'.players infos 0
  refine ⟨⟨rfl,owner⟩,maps.inside,?_,?_,?_⟩
  · intro place
    unfold tile
    dsimp only
    by_cases inside : place < mapData.tiles.length
    · simp [List.getD_eq_getElem?_getD,maps.tiles place inside,inside]
    · have outside := (maps.inside place).not.mpr inside
      simp [List.getD_eq_getElem?_getD,inside,outside]
  · intro id
    rw [← AList.lookup_isSome,seated,Option.isSome_map,AList.lookup_isSome]
  · intro id
    unfold player
    rw [seated]
    cases AList.lookup id (seatPlayers h.runtime.players 0 info.players) with
    | none => exact r.state_default.symm
    | some state => rfl

end Starts
end RuntimeData

namespace Battle
open RuntimeData

structure Renames (r : Relabel) (start copy : RuntimeData) (b b' : Battle) : Prop where
  calm : b.runtime.Calm
  runtime : RuntimeData.Renames r b.runtime b'.runtime
  winners : b'.endings.map (·.winner) = (b.endings.map (·.winner)).map r.users
  size : b.runtime.mapData.tiles.length = start.mapData.tiles.length
  size' : b'.runtime.mapData.tiles.length = copy.mapData.tiles.length

theorem step_renames {r : Relabel} {start copy : RuntimeData} {b b' : Battle} {c c' : Command}
    (same : Renames r start copy b b') (translates : Translates r start copy c.cmd c'.cmd) :
    b.runtime.validateCmd c.cmd = b'.runtime.validateCmd c'.cmd ∧
      ∃ next next', b.step c = some next ∧ b'.step c' = some next' ∧ Renames r start copy next next' := by
  have translates := translates_sized same.size same.size' translates
  obtain ⟨next,stepped⟩ := step_total b c
  obtain ⟨next',stepped'⟩ := step_total b' c'
  have advanced := step_advanced same.calm stepped
  have advanced' := step_advanced (renamed_calm same.runtime same.calm) stepped'
  have alike := renamed_patch same.runtime translates
  refine ⟨(renamed_validate same.runtime translates).symm,next,next',stepped,stepped',step_calm same.calm stepped,?_,?_,?_,?_⟩
  · exact renamed_patched same.runtime alike advanced.runtime advanced'.runtime
  · rw [advanced'.winners,advanced.winners,same.winners,alike.notices,List.map_append,List.map_replicate,r.nobody]
  · rw [advanced.runtime.size,same.size]
  · rw [advanced'.runtime.size,same.size']

-- The rules know no player and no place by name. A match played under other
-- names and on other places gets the same verdicts and comes to the same end,
-- in any order of the players map.
theorem names_immaterial (r : Relabel) (roomId : RoomId) (history : List GameCmdHandler.Event) (h : GameCmdHandler)
    (path : Machine.run GameCmdHandler.step (GameCmdHandler.create roomId) history = some h)
    (loadMapData : StdString → Option MapData) (info : MatchInfo) (next : GameCmdHandler)
    (started : h.startGame loadMapData info = (none,next)) (copy : RuntimeData) (same : RuntimeData.Renames r next.runtime copy)
    (one other : List Command)
    (translated : List.Forall₂ (fun c c' => Translates r next.runtime copy c.cmd c'.cmd) one other) :
    Machine.observed step (fun b c => b.runtime.validateCmd c.cmd) ⟨next.runtime,[]⟩ one =
        Machine.observed step (fun b c => b.runtime.validateCmd c.cmd) ⟨copy,[]⟩ other ∧
      ∃ reached matched, Machine.run step ⟨next.runtime,[]⟩ one = some reached ∧
        Machine.run step ⟨copy,[]⟩ other = some matched ∧ RuntimeData.Renames r reached.runtime matched.runtime ∧
        matched.endings.map (·.winner) = (reached.endings.map (·.winner)).map r.users := by
  have begun : Renames r next.runtime copy ⟨next.runtime,[]⟩ ⟨copy,[]⟩ := ⟨started_calm path started,same,rfl,rfl,rfl⟩
  have together := fun b b' (c c' : Command) => @step_renames r next.runtime copy b b' c c'
  obtain ⟨verdicts,reached,matched,run,run',ends⟩ := Machine.run_paired together translated begun
  exact ⟨verdicts,reached,matched,run,run',ends.runtime,ends.winners⟩

def mirror : Relabel := ⟨Equiv.swap 1 2,Equiv.swap 0 2,by decide⟩

def mirrorMap : MapData := ⟨3,1,[{ tileId := 3, owner := 1, value := 3, type := .base, roundType := 0 },
  { tileId := 2, owner := 2, value := 1, roundType := 0 },{ tileId := 1, owner := 2, value := 5, roundType := 0 }]⟩

def mirrorDuel : MatchInfo := ⟨[duelist 2,duelist 1],stdString "mirror",2⟩

def mirrorStart : GameCmdHandler := ((GameCmdHandler.create 1).startGame (fun _ => some mirrorMap) mirrorDuel).2

theorem mirror_renames : RuntimeData.Renames mirror duelStart.runtime mirrorStart.runtime := by
  have maps : RenamesMap mirror duelMap mirrorMap := by
    refine ⟨?_,by decide⟩
    intro place
    change Equiv.swap 0 2 place < 3 ↔ place < 3
    rw [Equiv.swap_apply_def]
    split_ifs <;> omega
  have infos : RenamesInfos mirror duel.players mirrorDuel.players := rfl
  have started : (GameCmdHandler.create 1).startGame (fun _ => some duelMap) duel = (none,duelStart) := rfl
  have started' : (GameCmdHandler.create 1).startGame (fun _ => some mirrorMap) mirrorDuel = (none,mirrorStart) := rfl
  exact started_renames (fun _ => rfl) rfl rfl maps infos rfl started started'

def duelCommands : List Command :=
  [⟨keyOrder,⟨1,.grow,0,3⟩⟩,⟨keyOrder,⟨2,.grow,2,1⟩⟩,⟨keyOrder,⟨1,.attack,0,2⟩⟩]

def mirrorCommands : List Command :=
  [⟨keyOrder,⟨2,.grow,2,3⟩⟩,⟨keyOrder,⟨1,.grow,0,1⟩⟩,⟨keyOrder,⟨2,.attack,2,0⟩⟩]

theorem duel_mirrored : ∃ reached matched, Machine.run step ⟨duelStart.runtime,[]⟩ duelCommands = some reached ∧
    Machine.run step ⟨mirrorStart.runtime,[]⟩ mirrorCommands = some matched ∧
    RuntimeData.Renames mirror reached.runtime matched.runtime ∧
    matched.endings.map (·.winner) = (reached.endings.map (·.winner)).map mirror.users := by
  have translated : List.Forall₂ (fun c c' : Command => Translates mirror duelStart.runtime mirrorStart.runtime c.cmd c'.cmd)
      duelCommands mirrorCommands :=
    .cons ⟨rfl,rfl,rfl,rfl⟩ (.cons ⟨rfl,rfl,rfl,rfl⟩ (.cons ⟨rfl,rfl,rfl,rfl⟩ .nil))
  exact (names_immaterial mirror 1 [] (GameCmdHandler.create 1) rfl (fun _ => some duelMap) duel duelStart rfl
    mirrorStart.runtime mirror_renames duelCommands mirrorCommands translated).2

end Battle
end GameServer
