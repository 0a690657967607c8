import GameServer.Patches

namespace GameServer
open Foundation

namespace RuntimeData

-- The other state shows a command the tiles it names as this one does.
structure Shows (rt other : RuntimeData) (cmd : BattleCmd) : Prop where
  size : other.mapData.tiles.length = rt.mapData.tiles.length
  tiles : ∀ param ∈ cmd.named, ∀ place, rt.index param = some place → other.tile place = rt.tile place

section Shown
variable {rt other : RuntimeData} {cmd : BattleCmd} {param : Int32} {place : Nat}

theorem shown_index (shown : Shows rt other cmd) : other.index param = rt.index param := by
  unfold index
  rw [shown.size]

theorem shown_tileAt (shown : Shows rt other cmd) (named : param ∈ cmd.named) : other.tileAt param = rt.tileAt param := by
  unfold tileAt
  rw [shown_index shown]
  cases found : rt.index param with
  | none => rfl
  | some place =>
    dsimp only
    rw [shown.tiles param named place found]

theorem shown_validate (shown : Shows rt other cmd) : other.validateCmd cmd = rt.validateCmd cmd := by
  have same (param : Int32) (named : param ∈ cmd.named) := shown_tileAt shown named
  unfold validateCmd
  unfold BattleCmd.named at same
  cases type : cmd.type with
  | move => simp only [type] at same ⊢; rw [same _ (by simp),same _ (by simp)]
  | attack => simp only [type] at same ⊢; rw [same _ (by simp),same _ (by simp)]
  | grow => simp only [type] at same ⊢; rw [same _ (by simp)]
  | other raw => rfl

theorem shown_patch (shown : Shows rt other cmd) : other.patch cmd = rt.patch cmd := by
  unfold patch
  rw [shown_validate shown,shown_index shown,shown_index shown]
  split
  · rename_i src dst _ type first second
    rw [shown.tiles cmd.param1 (by simp [BattleCmd.named,type]) src first,
      shown.tiles cmd.param2 (by simp [BattleCmd.named,type]) dst second]
  · rename_i src dst _ type first second
    have atSrc := shown.tiles cmd.param1 (by simp [BattleCmd.named,type]) src first
    have atDst := shown.tiles cmd.param2 (by simp [BattleCmd.named,type]) dst second
    have fate : other.handover src dst = rt.handover src dst := by simp only [handover,atSrc,atDst]
    have lost : other.basesLost src dst = rt.basesLost src dst := by
      unfold basesLost
      rw [fate]
      cases found : rt.handover src dst with
      | none => rfl
      | some change =>
        have struck : other.tile change.1 = rt.tile change.1 := by
          unfold handover at found
          split_ifs at found <;> cases found <;> assumption
        dsimp only
        rw [struck]
    have settledSrc' : other.settledSrc src dst = rt.settledSrc src dst := by
      unfold settledSrc
      rw [atSrc,atDst]
    have settledDst' : other.settledDst src dst = rt.settledDst src dst := by
      unfold settledDst spoils
      rw [atSrc,atDst]
    have updates' : other.attackUpdates src dst = rt.attackUpdates src dst := by
      unfold attackUpdates plunder spoils
      rw [atSrc,atDst]
    rw [settledSrc',settledDst',updates',lost,atSrc,atDst]
  · rename_i dst _ type first
    rw [shown.tiles cmd.param1 (by simp [BattleCmd.named,type]) dst first]
  · rfl

theorem patch_named {tile : TileData} (rewritten : (rt.patch cmd).tiles place = some tile) :
    ∃ param ∈ cmd.named, rt.index param = some place := by
  unfold patch at rewritten
  split at rewritten
  · rename_i src dst _ type first second
    dsimp only [both] at rewritten
    split_ifs at rewritten with atDst atSrc
    · exact ⟨cmd.param2,by simp [BattleCmd.named,type],by rw [second,atDst]⟩
    · exact ⟨cmd.param1,by simp [BattleCmd.named,type],by rw [first,atSrc]⟩
  · rename_i src dst _ type first second
    dsimp only [both] at rewritten
    split_ifs at rewritten with atDst atSrc
    · exact ⟨cmd.param2,by simp [BattleCmd.named,type],by rw [second,atDst]⟩
    · exact ⟨cmd.param1,by simp [BattleCmd.named,type],by rw [first,atSrc]⟩
  · rename_i dst _ type first
    dsimp only at rewritten
    split_ifs at rewritten with atDst
    exact ⟨cmd.param1,by simp [BattleCmd.named,type],by rw [first,atDst]⟩
  · cases rewritten

end Shown

namespace Alike
variable {rt other third : RuntimeData}

theorem refl (rt : RuntimeData) : Alike rt rt := ⟨⟨rfl,rfl,rfl⟩,rfl,fun _ => rfl⟩

theorem symm (same : Alike rt other) : Alike other rt := by
  obtain ⟨name,ticks,current⟩ := same.course
  exact ⟨⟨name.symm,ticks.symm,current.symm⟩,same.mapData.symm,fun id => (same.entries id).symm⟩

theorem trans (left : Alike rt other) (right : Alike other third) : Alike rt third := by
  obtain ⟨name,ticks,current⟩ := left.course
  obtain ⟨name',ticks',current'⟩ := right.course
  refine ⟨⟨name'.trans name,ticks'.trans ticks,current'.trans current⟩,right.mapData.trans left.mapData,?_⟩
  intro id
  exact (right.entries id).trans (left.entries id)

theorem player (same : Alike rt other) (id : UserId) : other.player id = rt.player id := by
  rw [RuntimeData.player,same.entries,RuntimeData.player]

theorem mem (same : Alike rt other) (id : UserId) : id ∈ other.players ↔ id ∈ rt.players := by
  rw [← AList.lookup_isSome,same.entries,AList.lookup_isSome]

theorem shows (same : Alike rt other) (cmd : BattleCmd) : Shows rt other cmd := by
  refine ⟨by rw [same.mapData],?_⟩
  intro _ _ place _
  rw [tile,same.mapData,tile]

end Alike

section Patching
variable {rt rt' next next' middle middle' : RuntimeData} {p q : Patch}

theorem tiles_ext (size : next.mapData.tiles.length = rt.mapData.tiles.length)
    (tiles : ∀ place, next.tile place = rt.tile place) : next.mapData.tiles = rt.mapData.tiles := by
  refine List.ext_getElem size fun place inside inside' => ?_
  have same := tiles place
  simpa [tile,List.getD_eq_getElem?_getD,inside,inside'] using same

theorem alike_of (course : next.mapName = rt.mapName ∧ next.tick = rt.tick ∧ next.currentPlayerId = rt.currentPlayerId)
    (extent : next.mapData.width = rt.mapData.width ∧ next.mapData.height = rt.mapData.height)
    (size : next.mapData.tiles.length = rt.mapData.tiles.length) (tiles : ∀ place, next.tile place = rt.tile place)
    (members : ∀ id, id ∈ next.players ↔ id ∈ rt.players) (player : ∀ id, next.player id = rt.player id) : Alike rt next := by
  refine ⟨course,?_,?_⟩
  · have board := tiles_ext size tiles
    calc next.mapData = ⟨next.mapData.width,next.mapData.height,next.mapData.tiles⟩ := rfl
      _ = ⟨rt.mapData.width,rt.mapData.height,rt.mapData.tiles⟩ := by rw [extent.1,extent.2,board]
      _ = rt.mapData := rfl
  · intro id
    have value := player id
    unfold RuntimeData.player at value
    cases found : rt.players.lookup id with
    | none =>
      have absent : id ∉ rt.players := AList.lookup_eq_none.mp found
      exact AList.lookup_eq_none.mpr fun present => absent ((members id).mp present)
    | some state =>
      have present : id ∈ rt.players := UnorderedMap.mem_of_lookup found
      obtain ⟨state',found'⟩ := UnorderedMap.mem_iff_lookup.mp ((members id).mpr present)
      rw [found,found'] at value
      rw [found']
      exact congrArg some value

theorem patched_alike (same : Alike rt rt') (patched : Patched rt p next) (patched' : Patched rt' p next') :
    Alike next next' := by
  obtain ⟨name,ticks,current⟩ := same.course
  obtain ⟨⟨name₁,ticks₁,current₁⟩,⟨width₁,height₁⟩,size₁,tiles₁,members₁,player₁⟩ := patched
  obtain ⟨⟨name₂,ticks₂,current₂⟩,⟨width₂,height₂⟩,size₂,tiles₂,members₂,player₂⟩ := patched'
  have board : ∀ place, rt'.tile place = rt.tile place := fun place => by rw [tile,same.mapData,tile]
  refine alike_of ⟨?_,?_,?_⟩ ⟨?_,?_⟩ ?_ ?_ ?_ ?_
  · rw [name₂,name,name₁]
  · rw [ticks₂,ticks,ticks₁]
  · rw [current₂,current,current₁]
  · rw [width₂,same.mapData,width₁]
  · rw [height₂,same.mapData,height₁]
  · rw [size₂,same.mapData,size₁]
  · intro place
    rw [tiles₂,tiles₁,board]
  · intro id
    rw [members₂,members₁,same.mem]
  · intro id
    rw [player₂,player₁,same.player]

theorem patched_commute (apart : ∀ place, p.tiles place = none ∨ q.tiles place = none) (first : Patched rt p middle)
    (second : Patched middle q next) (first' : Patched rt q middle') (second' : Patched middle' p next') :
    Alike next next' := by
  obtain ⟨⟨name₁,ticks₁,current₁⟩,⟨width₁,height₁⟩,size₁,tiles₁,members₁,player₁⟩ := first
  obtain ⟨⟨name₂,ticks₂,current₂⟩,⟨width₂,height₂⟩,size₂,tiles₂,members₂,player₂⟩ := second
  obtain ⟨⟨name₃,ticks₃,current₃⟩,⟨width₃,height₃⟩,size₃,tiles₃,members₃,player₃⟩ := first'
  obtain ⟨⟨name₄,ticks₄,current₄⟩,⟨width₄,height₄⟩,size₄,tiles₄,members₄,player₄⟩ := second'
  refine alike_of ⟨?_,?_,?_⟩ ⟨?_,?_⟩ ?_ ?_ ?_ ?_
  · rw [name₄,name₃,name₂,name₁]
  · rw [ticks₄,ticks₃,ticks₂,ticks₁]
  · rw [current₄,current₃,current₂,current₁]
  · rw [width₄,width₃,width₂,width₁]
  · rw [height₄,height₃,height₂,height₁]
  · rw [size₄,size₃,size₂,size₁]
  · intro place
    rw [tiles₄,tiles₃,tiles₂,tiles₁]
    rcases apart place with none_ | none_ <;> rw [none_] <;> rfl
  · intro id
    rw [members₄,members₃,members₂,members₁]
    tauto
  · intro id
    rw [player₄,player₃,player₂,player₁,credited_credited,credited_credited]
    rw [UInt32.add_comm (income q.updates (id,.resources)),UInt32.add_comm (income q.updates (id,.baseCount))]

end Patching
section Apart
variable {rt next : RuntimeData} {one other : BattleCmd}

theorem apart_places (apart : one.Apart other) (place : Nat) :
    (rt.patch one).tiles place = none ∨ (rt.patch other).tiles place = none := by
  cases first : (rt.patch one).tiles place with
  | none => exact Or.inl rfl
  | some tile =>
    cases second : (rt.patch other).tiles place with
    | none => exact Or.inr rfl
    | some tile' =>
      obtain ⟨param,named,here⟩ := patch_named first
      obtain ⟨param',named',here'⟩ := patch_named second
      rw [index_injective here here'] at named
      exact absurd named' (apart named)

theorem apart_shows (apart : one.Apart other) (patched : Patched rt (rt.patch one) next) : Shows rt next other := by
  refine ⟨patched.size,?_⟩
  intro param named place here
  rw [patched.tiles]
  cases rewritten : (rt.patch one).tiles place with
  | none => rfl
  | some tile =>
    obtain ⟨param',named',here'⟩ := patch_named rewritten
    rw [index_injective here' here] at named'
    exact absurd named (apart named')

end Apart
end RuntimeData

namespace Battle
open RuntimeData

-- The callback gets the players map as it is when it is called; across orders
-- only the winners can be compared.
structure Alike (b other : Battle) : Prop where
  runtime : RuntimeData.Alike b.runtime other.runtime
  winners : other.endings.map (·.winner) = b.endings.map (·.winner)

def Apart (one other : Command) : Prop := one.cmd.Apart other.cmd

structure Advanced (b : Battle) (p : Patch) (next : Battle) : Prop where
  runtime : Patched b.runtime p next.runtime
  winners : next.endings.map (·.winner) = b.endings.map (·.winner) ++ List.replicate p.notices 0

theorem step_advanced {b next : Battle} {c : Command} (calm : b.runtime.Calm) (stepped : b.step c = some next) :
    Advanced b (b.runtime.patch c.cmd) next := by
  rcases step_cases stepped with ⟨refused,rfl⟩ | ⟨accepted,played,taken,rfl⟩
  · rw [patch_refused refused]
    exact ⟨patched_nothing _,(List.append_nil _).symm⟩
  · have patched := taken_patched calm accepted taken
    refine ⟨patched,?_⟩
    rw [List.map_append,taken_notices calm accepted taken]

theorem commands_commute : Traces.Commutes step (fun b => b.runtime.Calm) Alike Apart where
  refl := fun b => ⟨.refl b.runtime,rfl⟩
  trans := fun left right => ⟨left.runtime.trans right.runtime,right.winners.trans left.winners⟩
  kept := fun calm stepped => step_calm calm stepped
  respects := by
    intro b other c next calm calm' same stepped
    obtain ⟨after,mirrored⟩ := step_total other c
    have advanced := step_advanced calm stepped
    have advanced' := step_advanced calm' mirrored
    rw [shown_patch (same.runtime.shows c.cmd)] at advanced'
    refine ⟨after,mirrored,patched_alike same.runtime advanced.runtime advanced'.runtime,?_⟩
    rw [advanced'.winners,same.winners,advanced.winners]
  diamond := by
    intro b one other middle next calm apart first second
    obtain ⟨middle',first'⟩ := step_total b other
    obtain ⟨next',second'⟩ := step_total middle' one
    have here := step_advanced calm first
    have here' := step_advanced calm first'
    have there := step_advanced (step_calm calm first) second
    have there' := step_advanced (step_calm calm first') second'
    -- Each command finds its own tiles as they were before the other.
    rw [shown_patch (apart_shows apart here.runtime)] at there
    rw [shown_patch (apart_shows (List.disjoint_symm apart) here'.runtime)] at there'
    refine ⟨middle',next',first',second',?_,?_⟩
    · exact patched_commute (apart_places apart) here.runtime there.runtime here'.runtime there'.runtime
    · rw [there'.winners,here'.winners,there.winners,here.winners,List.append_assoc,List.append_assoc,
        List.replicate_append_replicate,List.replicate_append_replicate,Nat.add_comm]

theorem run_total (b : Battle) (commands : List Command) : ∃ reached, Machine.run step b commands = some reached := by
  induction commands generalizing b with
  | nil => exact ⟨b,rfl⟩
  | cons c rest ih =>
    obtain ⟨next,stepped⟩ := step_total b c
    obtain ⟨reached,path⟩ := ih next
    exact ⟨reached,by rw [Machine.run_cons,stepped,Option.bind_some,path]⟩

def keyed (commands : List BattleCmd) : List Command := commands.map fun cmd => ⟨keyOrder,cmd⟩

@[simp] theorem keyed_cmds (commands : List BattleCmd) : (keyed commands).map (·.cmd) = commands := by
  rw [keyed,List.map_map]
  exact List.map_id commands

-- The commands alone decide the run, as every order of the players gives the same.
theorem run_keyed {start : Battle} (calm : start.runtime.Calm) (commands : List Command) :
    Machine.run step start commands = Machine.run step start (keyed (commands.map (·.cmd))) :=
  (orderless calm commands _ (keyed_cmds _)).symm

theorem reordered_keyed {one other : List BattleCmd} (order : Traces.Reordered BattleCmd.Apart one other) :
    Traces.Reordered Apart (keyed one) (keyed other) := by
  induction order with
  | refl events => exact .refl _
  | swap rest free => exact .swap _ free
  | later first _ ih => exact .later _ ih
  | trans _ _ left right => exact left.trans right

theorem reordered_alike {start : Battle} (calm : start.runtime.Calm) {one other : List Command}
    (order : Traces.Reordered BattleCmd.Apart (one.map (·.cmd)) (other.map (·.cmd))) :
    ∃ reached matched, Machine.run step start one = some reached ∧ Machine.run step start other = some matched ∧
      Alike reached matched := by
  obtain ⟨reached,path⟩ := run_total start one
  have path' := path
  rw [run_keyed calm] at path'
  obtain ⟨matched,mirrored,same⟩ := Traces.run_reordered commands_commute (reordered_keyed order) calm path'
  exact ⟨reached,matched,path,(run_keyed calm other).trans mirrored,same⟩

theorem started_calm {roomId : RoomId} {history : List GameCmdHandler.Event} {h : GameCmdHandler}
    (path : Machine.run GameCmdHandler.step (GameCmdHandler.create roomId) history = some h)
    {loadMapData : StdString → Option MapData} {info : MatchInfo} {next : GameCmdHandler}
    (started : h.startGame loadMapData info = (none,next)) : next.runtime.Calm := by
  have after := GameCmdHandler.startGame_calm (GameCmdHandler.run_calm path) loadMapData info
  rwa [started] at after

-- Commands that name no common tile may be exchanged, refused ones too: the
-- board, the players and the declared winners of a match stay the same.
theorem order_immaterial (roomId : RoomId) (history : List GameCmdHandler.Event) (h : GameCmdHandler)
    (path : Machine.run GameCmdHandler.step (GameCmdHandler.create roomId) history = some h)
    (loadMapData : StdString → Option MapData) (info : MatchInfo) (next : GameCmdHandler)
    (started : h.startGame loadMapData info = (none,next)) (one other : List Command)
    (order : Traces.Reordered BattleCmd.Apart (one.map (·.cmd)) (other.map (·.cmd))) :
    ∃ reached matched, Machine.run step ⟨next.runtime,[]⟩ one = some reached ∧
      Machine.run step ⟨next.runtime,[]⟩ other = some matched ∧ Alike reached matched :=
  reordered_alike (started_calm path started) order

theorem duel_orders : ∃ reached matched,
    Machine.run step ⟨duelStart.runtime,[]⟩ [⟨keyOrder,⟨1,.move,0,1⟩⟩,⟨keyOrder,⟨2,.grow,2,3⟩⟩] = some reached ∧
      Machine.run step ⟨duelStart.runtime,[]⟩ [⟨keyOrder,⟨2,.grow,2,3⟩⟩,⟨keyOrder,⟨1,.move,0,1⟩⟩] = some matched ∧
      Alike reached matched :=
  order_immaterial 1 [] (GameCmdHandler.create 1) rfl (fun _ => some duelMap) duel duelStart rfl _ _
    (.swap [] (by simp [BattleCmd.Apart,BattleCmd.named]))

-- Where the players fight in regions of their own, only the order within each
-- region matters, whatever the interleaving.
theorem regions_independent {κ : Type*} [DecidableEq κ] (region : BattleCmd → κ) (roomId : RoomId)
    (history : List GameCmdHandler.Event) (h : GameCmdHandler)
    (path : Machine.run GameCmdHandler.step (GameCmdHandler.create roomId) history = some h)
    (loadMapData : StdString → Option MapData) (info : MatchInfo) (next : GameCmdHandler)
    (started : h.startGame loadMapData info = (none,next)) (one other : List Command)
    (across : ∀ c ∈ one, ∀ c' ∈ one, region c.cmd ≠ region c'.cmd → c.cmd.Apart c'.cmd)
    (same : ∀ place, (one.map (·.cmd)).filter (region · = place) = (other.map (·.cmd)).filter (region · = place)) :
    ∃ reached matched, Machine.run step ⟨next.runtime,[]⟩ one = some reached ∧
      Machine.run step ⟨next.runtime,[]⟩ other = some matched ∧ Alike reached matched := by
  refine reordered_alike (started_calm path started) ?_
  refine Traces.reordered_regions (fun _ _ apart => List.disjoint_symm apart) ?_ same
  intro cmd member cmd' member' different
  obtain ⟨c,listed,rfl⟩ := List.mem_map.mp member
  obtain ⟨c',listed',rfl⟩ := List.mem_map.mp member'
  exact across c listed c' listed' different

theorem duel_regions : ∃ reached matched,
    Machine.run step ⟨duelStart.runtime,[]⟩ [⟨keyOrder,⟨1,.grow,0,1⟩⟩,⟨keyOrder,⟨2,.grow,2,3⟩⟩,⟨keyOrder,⟨1,.move,0,1⟩⟩] = some reached ∧
      Machine.run step ⟨duelStart.runtime,[]⟩ [⟨keyOrder,⟨2,.grow,2,3⟩⟩,⟨keyOrder,⟨1,.grow,0,1⟩⟩,⟨keyOrder,⟨1,.move,0,1⟩⟩] = some matched ∧
      Alike reached matched := by
  refine regions_independent BattleCmd.playerId 1 [] (GameCmdHandler.create 1) rfl (fun _ => some duelMap) duel duelStart rfl
    _ _ ?_ ?_
  · simp [BattleCmd.Apart,BattleCmd.named]
  · intro place
    by_cases first : (1 : UInt64) = place
    · subst first
      rfl
    · by_cases second : (2 : UInt64) = place <;> simp [first,second]

end Battle
end GameServer
