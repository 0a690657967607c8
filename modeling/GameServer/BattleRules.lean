import GameServer.GameCmdHandler

namespace GameServer
open Foundation

namespace RuntimeData

-- No player has lost. Nothing in the handler ever sets the flag in such a state.
def Calm (rt : RuntimeData) : Prop := ∀ id, (rt.player id).failure = false

def bases (rt : RuntimeData) (id : UserId) : UInt32 := (rt.player id).baseCount

def site (tile : TileData) : TileType × UserId := (tile.type,tile.owner)

def sites (rt : RuntimeData) : List (TileType × UserId) := rt.mapData.tiles.map site

section Updates
variable {rt : RuntimeData} {place : Nat} {id user owner : UserId}
variable {tileChange : TileData → TileData} {change : PlayerRuntimeState → PlayerRuntimeState}

theorem setPlayer_absent (absent : id ∉ rt.players) : rt.setPlayer id change = rt := by
  have none_ : rt.players.lookup id = none := AList.lookup_eq_none.mpr absent
  have same : rt.players.modify id change = rt.players := by simp [UnorderedMap.modify,none_]
  simp only [setPlayer,same]

theorem setPlayer_keeps {β : Type*} (field : PlayerRuntimeState → β)
    (kept : ∀ state, field (change state) = field state) :
    field ((rt.setPlayer id change).player user) = field (rt.player user) := by
  by_cases present : id ∈ rt.players
  · rw [setPlayer_player _ _ _ _ present]
    split
    · rename_i same; subst same; exact kept _
    · rfl
  · rw [setPlayer_absent present]

theorem touch_calm (calm : rt.Calm) : (rt.touch id).Calm := by
  intro user
  rw [touch_player]
  exact calm user

theorem setPlayer_calm (calm : rt.Calm) (kept : ∀ state, (change state).failure = state.failure) :
    (rt.setPlayer id change).Calm := by
  intro user
  rw [setPlayer_keeps PlayerRuntimeState.failure kept]
  exact calm user

@[simp] theorem touch_sites : (rt.touch id).sites = rt.sites := rfl
@[simp] theorem setPlayer_sites : (rt.setPlayer id change).sites = rt.sites := rfl
@[simp] theorem touch_bases : (rt.touch id).bases user = rt.bases user := by rw [bases,touch_player,bases]

theorem setTile_sites : (rt.setTile place tileChange).sites = rt.sites.set place (site (tileChange (rt.tile place))) :=
  List.map_set

theorem sites_tile (inside : place < rt.mapData.tiles.length) : rt.sites[place]? = some (site (rt.tile place)) := by
  simp [sites,tile,inside]

theorem setTile_sites_at (kept : site (tileChange (rt.tile place)) = site (rt.tile place)) :
    (rt.setTile place tileChange).sites = rt.sites := setTile_map _ _ _ site kept

theorem setTile_sites_same (kept : ∀ tile, site (tileChange tile) = site tile) :
    (rt.setTile place tileChange).sites = rt.sites := setTile_sites_at (kept _)

theorem setOwner_sites : (rt.setOwner place owner).sites = rt.sites.set place ((rt.tile place).type,owner) :=
  setTile_sites

theorem gainResource_bases : (rt.gainResource id).bases user = rt.bases user :=
  setPlayer_keeps PlayerRuntimeState.baseCount fun _ => rfl

theorem loseResource_bases : (rt.loseResource id).bases user = rt.bases user :=
  setPlayer_keeps PlayerRuntimeState.baseCount fun _ => rfl

theorem gainBase_bases (present : id ∈ rt.players) :
    (rt.gainBase id).bases user = rt.bases user + if user = id then 1 else 0 := by
  rw [gainBase,bases,setPlayer_player _ _ _ _ present,bases]
  split
  · rename_i same; rw [same]
  · exact (UInt32.add_zero _).symm

theorem loseBase_bases (present : id ∈ rt.players) :
    (rt.loseBase id).bases user = rt.bases user - if user = id then 1 else 0 := by
  rw [loseBase,bases,setPlayer_player _ _ _ _ present,bases]
  split
  · rename_i same; rw [same]
  · exact (UInt32.sub_zero _).symm

theorem setTile_calm (calm : rt.Calm) : (rt.setTile place tileChange).Calm := calm
theorem setOwner_calm (calm : rt.Calm) : (rt.setOwner place owner).Calm := calm
theorem gainResource_calm (calm : rt.Calm) : (rt.gainResource id).Calm := setPlayer_calm calm fun _ => rfl
theorem loseResource_calm (calm : rt.Calm) : (rt.loseResource id).Calm := setPlayer_calm calm fun _ => rfl
theorem gainBase_calm (calm : rt.Calm) : (rt.gainBase id).Calm := setPlayer_calm calm fun _ => rfl
theorem loseBase_calm (calm : rt.Calm) : (rt.loseBase id).Calm := setPlayer_calm calm fun _ => rfl

@[simp] theorem gainBase_mapData : (rt.gainBase id).mapData = rt.mapData := by rw [gainBase,setPlayer_mapData]
@[simp] theorem loseBase_mapData : (rt.loseBase id).mapData = rt.mapData := by rw [loseBase,setPlayer_mapData]

@[simp] theorem gainResource_mem : user ∈ (rt.gainResource id).players ↔ user ∈ rt.players := setPlayer_mem _ _ _ _
@[simp] theorem loseResource_mem : user ∈ (rt.loseResource id).players ↔ user ∈ rt.players := setPlayer_mem _ _ _ _
@[simp] theorem gainBase_mem : user ∈ (rt.gainBase id).players ↔ user ∈ rt.players := setPlayer_mem _ _ _ _
@[simp] theorem loseBase_mem : user ∈ (rt.loseBase id).players ↔ user ∈ rt.players := setPlayer_mem _ _ _ _

end Updates

theorem scan_calm {rt : RuntimeData} (calm : rt.Calm) (ids : List UserId) :
    ids.foldl scanPlayer ⟨rt,true,0⟩ = ⟨rt,true,0⟩ := by
  induction ids with
  | nil => rfl
  | cons id rest ih =>
    have skipped : scanPlayer ⟨rt,true,0⟩ id = ⟨rt,true,0⟩ := by simp [scanPlayer,calm id]
    rw [List.foldl_cons,skipped,ih]

-- With nobody marked as lost the loop skips everyone, and the callback is
-- called with the initial 0.
theorem gameEndCheck_calm {rt : RuntimeData} (calm : rt.Calm) (iteration : Iteration) (endings : List Ending) :
    gameEndCheck iteration ⟨rt,endings⟩ = ⟨rt,endings ++ [⟨0,rt.players⟩]⟩ := by
  simp [gameEndCheck,scan_calm calm]

def handover (rt : RuntimeData) (src dst : Nat) : Option (Nat × UserId) :=
  if (rt.tile src).value > (rt.tile dst).value
  then some (dst,if (rt.tile dst).value = 2 then 0 else (rt.tile src).owner)
  else if (rt.tile dst).countered = false then some (src,0)
  else if (rt.tile src).value = (rt.tile dst).value then some (dst,0)
  else none

def share (type : TileType) (holder id : UserId) : UInt32 := if type = .base ∧ holder = id then 1 else 0

-- What an attack comes to in a calm state: one tile changes hands, the base
-- counters follow it, and a lost base calls the callback with 0.
structure Resolved (rt : RuntimeData) (src dst : Nat) (b : Battle) : Prop where
  calm : b.runtime.Calm
  members : ∀ id, id ∈ b.runtime.players ↔ id = (rt.tile src).owner ∨ id = (rt.tile dst).owner ∨ id ∈ rt.players
  sites : b.runtime.sites = match rt.handover src dst with
    | some (place,receiver) => rt.sites.set place ((rt.tile place).type,receiver)
    | none => rt.sites
  bases : ∀ id, id ≠ 0 → b.runtime.bases id = match rt.handover src dst with
    | some (place,receiver) =>
      rt.bases id + share (rt.tile place).type receiver id - share (rt.tile place).type (rt.tile place).owner id
    | none => rt.bases id
  endings : b.endings = match rt.handover src dst with
    | some (place,_) => if (rt.tile place).type = .base then [⟨0,b.runtime.players⟩] else []
    | none => []

section Attacks
variable {rt : RuntimeData} {src dst : Nat}

theorem share_other {type : TileType} {holder id : UserId} (other : holder ≠ id) : share type holder id = 0 := by
  simp [share,other]

-- The board an attack starts from: two different tiles of different owners.
structure Facing (rt : RuntimeData) (src dst : Nat) : Prop where
  different : src ≠ dst
  insideSrc : src < rt.mapData.tiles.length
  insideDst : dst < rt.mapData.tiles.length
  owners : (rt.tile src).owner ≠ (rt.tile dst).owner
  strong : (rt.tile src).value > 1

def entered (rt : RuntimeData) (src dst : Nat) : RuntimeData :=
  (rt.touch (rt.tile src).owner).touch (rt.tile dst).owner

@[simp] theorem entered_mapData : (rt.entered src dst).mapData = rt.mapData := by
  rw [entered,touch_mapData,touch_mapData]

@[simp] theorem entered_tile {place : Nat} : (rt.entered src dst).tile place = rt.tile place := rfl

theorem entered_calm (calm : rt.Calm) : (rt.entered src dst).Calm := touch_calm (touch_calm calm)

theorem entered_mem {id : UserId} : id ∈ (rt.entered src dst).players ↔
    id = (rt.tile src).owner ∨ id = (rt.tile dst).owner ∨ id ∈ rt.players := by
  rw [entered,touch_mem,touch_mem]
  exact or_left_comm

theorem entered_bases {id : UserId} : (rt.entered src dst).bases id = rt.bases id := by
  rw [entered,touch_bases,touch_bases]

theorem two_fewer (value : UInt32) : value - 1 - 1 > 0 ↔ value ≠ 2 := by grind

def fought (rt : RuntimeData) (src dst : Nat) : RuntimeData :=
  let weakened := (rt.entered src dst).setTile src fun tile => { tile with value := 1 }
  weakened.setTile dst fun tile => { tile with value := tile.value - (weakened.tile src).value - 1 }

theorem fought_tiles (facing : Facing rt src dst) : (rt.fought src dst).tile src = { rt.tile src with value := 1 } ∧
    (rt.fought src dst).tile dst = { rt.tile dst with value := (rt.tile dst).value - 1 - 1 } := by
  obtain ⟨other,insideSrc,insideDst,_,_⟩ := facing
  refine ⟨?_,?_⟩
  · simp [fought,setTile_tile,insideSrc,insideDst,other]
  · simp [fought,setTile_tile,insideSrc,insideDst,Ne.symm other]

theorem fought_sites : (rt.fought src dst).sites = rt.sites := by
  have kept (tile : TileData) (value : UInt32) : site { tile with value := value } = site tile := rfl
  rw [fought,setTile_sites_same fun tile => kept tile _,setTile_sites_same fun tile => kept tile _]
  rfl

-- One tile has a new owner, and no counter has been touched yet.
structure Handed (rt : RuntimeData) (src dst place : Nat) (receiver : UserId) (mid : RuntimeData) : Prop where
  calm : mid.Calm
  members : ∀ id, id ∈ mid.players ↔ id = (rt.tile src).owner ∨ id = (rt.tile dst).owner ∨ id ∈ rt.players
  sites : mid.sites = rt.sites.set place ((rt.tile place).type,receiver)
  bases : ∀ id, mid.bases id = rt.bases id

theorem handed_site {place other : Nat} {receiver : UserId} {mid : RuntimeData}
    (handed : Handed rt src dst place receiver mid) (inside : other < rt.mapData.tiles.length) :
    site (mid.tile other) = if other = place then ((rt.tile place).type,receiver) else site (rt.tile other) := by
  have size := congrArg List.length handed.sites
  simp only [RuntimeData.sites,List.length_map,List.length_set] at size
  have here : mid.sites[other]? = some (site (mid.tile other)) := sites_tile (size ▸ inside)
  rw [handed.sites,List.getElem?_set] at here
  by_cases same : place = other
  · subst same
    simpa [RuntimeData.sites,inside] using here.symm
  · rw [if_neg same,sites_tile inside] at here
    simpa [Ne.symm same] using here.symm

def taken (rt : RuntimeData) (src dst : Nat) : RuntimeData :=
  let board := rt.fought src dst
  if (board.tile dst).value > 0
  then ((board.setOwner dst (board.tile src).owner).gainResource (rt.tile src).owner).loseResource (rt.tile dst).owner
  else (board.setOwner dst 0).loseResource (rt.tile dst).owner

def spoils (rt : RuntimeData) (src dst : Nat) : UserId := if (rt.tile dst).value = 2 then 0 else (rt.tile src).owner

theorem fought_calm (calm : rt.Calm) : (rt.fought src dst).Calm := setTile_calm (setTile_calm (entered_calm calm))

theorem taken_handed (calm : rt.Calm) (facing : Facing rt src dst) :
    Handed rt src dst dst (rt.spoils src dst) (rt.taken src dst) := by
  obtain ⟨atSrc,atDst⟩ := fought_tiles facing
  have members : ∀ id, id ∈ (rt.fought src dst).players ↔
    id = (rt.tile src).owner ∨ id = (rt.tile dst).owner ∨ id ∈ rt.players := fun _ => entered_mem
  have bases : ∀ id, (rt.fought src dst).bases id = rt.bases id := fun _ => entered_bases
  have value : ((rt.fought src dst).tile dst).value > 0 ↔ (rt.tile dst).value ≠ 2 := by
    rw [atDst]; exact two_fewer _
  unfold taken spoils
  by_cases two : (rt.tile dst).value = 2
  · rw [if_neg (fun more => value.mp more two),if_pos two]
    refine ⟨loseResource_calm (setOwner_calm (fought_calm calm)),?_,?_,?_⟩
    · intro id
      exact loseResource_mem.trans (members id)
    · rw [loseResource,setPlayer_sites,setOwner_sites,fought_sites,atDst]
    · intro id
      rw [loseResource_bases]
      exact bases id
  · rw [if_pos (value.mpr two),if_neg two]
    refine ⟨loseResource_calm (gainResource_calm (setOwner_calm (fought_calm calm))),?_,?_,?_⟩
    · intro id
      exact loseResource_mem.trans (gainResource_mem.trans (members id))
    · rw [loseResource,setPlayer_sites,gainResource,setPlayer_sites,setOwner_sites,fought_sites,atDst,atSrc]
    · intro id
      rw [loseResource_bases,gainResource_bases]
      exact bases id

theorem share_base {type : TileType} (base : type = .base) (holder id : UserId) :
    share type holder id = if id = holder then 1 else 0 := by
  simp [share,base,eq_comm]

-- The tile handed over was a base: its old owner's counter goes down, and the
-- end of the game is checked.
theorem loses_base {place : Nat} {receiver : UserId} {mid gained : RuntimeData}
    (handed : Handed rt src dst place receiver mid) (fate : rt.handover src dst = some (place,receiver))
    (base : (rt.tile place).type = .base) (present : (rt.tile place).owner ∈ mid.players)
    (calm : gained.Calm) (members : ∀ id, id ∈ gained.players ↔ id ∈ mid.players) (board : gained.mapData = mid.mapData)
    (bases : ∀ id, id ≠ 0 → gained.bases id = rt.bases id + share (rt.tile place).type receiver id)
    (iteration : Iteration) :
    Resolved rt src dst (gameEndCheck iteration ⟨gained.loseBase (rt.tile place).owner,[]⟩) := by
  rw [gameEndCheck_calm (loseBase_calm calm)]
  refine ⟨loseBase_calm calm,?_,?_,?_,?_⟩
  · intro id
    exact loseBase_mem.trans ((members id).trans (handed.members id))
  · rw [fate]
    have same : (gained.loseBase (rt.tile place).owner).sites = mid.sites := by
      rw [loseBase,setPlayer_sites,RuntimeData.sites,board,RuntimeData.sites]
    exact same.trans handed.sites
  · intro id real
    rw [fate]
    dsimp only
    rw [loseBase_bases ((members _).mpr present),bases id real,share_base base (rt.tile place).owner]
  · rw [fate]
    exact (if_pos base).symm

theorem handed_present {place : Nat} {receiver : UserId} {mid : RuntimeData} (handed : Handed rt src dst place receiver mid) :
    (rt.tile src).owner ∈ mid.players ∧ (rt.tile dst).owner ∈ mid.players :=
  ⟨(handed.members _).mpr (Or.inl rfl),(handed.members _).mpr (Or.inr (Or.inl rfl))⟩

theorem loses_plain {place : Nat} {receiver : UserId} {mid : RuntimeData}
    (handed : Handed rt src dst place receiver mid) (fate : rt.handover src dst = some (place,receiver))
    (plain : (rt.tile place).type ≠ .base) : Resolved rt src dst ⟨mid,[]⟩ := by
  have worthless (holder id : UserId) : share (rt.tile place).type holder id = 0 := by simp [share,plain]
  refine ⟨handed.calm,handed.members,?_,?_,?_⟩
  · rw [fate]; exact handed.sites
  · intro id _
    rw [fate,handed.bases]
    simp [worthless]
  · rw [fate]; exact (if_neg plain).symm

def captured (rt : RuntimeData) (src dst : Nat) : RuntimeData :=
  if ((rt.taken src dst).tile dst).owner = ((rt.taken src dst).tile src).owner
  then (rt.taken src dst).gainBase (rt.tile src).owner else rt.taken src dst

theorem attack_won (stronger : (rt.tile src).value > (rt.tile dst).value) (iteration : Iteration) :
    attack iteration rt src dst = if ((rt.taken src dst).tile dst).type = .base
      then gameEndCheck iteration ⟨(rt.captured src dst).loseBase (rt.tile dst).owner,[]⟩
      else ⟨rt.taken src dst,[]⟩ := if_pos stronger

theorem attack_lost (weaker : ¬ (rt.tile src).value > (rt.tile dst).value) (iteration : Iteration) :
    attack iteration rt src dst = attackLost iteration
      (counterStrike iteration (rt.entered src dst) src dst (rt.tile src).owner) src dst
      (rt.tile src).owner (rt.tile dst).owner := if_neg weaker

theorem attackWon_resolved (calm : rt.Calm) (facing : Facing rt src dst)
    (stronger : (rt.tile src).value > (rt.tile dst).value) (iteration : Iteration) :
    Resolved rt src dst (attack iteration rt src dst) := by
  have handed := taken_handed calm facing
  have fate : rt.handover src dst = some (dst,rt.spoils src dst) := if_pos stronger
  have atDst := handed_site handed facing.insideDst
  have atSrc := handed_site handed facing.insideSrc
  rw [if_pos rfl] at atDst
  rw [if_neg facing.different] at atSrc
  have type : ((rt.taken src dst).tile dst).type = (rt.tile dst).type := congrArg Prod.fst atDst
  have owner : ((rt.taken src dst).tile dst).owner = rt.spoils src dst := congrArg Prod.snd atDst
  have attacker : ((rt.taken src dst).tile src).owner = (rt.tile src).owner := congrArg Prod.snd atSrc
  rw [attack_won stronger,captured,type,owner,attacker]
  by_cases base : (rt.tile dst).type = .base
  · rw [if_pos base]
    obtain ⟨present1,present2⟩ := handed_present handed
    split
    · rename_i kept
      refine loses_base handed fate base present2 (gainBase_calm handed.calm) (fun _ => gainBase_mem)
        (gainBase_mapData ..) ?_ iteration
      intro id _
      rw [gainBase_bases present1,handed.bases,share_base base,kept]
    · rename_i razed
      refine loses_base handed fate base present2 handed.calm (fun _ => Iff.rfl) rfl ?_ iteration
      intro id real
      have nobody : rt.spoils src dst = 0 := by
        unfold spoils at razed ⊢
        split
        · rfl
        · rename_i more
          exact absurd (if_neg more) razed
      rw [handed.bases,nobody,share_other (Ne.symm real),UInt32.add_zero]
  · rw [if_neg base]
    exact loses_plain handed fate base

def repelled (rt : RuntimeData) (src dst : Nat) : RuntimeData :=
  let warned := (rt.entered src dst).setTile dst fun tile => { tile with countered := true }
  let emptied := warned.setTile src fun tile => { tile with value := 0 }
  (emptied.setOwner src 0).loseResource (rt.tile src).owner

theorem repelled_tiles (facing : Facing rt src dst) : ((rt.repelled src dst).tile src).value = 0 ∧
    ((rt.repelled src dst).tile dst).value = (rt.tile dst).value := by
  obtain ⟨other,insideSrc,insideDst,_,_⟩ := facing
  refine ⟨?_,?_⟩
  · simp [repelled,loseResource,setOwner,setTile_tile,insideSrc,insideDst,other]
  · simp [repelled,loseResource,setOwner,setTile_tile,insideSrc,insideDst,Ne.symm other]

theorem repelled_handed (calm : rt.Calm) (facing : Facing rt src dst) : Handed rt src dst src 0 (rt.repelled src dst) := by
  obtain ⟨other,insideSrc,insideDst,_,_⟩ := facing
  refine ⟨loseResource_calm (entered_calm calm),?_,?_,?_⟩
  · intro id
    exact loseResource_mem.trans entered_mem
  · have value (tile : TileData) : site { tile with value := 0 } = site tile := rfl
    have warned (tile : TileData) : site { tile with countered := true } = site tile := rfl
    rw [repelled,loseResource,setPlayer_sites,setOwner_sites,setTile_sites_same value,setTile_sites_same warned]
    simp [setTile_tile,insideSrc,insideDst,other,entered]
  · intro id
    rw [repelled,loseResource_bases]
    exact entered_bases

theorem resolved_value {b : Battle} (resolved : Resolved rt src dst b) (place : Nat) (value : TileData → UInt32) :
    Resolved rt src dst ⟨b.runtime.setTile place fun tile => { tile with value := value tile },b.endings⟩ := by
  have kept (tile : TileData) : site { tile with value := value tile } = site tile := rfl
  refine ⟨resolved.calm,resolved.members,?_,resolved.bases,resolved.endings⟩
  rw [setTile_sites_same kept]
  exact resolved.sites

theorem attackLost_repelled (calm : rt.Calm) (facing : Facing rt src dst)
    (weaker : ¬ (rt.tile src).value > (rt.tile dst).value) (first : (rt.tile dst).countered = false)
    (iteration : Iteration) : Resolved rt src dst (attack iteration rt src dst) := by
  have handed := repelled_handed calm facing
  have fate : rt.handover src dst = some (src,0) := by rw [handover,if_neg weaker,if_pos first]
  have atSrc := handed_site handed facing.insideSrc
  rw [if_pos rfl] at atSrc
  have type : ((rt.repelled src dst).tile src).type = (rt.tile src).type := congrArg Prod.fst atSrc
  have struck : counterStrike iteration (rt.entered src dst) src dst (rt.tile src).owner =
      if ((rt.repelled src dst).tile src).type = .base
      then gameEndCheck iteration ⟨(rt.repelled src dst).loseBase (rt.tile src).owner,[]⟩
      else ⟨rt.repelled src dst,[]⟩ := if_pos first
  have outcome : Resolved rt src dst (counterStrike iteration (rt.entered src dst) src dst (rt.tile src).owner) ∧
      (counterStrike iteration (rt.entered src dst) src dst (rt.tile src).owner).runtime.mapData =
        (rt.repelled src dst).mapData := by
    rw [struck,type]
    split
    · rename_i base
      refine ⟨loses_base handed fate base (handed_present handed).1 handed.calm (fun _ => Iff.rfl) rfl ?_ iteration,?_⟩
      · intro id real
        rw [handed.bases,share_other (Ne.symm real),UInt32.add_zero]
      · rw [gameEndCheck_calm (loseBase_calm handed.calm),loseBase_mapData]
    · rename_i plain
      exact ⟨loses_plain handed fate plain,rfl⟩
  rw [attack_lost weaker]
  revert outcome
  generalize counterStrike iteration (rt.entered src dst) src dst (rt.tile src).owner = b
  intro outcome
  obtain ⟨resolved,board⟩ := outcome
  obtain ⟨spent,held⟩ := repelled_tiles facing
  have same (place : Nat) : b.runtime.tile place = (rt.repelled src dst).tile place := by rw [tile,board,tile]
  -- the attacker has nothing left, so the defender, at least as strong as it was, stands
  have insideDst : dst < b.runtime.mapData.tiles.length := by
    rw [board]; simpa [repelled,loseResource,setOwner] using facing.insideDst
  have strong := facing.strong
  have stands : (rt.tile dst).value - 0 ≠ 0 := by grind
  have value := resolved_value resolved dst fun tile => tile.value - (b.runtime.tile src).value
  rw [attackLost,if_neg]
  · exact value
  · rw [setTile_tile _ _ _ _ insideDst,if_pos rfl,same,same,spent,held]
    exact stands

-- The defender has struck back before: the board after both sides' losses.
def exhausted (rt : RuntimeData) (src dst : Nat) : RuntimeData :=
  let spent := (rt.entered src dst).setTile src fun tile => { tile with acted := true }
  spent.setTile dst fun tile => { tile with value := tile.value - (spent.tile src).value }

theorem exhausted_tile (facing : Facing rt src dst) : ((rt.exhausted src dst).tile dst).value =
      (rt.tile dst).value - (rt.tile src).value ∧ ((rt.exhausted src dst).tile dst).type = (rt.tile dst).type := by
  obtain ⟨other,insideSrc,insideDst,_,_⟩ := facing
  refine ⟨?_,?_⟩ <;> simp [exhausted,setTile_tile,insideSrc,insideDst,Ne.symm other]

theorem exhausted_sites : (rt.exhausted src dst).sites = rt.sites := by
  have acted (tile : TileData) : site { tile with acted := true } = site tile := rfl
  have value (tile : TileData) (value : UInt32) : site { tile with value := value } = site tile := rfl
  rw [exhausted,setTile_sites_same fun tile => value tile _,setTile_sites_same acted]
  simp [entered]

theorem exhausted_handed (calm : rt.Calm) (facing : Facing rt src dst) : Handed rt src dst dst 0
    ((((rt.exhausted src dst).setOwner dst 0).loseResource (rt.tile src).owner).loseResource (rt.tile dst).owner) := by
  refine ⟨loseResource_calm (loseResource_calm (entered_calm calm)),?_,?_,?_⟩
  · intro id
    exact loseResource_mem.trans (loseResource_mem.trans entered_mem)
  · rw [loseResource,setPlayer_sites,loseResource,setPlayer_sites,setOwner_sites,exhausted_sites,
      (exhausted_tile facing).2]
  · intro id
    rw [loseResource_bases,loseResource_bases]
    exact entered_bases

theorem attackLost_countered (calm : rt.Calm) (facing : Facing rt src dst)
    (weaker : ¬ (rt.tile src).value > (rt.tile dst).value) (again : (rt.tile dst).countered ≠ false)
    (iteration : Iteration) : Resolved rt src dst (attack iteration rt src dst) := by
  have struck : counterStrike iteration (rt.entered src dst) src dst (rt.tile src).owner =
      ⟨(rt.entered src dst).setTile src fun tile => { tile with acted := true },[]⟩ := if_neg again
  obtain ⟨value,type⟩ := exhausted_tile facing
  rw [attack_lost weaker,struck]
  by_cases even : (rt.tile src).value = (rt.tile dst).value
  · have fate : rt.handover src dst = some (dst,0) := by
      rw [handover,if_neg weaker,if_neg again,if_pos even]
    have handed := exhausted_handed calm facing
    have gone : ((rt.exhausted src dst).tile dst).value = 0 := by rw [value,even,UInt32.sub_self]
    have atDst := handed_site handed facing.insideDst
    rw [if_pos rfl] at atDst
    refine (congrArg (Resolved rt src dst) (if_pos gone)).mpr ?_
    split
    · rename_i base
      have isBase : (rt.tile dst).type = .base := (congrArg Prod.fst atDst).symm.trans base
      refine loses_base handed fate isBase (handed_present handed).2 handed.calm (fun _ => Iff.rfl) rfl ?_ iteration
      intro id real
      rw [handed.bases,share_other (Ne.symm real),UInt32.add_zero]
    · rename_i plain
      have isPlain : (rt.tile dst).type ≠ .base := fun base => plain ((congrArg Prod.fst atDst).trans base)
      exact loses_plain handed fate isPlain
  · have fate : rt.handover src dst = none := by
      rw [handover,if_neg weaker,if_neg again,if_neg even]
    have left : ¬ ((rt.exhausted src dst).tile dst).value = 0 := by
      rw [value]
      grind
    refine (congrArg (Resolved rt src dst) (if_neg left)).mpr ?_
    refine ⟨entered_calm calm,fun _ => entered_mem,?_,?_,?_⟩
    · rw [fate]; exact exhausted_sites
    · intro id _
      rw [fate]; exact entered_bases
    · rw [fate]

theorem gameEndCheck_order {b : Battle} (calm : b.runtime.Calm) (one other : Iteration) :
    gameEndCheck one b = gameEndCheck other b := by
  rw [gameEndCheck_calm calm one,gameEndCheck_calm calm other]

theorem gameEndCheck_keeps {b : Battle} (calm : b.runtime.Calm) (iteration : Iteration) :
    (gameEndCheck iteration b).runtime.Calm := by
  rw [gameEndCheck_calm calm iteration]
  exact calm

theorem counterStrike_order (calm : rt.Calm) (owner1 : UserId) (one other : Iteration) :
    counterStrike one rt src dst owner1 = counterStrike other rt src dst owner1 := by
  unfold counterStrike
  split
  · dsimp only
    split
    · exact gameEndCheck_order (loseBase_calm (loseResource_calm calm)) one other
    · rfl
  · rfl

theorem counterStrike_calm (calm : rt.Calm) (owner1 : UserId) (iteration : Iteration) :
    (counterStrike iteration rt src dst owner1).runtime.Calm := by
  unfold counterStrike
  split
  · dsimp only
    split
    · exact gameEndCheck_keeps (loseBase_calm (loseResource_calm calm)) iteration
    · exact loseResource_calm calm
  · exact calm

theorem attackLost_order {b : Battle} (calm : b.runtime.Calm) (owner1 owner2 : UserId) (one other : Iteration) :
    attackLost one b src dst owner1 owner2 = attackLost other b src dst owner1 owner2 := by
  unfold attackLost
  dsimp only
  split
  · split
    · exact gameEndCheck_order (loseBase_calm (loseResource_calm (loseResource_calm calm))) one other
    · rfl
  · rfl

theorem captured_calm (calm : rt.Calm) (facing : Facing rt src dst) : (rt.captured src dst).Calm := by
  have after := (taken_handed calm facing).calm
  unfold captured
  split
  · exact gainBase_calm after
  · exact after

-- Nobody has lost, so the order in which the players are looked at is immaterial.
theorem attack_order (calm : rt.Calm) (facing : Facing rt src dst) (one other : Iteration) :
    attack one rt src dst = attack other rt src dst := by
  by_cases stronger : (rt.tile src).value > (rt.tile dst).value
  · have after : ((rt.captured src dst).loseBase (rt.tile dst).owner).Calm := loseBase_calm (captured_calm calm facing)
    rw [attack_won stronger one,attack_won stronger other,gameEndCheck_calm after one,gameEndCheck_calm after other]
  · have struck : (counterStrike other (rt.entered src dst) src dst (rt.tile src).owner).runtime.Calm :=
      counterStrike_calm (entered_calm calm) _ other
    rw [attack_lost stronger one,attack_lost stronger other,counterStrike_order (entered_calm calm) _ one other,
      attackLost_order struck _ _ one other]

theorem attack_resolved (calm : rt.Calm) (facing : Facing rt src dst) (iteration : Iteration) :
    Resolved rt src dst (attack iteration rt src dst) := by
  by_cases stronger : (rt.tile src).value > (rt.tile dst).value
  · exact attackWon_resolved calm facing stronger iteration
  · by_cases first : (rt.tile dst).countered = false
    · exact attackLost_repelled calm facing stronger first iteration
    · exact attackLost_countered calm facing stronger first iteration

end Attacks
section Commands
variable {rt : RuntimeData} {cmd : BattleCmd} {iteration : Iteration}

structure Moved (rt : RuntimeData) (dst : Nat) (playerId : UserId) (next : RuntimeData) : Prop where
  calm : next.Calm
  members : ∀ id, id ∈ next.players ↔ id = playerId ∨ id ∈ rt.players
  sites : next.sites = rt.sites
  bases : ∀ id, next.bases id = rt.bases id + share (rt.tile dst).type playerId id

def arrived (rt : RuntimeData) (src dst : Nat) : RuntimeData :=
  let left := rt.setTile src fun tile => { tile with value := 1 }
  let acted := left.setTile src fun tile => { tile with acted := true }
  let owned := acted.setOwner dst (acted.tile src).owner
  owned.setTile dst fun tile => { tile with value := tile.value + ((owned.tile src).value - 1) }

theorem arrived_sites {src dst : Nat} (different : src ≠ dst) (insideSrc : src < rt.mapData.tiles.length)
    (same : (rt.tile src).owner = (rt.tile dst).owner) :
    (rt.arrived src dst).sites = rt.sites := by
  have value (tile : TileData) (value : UInt32) : site { tile with value := value } = site tile := rfl
  have spent (tile : TileData) : site { tile with acted := true } = site tile := rfl
  rw [arrived,setTile_sites_same fun tile => value tile _,setOwner,setTile_sites_at,setTile_sites_same spent,
    setTile_sites_same fun tile => value tile _]
  simp [setTile_tile,insideSrc,Ne.symm different,site,same]

theorem move_moved (calm : rt.Calm) {src dst : Nat} {playerId : UserId} (different : src ≠ dst)
    (insideSrc : src < rt.mapData.tiles.length) (insideDst : dst < rt.mapData.tiles.length)
    (ownSrc : (rt.tile src).owner = playerId) (ownDst : (rt.tile dst).owner = playerId) :
    Moved rt dst playerId (rt.move src dst playerId) := by
  have sites := arrived_sites different insideSrc (ownSrc.trans ownDst.symm)
  have type : ((rt.arrived src dst).tile dst).type = (rt.tile dst).type := by
    simp [arrived,setOwner,setTile_tile,insideSrc,insideDst,Ne.symm different]
  have paidCalm : (((rt.arrived src dst).touch playerId).gainResource playerId).Calm :=
    gainResource_calm (touch_calm calm)
  have paidBases (id : UserId) : (((rt.arrived src dst).touch playerId).gainResource playerId).bases id = rt.bases id := by
    rw [gainResource_bases,touch_bases]; rfl
  have paidMembers (id : UserId) : id ∈ (((rt.arrived src dst).touch playerId).gainResource playerId).players ↔
      id = playerId ∨ id ∈ rt.players := by
    rw [gainResource_mem,touch_mem]; rfl
  have moved : rt.move src dst playerId = if ((rt.arrived src dst).tile dst).type = .base
      then (((rt.arrived src dst).touch playerId).gainResource playerId).gainBase playerId
      else ((rt.arrived src dst).touch playerId).gainResource playerId := rfl
  rw [moved,type]
  by_cases base : (rt.tile dst).type = .base
  · rw [if_pos base]
    refine ⟨gainBase_calm paidCalm,fun id => gainBase_mem.trans (paidMembers id),?_,?_⟩
    · exact sites
    · intro id
      rw [gainBase_bases ((paidMembers _).mpr (Or.inl rfl)),paidBases,share_base base]
  · rw [if_neg base]
    refine ⟨paidCalm,paidMembers,sites,?_⟩
    intro id
    simp [paidBases,share,base]

theorem grow_sites {dst : Nat} {amount : Int32} : (rt.grow dst amount).sites = rt.sites :=
  setTile_sites_same fun _ => rfl

def Accepted (rt : RuntimeData) (cmd : BattleCmd) : Prop := rt.validateCmd cmd = .ok true

-- What a command that is not refused has been checked for, and what it does.
inductive Taken (iteration : Iteration) (rt : RuntimeData) (cmd : BattleCmd) : Battle → Prop where
  | move {src dst : Nat} (type : cmd.type = .move) (first : rt.index cmd.param1 = some src)
      (second : rt.index cmd.param2 = some dst) (different : src ≠ dst)
      (ownSrc : (rt.tile src).owner = cmd.playerId.toUInt32) (ownDst : (rt.tile dst).owner = cmd.playerId.toUInt32)
      (strong : (rt.tile src).value > 1) :
      Taken iteration rt cmd ⟨rt.move src dst cmd.playerId.toUInt32,[]⟩
  | attack {src dst : Nat} (type : cmd.type = .attack) (first : rt.index cmd.param1 = some src)
      (second : rt.index cmd.param2 = some dst) (facing : Facing rt src dst)
      (own : (rt.tile src).owner = cmd.playerId.toUInt32) :
      Taken iteration rt cmd (rt.attack iteration src dst)
  | grow {dst : Nat} (type : cmd.type = .grow) (first : rt.index cmd.param1 = some dst)
      (own : (rt.tile dst).owner = cmd.playerId.toUInt32) (alive : (rt.tile dst).value > 0) :
      Taken iteration rt cmd ⟨rt.grow dst cmd.param2,[]⟩

theorem index_injective {one two : Int32} {place : Nat} (first : rt.index one = some place)
    (second : rt.index two = some place) : one = two := by
  unfold index at first second
  split at first
  · split at second
    · rename_i low high
      cases first
      have same : two.toInt.toNat = one.toInt.toNat := Option.some.inj second
      exact Int32.toInt_inj.mp (by omega)
    · cases second
  · cases first

theorem tileAt_checked {param : Int32} {check : TileData → Except Thrown Bool}
    (validated : (rt.tileAt param).bind check = .ok true) :
    ∃ place, rt.index param = some place ∧ check (rt.tile place) = .ok true := by
  unfold tileAt at validated
  cases found : rt.index param with
  | none => rw [found] at validated; cases validated
  | some place => rw [found] at validated; exact ⟨place,rfl,validated⟩

theorem processCommand_cases (iteration : Iteration) (rt : RuntimeData) (cmd : BattleCmd) :
    (¬ rt.Accepted cmd ∧ ∃ error, processCommand iteration rt cmd = .thrown error rt) ∨
      (rt.Accepted cmd ∧ ∃ b, processCommand iteration rt cmd = .done b ∧ Taken iteration rt cmd b) := by
  unfold processCommand Accepted
  cases validated : rt.validateCmd cmd with
  | error error => exact Or.inl ⟨by simp,error,rfl⟩
  | ok valid =>
    cases valid with
    | false => exact Or.inl ⟨by simp,_,rfl⟩
    | true =>
      refine Or.inr ⟨rfl,?_⟩
      unfold validateCmd at validated
      cases type : cmd.type with
      | move =>
        rw [type] at validated
        obtain ⟨src,first,validated⟩ := tileAt_checked validated
        obtain ⟨dst,second,checks⟩ := tileAt_checked validated
        have checks := Except.ok.inj checks
        simp only [Bool.and_eq_true,decide_eq_true_eq] at checks
        obtain ⟨⟨⟨params,ownSrc⟩,ownDst⟩,strong⟩ := checks
        have different : src ≠ dst := fun same => params (index_injective first (same ▸ second))
        refine ⟨_,by rw [first,second],.move type first second different ?_ ?_ strong⟩
        · rw [← ownSrc,UInt32.toUInt32_toUInt64]
        · rw [← ownDst,UInt32.toUInt32_toUInt64]
      | attack =>
        rw [type] at validated
        obtain ⟨src,first,validated⟩ := tileAt_checked validated
        obtain ⟨dst,second,checks⟩ := tileAt_checked validated
        have checks := Except.ok.inj checks
        simp only [Bool.and_eq_true,decide_eq_true_eq] at checks
        obtain ⟨⟨⟨params,ownSrc⟩,otherDst⟩,strong⟩ := checks
        have different : src ≠ dst := fun same => params (index_injective first (same ▸ second))
        have owners : (rt.tile src).owner ≠ (rt.tile dst).owner := fun same => otherDst (same ▸ ownSrc)
        refine ⟨_,by rw [first,second],.attack type first second
          ⟨different,(index_bound rt first).1,(index_bound rt second).1,owners,strong⟩ ?_⟩
        rw [← ownSrc,UInt32.toUInt32_toUInt64]
      | grow =>
        rw [type] at validated
        obtain ⟨dst,first,checks⟩ := tileAt_checked validated
        have checks := Except.ok.inj checks
        simp only [Bool.and_eq_true,decide_eq_true_eq] at checks
        refine ⟨_,by rw [first],.grow type first ?_ checks.2⟩
        rw [checks.1,UInt32.toUInt32_toUInt64]
      | other raw =>
        rw [type] at validated
        cases validated

theorem accepted_facing {src dst : Nat} (accepted : rt.Accepted cmd) (type : cmd.type = .attack)
    (first : rt.index cmd.param1 = some src) (second : rt.index cmd.param2 = some dst)
    (iteration : Iteration) : Facing rt src dst := by
  rcases processCommand_cases iteration rt cmd with ⟨refused,_⟩ | ⟨_,_,_,taken⟩
  · exact absurd accepted refused
  · cases taken with
    | move other => rw [type] at other; cases other
    | grow other => rw [type] at other; cases other
    | attack _ first' second' facing =>
      cases first.symm.trans first'
      cases second.symm.trans second'
      exact facing

theorem accepted_attacks {src dst : Nat} (accepted : rt.Accepted cmd) (type : cmd.type = .attack)
    (first : rt.index cmd.param1 = some src) (second : rt.index cmd.param2 = some dst) (iteration : Iteration)
    (good : Battle → Prop) :
    (∃ b, processCommand iteration rt cmd = .done b ∧ good b) ↔ good (attack iteration rt src dst) := by
  have result : processCommand iteration rt cmd = .done (attack iteration rt src dst) := by
    unfold Accepted at accepted
    unfold processCommand
    rw [accepted,type,first,second]
  rw [result]
  simp

theorem processCommand_order (calm : rt.Calm) (cmd : BattleCmd) (one other : Iteration) :
    processCommand one rt cmd = processCommand other rt cmd := by
  unfold processCommand
  cases validated : rt.validateCmd cmd with
  | error error => rfl
  | ok valid =>
    cases valid with
    | false => rfl
    | true =>
      cases type : cmd.type with
      | attack =>
        cases first : rt.index cmd.param1 with
        | none => rfl
        | some src =>
          cases second : rt.index cmd.param2 with
          | none => rfl
          | some dst =>
            have facing := accepted_facing validated type first second one
            exact congrArg Outcome.done (attack_order calm facing one other)
      | move => rfl
      | grow => rfl
      | other raw => rfl

end Commands

end RuntimeData
end GameServer
