import GameServer.GameEnd

namespace GameServer.Battle
open Foundation RuntimeData

def ownedBases (rt : RuntimeData) (id : UserId) : Nat :=
  rt.mapData.tiles.countP fun tile => tile.type = .base && tile.owner = id

theorem ownedBases_sites (rt : RuntimeData) (id : UserId) : ownedBases rt id = rt.sites.count (.base,id) := by
  rw [ownedBases,sites,List.count_eq_countP,List.countP_map]
  apply List.countP_congr
  intro tile _
  simp [site,Prod.ext_iff]

def BasesExact (ids : List UserId) (b : Battle) : Prop :=
  ∀ id ∈ ids, ∃ state, b.runtime.players.lookup id = some state ∧ state.baseCount.toNat = ownedBases b.runtime id

def CountersAgree (ids : List UserId) (b : Battle) : Prop :=
  ∀ id ∈ ids, (b.runtime.bases id).toNat = ownedBases b.runtime id

-- Commands address tiles by a 32-bit signed place, so no base beyond that is ever won.
def BasesLow (ids : List UserId) (rt : RuntimeData) : Prop :=
  ∀ id ∈ ids, ∀ place, rt.sites[place]? = some (.base,id) → place < 2 ^ 31

theorem count_low {α : Type*} [BEq α] [LawfulBEq α] {list : List α} {x : α} {bound : Nat}
    (low : ∀ place, list[place]? = some x → place < bound) : list.count x ≤ bound := by
  have parts := congrArg (List.count x) (List.take_append_drop bound list)
  rw [List.count_append] at parts
  have late : (list.drop bound).count x = 0 := by
    rw [List.count_eq_zero]
    intro member
    obtain ⟨place,found⟩ := List.mem_iff_getElem?.mp member
    rw [List.getElem?_drop] at found
    have early := low _ found
    omega
  have early := List.count_le_length (a := x) (l := list.take bound)
  rw [List.length_take] at early
  omega

-- A move onto a base of one's own, by a player of the match.
def MovesOntoBase (ids : List UserId) (rt : RuntimeData) (cmd : BattleCmd) : Prop :=
  rt.Accepted cmd ∧ cmd.type = .move ∧ cmd.playerId.toUInt32 ∈ ids ∧
    ∃ dst, rt.index cmd.param2 = some dst ∧ (rt.tile dst).type = .base

theorem share_toNat (type : TileType) (holder id : UserId) :
    (share type holder id).toNat = if (type,holder) = (TileType.base,id) then 1 else 0 := by
  unfold share
  by_cases held : type = .base ∧ holder = id
  · rw [if_pos held,if_pos (Prod.ext_iff.mpr held)]; rfl
  · rw [if_neg held,if_neg (fun same => held (Prod.ext_iff.mp same))]; rfl

theorem handover_exact {counter : UInt32} {list : List (TileType × UserId)} {place : Nat} {type : TileType}
    {owner receiver id : UserId} (found : list[place]? = some (type,owner))
    (exact_ : counter.toNat = list.count (.base,id)) (few : counter.toNat ≤ 2 ^ 31) :
    (counter + share type receiver id - share type owner id).toNat =
      (list.set place (type,receiver)).count (.base,id) := by
  obtain ⟨inside,here⟩ := List.getElem?_eq_some_iff.mp found
  have held : (if (type,owner) = (TileType.base,id) then 1 else 0) ≤ list.count (.base,id) := by
    split
    · rename_i same
      exact List.one_le_count_iff.mpr (same ▸ List.mem_of_getElem? found)
    · exact Nat.zero_le _
  have small (holder : UserId) : (if (type,holder) = (TileType.base,id) then 1 else 0) ≤ 1 := by split <;> omega
  have gained := small receiver
  rw [List.count_set inside,here,UInt32.toNat_sub,UInt32.toNat_add,share_toNat,share_toNat]
  simp only [beq_iff_eq]
  omega

theorem initial_exact {ids : List UserId} {rt : RuntimeData} (zero : ∀ id ∈ ids, rt.bases id = 0) :
    CountersAgree ids ⟨rt,[]⟩ ↔ ∀ id ∈ ids, (TileType.base,id) ∉ rt.sites := by
  refine forall₂_congr fun id member => ?_
  rw [ownedBases_sites,zero id member]
  exact eq_comm.trans List.count_eq_zero

structure Counting (ids : List UserId) (b : Battle) : Prop where
  calm : b.runtime.Calm
  seated : ∀ id ∈ ids, id ∈ b.runtime.players
  low : BasesLow ids b.runtime

theorem basesExact_iff {ids : List UserId} {b : Battle} (seated : ∀ id ∈ ids, id ∈ b.runtime.players) :
    BasesExact ids b ↔ CountersAgree ids b := by
  refine forall₂_congr fun id member => ?_
  obtain ⟨state,found⟩ := UnorderedMap.mem_iff_lookup.mp (seated id member)
  simp [found,bases,player]

theorem sites_set_low {ids : List UserId} {rt next : RuntimeData} {place : Nat} {change : TileType × UserId}
    (low : BasesLow ids rt) (bound : place < 2 ^ 31) (sites : next.sites = rt.sites.set place change) :
    BasesLow ids next := by
  intro id member other found
  rw [sites,List.getElem?_set] at found
  by_cases same : place = other
  · omega
  · rw [if_neg same] at found
    exact low id member other found

theorem handover_bound {rt : RuntimeData} {src dst place : Nat} {receiver : UserId}
    (fate : rt.handover src dst = some (place,receiver)) : place = src ∨ place = dst := by
  unfold handover at fate
  split at fate
  · cases fate; exact Or.inr rfl
  · split at fate
    · cases fate; exact Or.inl rfl
    · split at fate
      · cases fate; exact Or.inr rfl
      · cases fate

theorem attack_counting {ids : List UserId} (real : 0 ∉ ids) {rt : RuntimeData} {src dst : Nat} {b : Battle}
    (counting : Counting ids ⟨rt,[]⟩) (exact_ : CountersAgree ids ⟨rt,[]⟩) (resolved : Resolved rt src dst b)
    (insideSrc : src < rt.mapData.tiles.length ∧ src < 2 ^ 31) (insideDst : dst < rt.mapData.tiles.length ∧ dst < 2 ^ 31) :
    Counting ids b ∧ CountersAgree ids b := by
  have sites := resolved.sites
  have bases := resolved.bases
  have seated : ∀ id ∈ ids, id ∈ b.runtime.players :=
    fun id member => (resolved.members id).mpr (Or.inr (Or.inr (counting.seated id member)))
  cases fate : rt.handover src dst with
  | none =>
    rw [fate] at sites bases
    refine ⟨⟨resolved.calm,seated,?_⟩,?_⟩
    · intro id member place found
      rw [sites] at found
      exact counting.low id member place found
    · intro id member
      have nonzero : id ≠ 0 := fun same => real (same ▸ member)
      rw [ownedBases_sites,sites,bases id nonzero,exact_ id member,ownedBases_sites]
  | some change =>
    obtain ⟨place,receiver⟩ := change
    rw [fate] at sites bases
    have inside : place < rt.mapData.tiles.length ∧ place < 2 ^ 31 := by
      rcases handover_bound fate with rfl | rfl
      · exact insideSrc
      · exact insideDst
    refine ⟨⟨resolved.calm,seated,sites_set_low counting.low inside.2 sites⟩,?_⟩
    intro id member
    have nonzero : id ≠ 0 := fun same => real (same ▸ member)
    have before := exact_ id member
    rw [ownedBases_sites] at before
    have few : (rt.bases id).toNat ≤ 2 ^ 31 := by
      rw [before]
      exact count_low (counting.low id member)
    rw [ownedBases_sites,sites,bases id nonzero]
    exact handover_exact (sites_tile inside.1) before few

theorem move_counting {ids : List UserId} {rt next : RuntimeData} {dst : Nat} {playerId : UserId}
    (counting : Counting ids ⟨rt,[]⟩) (exact_ : CountersAgree ids ⟨rt,[]⟩) (moved : Moved rt dst playerId next) :
    Counting ids ⟨next,[]⟩ ∧ (CountersAgree ids ⟨next,[]⟩ ↔ ¬ ((rt.tile dst).type = .base ∧ playerId ∈ ids)) := by
  obtain ⟨calm,members,sites,bases⟩ := moved
  have low : BasesLow ids next := by
    intro id member place found
    rw [sites] at found
    exact counting.low id member place found
  have owned (id : UserId) : ownedBases next id = ownedBases rt id := by
    rw [ownedBases_sites,sites,ownedBases_sites]
  have seated : ∀ id ∈ ids, id ∈ next.players :=
    fun id member => (members id).mpr (Or.inr (counting.seated id member))
  refine ⟨⟨calm,seated,low⟩,?_,?_⟩
  · intro after onto
    have before := exact_ playerId onto.2
    have here := after playerId onto.2
    rw [owned,← before,UInt32.toNat_inj,bases,share_base onto.1,if_pos rfl] at here
    grind
  · intro elsewhere id member
    have worthless : share (rt.tile dst).type playerId id = 0 := by
      rw [share,if_neg]
      intro held
      exact elsewhere ⟨held.1,held.2 ▸ member⟩
    rw [owned,bases,worthless,UInt32.add_zero]
    exact exact_ id member

theorem taken_counting {ids : List UserId} (real : 0 ∉ ids) {rt : RuntimeData} (counting : Counting ids ⟨rt,[]⟩)
    (exact_ : CountersAgree ids ⟨rt,[]⟩) {cmd : BattleCmd} (accepted : rt.Accepted cmd) {iteration : Iteration} {b : Battle}
    (taken : Taken iteration rt cmd b) : Counting ids b ∧ (CountersAgree ids b ↔ ¬ MovesOntoBase ids rt cmd) := by
  have other (type : cmd.type ≠ .move) : ¬ MovesOntoBase ids rt cmd := fun onto => type onto.2.1
  cases taken with
  | @move src dst type first second different ownSrc ownDst strong =>
    have moved := move_moved counting.calm different (index_bound rt first).1 (index_bound rt second).1 ownSrc ownDst
    have onto : MovesOntoBase ids rt cmd ↔ (rt.tile dst).type = .base ∧ cmd.playerId.toUInt32 ∈ ids := by
      refine ⟨?_,fun held => ⟨accepted,type,held.2,dst,second,held.1⟩⟩
      intro onto
      obtain ⟨_,_,member,place,found,base⟩ := onto
      cases second.symm.trans found
      exact ⟨base,member⟩
    rw [onto]
    exact move_counting counting exact_ moved
  | attack type first second facing own =>
    have resolved := attack_resolved counting.calm facing iteration
    obtain ⟨after,kept⟩ := attack_counting real counting exact_ resolved (index_bound rt first) (index_bound rt second)
    exact ⟨after,iff_of_true kept (other (by rw [type]; decide))⟩
  | @grow dst type first own alive =>
    have same : (rt.grow dst cmd.param2).sites = rt.sites := grow_sites
    refine ⟨⟨counting.calm,counting.seated,?_⟩,iff_of_true ?_ (other (by rw [type]; decide))⟩
    · intro id member place found
      rw [same] at found
      exact counting.low id member place found
    · intro id member
      rw [ownedBases_sites,same,← ownedBases_sites]
      exact exact_ id member

theorem step_counting {ids : List UserId} (real : 0 ∉ ids) {b next : Battle} {c : Command}
    (counting : Counting ids b) (exact_ : CountersAgree ids b) (stepped : b.step c = some next) :
    Counting ids next ∧ (CountersAgree ids next ↔ ¬ MovesOntoBase ids b.runtime c.cmd) := by
  have alone : Counting ids ⟨b.runtime,[]⟩ := ⟨counting.calm,counting.seated,counting.low⟩
  rcases step_cases stepped with ⟨refused,rfl⟩ | ⟨accepted,played,taken,rfl⟩
  · exact ⟨counting,iff_of_true exact_ (fun onto => refused onto.1)⟩
  · obtain ⟨after,kept⟩ := taken_counting real alone exact_ accepted taken
    exact ⟨⟨after.calm,after.seated,after.low⟩,kept⟩

theorem step_exact {ids : List UserId} (real : 0 ∉ ids) {b next : Battle} {c : Command}
    (counting : Counting ids b) (exact_ : BasesExact ids b) (stepped : b.step c = some next) :
    Counting ids next ∧ (BasesExact ids next ↔ ¬ MovesOntoBase ids b.runtime c.cmd) := by
  obtain ⟨after,kept⟩ := step_counting real counting ((basesExact_iff counting.seated).mp exact_) stepped
  exact ⟨after,(basesExact_iff after.seated).trans kept⟩

theorem started_counters {h next : GameCmdHandler} {loadMapData : StdString → Option MapData} {info : MatchInfo}
    (started : h.startGame loadMapData info = (none,next)) {id : UserId} (member : id ∈ GameCmdHandler.ids info) :
    id ∈ next.runtime.players ∧ next.runtime.bases id = 0 := by
  obtain ⟨mapData,_,runtime⟩ := GameCmdHandler.startGame_started started
  have seated : ∃ place, (seatPlayers h.runtime.players 0 info.players).lookup id =
      some { playerId := id, seatIndex := place } := GameCmdHandler.seated_present member
  obtain ⟨place,found⟩ := seated
  refine ⟨?_,?_⟩
  · rw [runtime]
    exact UnorderedMap.mem_of_lookup found
  · rw [runtime,bases,player]
    simp [found]

def Baseless (ids : List UserId) (rt : RuntimeData) : Prop :=
  ∀ tile ∈ rt.mapData.tiles, tile.type = .base → tile.owner ∉ ids

theorem baseless_iff {ids : List UserId} {rt : RuntimeData} :
    Baseless ids rt ↔ ∀ id ∈ ids, (TileType.base,id) ∉ rt.sites := by
  have held (id : UserId) : (TileType.base,id) ∈ rt.sites ↔
      ∃ tile ∈ rt.mapData.tiles, tile.type = .base ∧ tile.owner = id := by
    simp [sites,site]
  refine ⟨?_,?_⟩
  · intro baseless id member onBoard
    obtain ⟨tile,inside,base,owner⟩ := (held id).mp onBoard
    exact baseless tile inside base (owner ▸ member)
  · intro absent tile inside base member
    exact absent tile.owner member ((held tile.owner).mpr ⟨tile,inside,base,rfl⟩)

theorem baseless_counting {ids : List UserId} {rt : RuntimeData} (calm : rt.Calm)
    (seated : ∀ id ∈ ids, id ∈ rt.players) (baseless : Baseless ids rt) : Counting ids ⟨rt,[]⟩ := by
  refine ⟨calm,seated,?_⟩
  intro id member place found
  exact absurd (List.mem_of_getElem? found) (baseless_iff.mp baseless id member)

-- Counters and board agree throughout a match exactly when no match player
-- starts with a base and none ever moves onto one of its own.
theorem base_count_exact (roomId : RoomId) (history : List GameCmdHandler.Event) (h : GameCmdHandler)
    (path : Machine.run GameCmdHandler.step (GameCmdHandler.create roomId) history = some h)
    (loadMapData : StdString → Option MapData) (info : MatchInfo) (real : 0 ∉ GameCmdHandler.ids info)
    (next : GameCmdHandler) (started : h.startGame loadMapData info = (none,next)) (commands : List Command) :
    Machine.Always step (BasesExact (GameCmdHandler.ids info)) ⟨next.runtime,[]⟩ commands ↔
      Baseless (GameCmdHandler.ids info) next.runtime ∧
        Machine.Every step (fun b c _ => ¬ MovesOntoBase (GameCmdHandler.ids info) b.runtime c.cmd)
          ⟨next.runtime,[]⟩ commands := by
  have calm : next.runtime.Calm := by
    have after := GameCmdHandler.startGame_calm (GameCmdHandler.run_calm path) loadMapData info
    rwa [started] at after
  have seated : ∀ id ∈ GameCmdHandler.ids info, id ∈ next.runtime.players :=
    fun id member => (started_counters started member).1
  have initial : BasesExact (GameCmdHandler.ids info) ⟨next.runtime,[]⟩ ↔ Baseless (GameCmdHandler.ids info) next.runtime :=
    (basesExact_iff seated).trans
      ((initial_exact fun id member => (started_counters started member).2).trans baseless_iff.symm)
  have guarded (baseless : Baseless (GameCmdHandler.ids info) next.runtime) :
      Machine.Always step (BasesExact (GameCmdHandler.ids info)) ⟨next.runtime,[]⟩ commands ↔
        Machine.Every step (fun b c _ => ¬ MovesOntoBase (GameCmdHandler.ids info) b.runtime c.cmd)
          ⟨next.runtime,[]⟩ commands :=
    Machine.always_iff_guarded
      (fun b c after counting exact_ stepped _ => (step_exact real counting exact_ stepped).1)
      (fun b c after counting exact_ stepped => (step_exact real counting exact_ stepped).2)
      (baseless_counting calm seated baseless) (initial.mpr baseless)
  refine ⟨?_,fun holds => (guarded holds.1).mpr holds.2⟩
  intro holds
  have baseless := initial.mp (holds [] _ _ rfl rfl)
  exact ⟨baseless,(guarded baseless).mp holds⟩

-- A neutral base beside two units of player 1.
def neutralMap : MapData := ⟨3,1,[{ tileId := 1, owner := 1, value := 5, roundType := 0 },
  { tileId := 2, owner := 1, value := 1, roundType := 0 },
  { tileId := 3, owner := 0, value := 3, type := .base, roundType := 0 }]⟩

def neutralStart : GameCmdHandler := ((GameCmdHandler.create 1).startGame (fun _ => some neutralMap) duel).2

theorem base_count_conquest : Machine.Always step (BasesExact [1,2]) ⟨neutralStart.runtime,[]⟩
    [⟨keyOrder,⟨1,.attack,0,2⟩⟩] := by
  refine (base_count_exact 1 [] (GameCmdHandler.create 1) rfl (fun _ => some neutralMap) duel (by decide)
    neutralStart rfl _).mpr ⟨?_,?_⟩
  · unfold Baseless
    decide
  · intro next stepped
    refine ⟨?_,trivial⟩
    intro onto
    cases onto.2.1

-- Player 2 starts with a base on the board and a counter of 0.
theorem starting_base_uncounted : ¬ Machine.Always step (BasesExact [1,2]) ⟨duelStart.runtime,[]⟩ [] := by
  intro holds
  obtain ⟨state,found,count⟩ := holds [] [] _ rfl rfl 2 (by decide)
  cases found
  revert count
  decide

end GameServer.Battle
