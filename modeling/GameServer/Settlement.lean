import GameServer.Ledger

namespace GameServer
open Foundation

namespace RuntimeData

def Rewritten (rt next : RuntimeData) (src dst : Nat) (atSrc atDst : TileData) : Prop :=
  next.mapData.tiles = (rt.mapData.tiles.set src atSrc).set dst atDst

section Boards
variable {rt next : RuntimeData} {src dst place : Nat} {atSrc atDst : TileData}

theorem setTile_board (change : TileData → TileData) :
    (rt.setTile place change).mapData.tiles = rt.mapData.tiles.set place (change (rt.tile place)) := rfl

theorem rewritten_length (board : Rewritten rt next src dst atSrc atDst) :
    next.mapData.tiles.length = rt.mapData.tiles.length := by
  rw [board,List.length_set,List.length_set]

theorem rewritten_tile (board : Rewritten rt next src dst atSrc atDst)
    (insideSrc : src < rt.mapData.tiles.length) (insideDst : dst < rt.mapData.tiles.length) (place : Nat) :
    next.tile place = if place = dst then atDst else if place = src then atSrc else rt.tile place := by
  rw [tile,board,List.getD_eq_getElem?_getD,List.getElem?_set,List.getElem?_set]
  by_cases last : dst = place
  · subst last
    simp [insideDst]
  · by_cases first : src = place
    · subst first
      simp [insideSrc,Ne.symm last,last]
    · simp [Ne.symm last,last,Ne.symm first,first,tile]

theorem taken_board (facing : Facing rt src dst) : Rewritten rt (rt.taken src dst) src dst
    { rt.tile src with value := 1 }
    { rt.tile dst with owner := rt.spoils src dst, value := (rt.tile dst).value - 1 - 1 } := by
  obtain ⟨atSrc,atDst⟩ := fought_tiles facing
  have fought : (rt.fought src dst).mapData.tiles = (rt.mapData.tiles.set src { rt.tile src with value := 1 }).set dst
      ((rt.fought src dst).tile dst) := by
    rw [atDst,RuntimeData.fought,setTile_board,setTile_board]
    simp [setTile_tile,facing.insideSrc,Ne.symm facing.different]
  have owned (owner : UserId) : ((rt.fought src dst).setOwner dst owner).mapData.tiles =
      (rt.mapData.tiles.set src { rt.tile src with value := 1 }).set dst
        { rt.tile dst with owner := owner, value := (rt.tile dst).value - 1 - 1 } := by
    rw [setOwner,setTile_board,fought,List.set_set,atDst]
  have value : ((rt.fought src dst).tile dst).value > 0 ↔ (rt.tile dst).value ≠ 2 := by
    rw [atDst]; exact two_fewer _
  unfold Rewritten taken spoils
  by_cases two : (rt.tile dst).value = 2
  · rw [if_neg (fun more => value.mp more two),if_pos two]
    exact owned 0
  · rw [if_pos (value.mpr two),if_neg two]
    have winner : ((rt.fought src dst).tile src).owner = (rt.tile src).owner := by rw [atSrc]
    rw [winner]
    exact owned _

theorem captured_board : (rt.captured src dst).mapData = (rt.taken src dst).mapData := by
  unfold captured
  split <;> simp

theorem repelled_board (facing : Facing rt src dst) : Rewritten rt (rt.repelled src dst) src dst
    { rt.tile src with owner := 0, value := 0 } { rt.tile dst with countered := true } := by
  have swapped := facing.different
  unfold Rewritten repelled
  rw [loseResource,setPlayer_mapData,setOwner,setTile_board,setTile_board,setTile_board,entered_mapData]
  rw [List.set_comm _ _ swapped.symm,List.set_comm _ _ swapped.symm,List.set_set]
  simp [setTile_tile,facing.insideSrc,facing.insideDst,swapped]

theorem arrived_board (insideSrc : src < rt.mapData.tiles.length) (insideDst : dst < rt.mapData.tiles.length)
    (different : src ≠ dst) : Rewritten rt (rt.arrived src dst) src dst { rt.tile src with value := 1, acted := true }
    { rt.tile dst with owner := (rt.tile src).owner, value := (rt.tile dst).value + (1 - 1) } := by
  unfold Rewritten arrived
  rw [setTile_board,setOwner,setTile_board,setTile_board,setTile_board,List.set_set,List.set_set]
  simp [setTile_tile,insideSrc,insideDst,different,different.symm]

theorem exhausted_board (facing : Facing rt src dst) : Rewritten rt (rt.exhausted src dst) src dst
    { rt.tile src with acted := true } { rt.tile dst with value := (rt.tile dst).value - (rt.tile src).value } := by
  unfold Rewritten exhausted
  rw [setTile_board,setTile_board,entered_mapData]
  simp [setTile_tile,facing.insideSrc,facing.different.symm]

theorem setTile_same {change : TileData → TileData} (kept : change (rt.tile place) = rt.tile place) :
    rt.setTile place change = rt := by
  have board := setTile_map rt place change id kept
  rw [List.map_id,List.map_id,setTile_board] at board
  simp only [setTile,board]

end Boards

def spent (rt : RuntimeData) (src dst : Nat) : RuntimeData :=
  (((rt.exhausted src dst).setOwner dst 0).loseResource (rt.tile src).owner).loseResource (rt.tile dst).owner

theorem spent_board {rt : RuntimeData} {src dst : Nat} (facing : Facing rt src dst) : Rewritten rt (rt.spent src dst) src dst
    { rt.tile src with acted := true }
    { rt.tile dst with owner := 0, value := (rt.tile dst).value - (rt.tile src).value } := by
  have board := exhausted_board facing
  have inside : dst < (rt.exhausted src dst).mapData.tiles.length := by
    rw [rewritten_length board]; exact facing.insideDst
  have held : (rt.exhausted src dst).tile dst = { rt.tile dst with value := (rt.tile dst).value - (rt.tile src).value } := by
    rw [rewritten_tile board facing.insideSrc facing.insideDst,if_pos rfl]
  have owned : (rt.spent src dst).mapData.tiles = (rt.exhausted src dst).mapData.tiles.set dst
      { (rt.exhausted src dst).tile dst with owner := 0 } := rfl
  rw [Rewritten,owned,board,List.set_set,held]

def settled (rt : RuntimeData) (src dst : Nat) : RuntimeData :=
  if (rt.tile src).value > (rt.tile dst).value then
    if (rt.tile dst).type = .base then (rt.captured src dst).loseBase (rt.tile dst).owner else rt.taken src dst
  else if (rt.tile dst).countered = false then
    if (rt.tile src).type = .base then (rt.repelled src dst).loseBase (rt.tile src).owner else rt.repelled src dst
  else if (rt.tile src).value = (rt.tile dst).value then
    if (rt.tile dst).type = .base then (rt.spent src dst).loseBase (rt.tile dst).owner else rt.spent src dst
  else rt.exhausted src dst

def Contested (rt : RuntimeData) (src dst : Nat) : Prop :=
  ∃ place receiver, rt.handover src dst = some (place,receiver) ∧ (rt.tile place).type = .base

def Spares (rt : RuntimeData) (src dst : Nat) : Prop := rt.Contested src dst → ∀ id, ¬ (rt.settled src dst).Doomed id

section Attacks
variable {rt : RuntimeData} {src dst : Nat} {iteration : Iteration}

theorem taken_type (facing : Facing rt src dst) : ((rt.taken src dst).tile dst).type = (rt.tile dst).type := by
  have board := rewritten_tile (taken_board facing) facing.insideSrc facing.insideDst dst
  rw [board,if_pos rfl]

theorem repelled_type (facing : Facing rt src dst) : ((rt.repelled src dst).tile src).type = (rt.tile src).type := by
  have board := rewritten_tile (repelled_board facing) facing.insideSrc facing.insideDst src
  rw [board,if_neg facing.different,if_pos rfl]

theorem attack_conquers (facing : Facing rt src dst) (stronger : (rt.tile src).value > (rt.tile dst).value) :
    attack iteration rt src dst = if (rt.tile dst).type = .base
      then gameEndCheck iteration ⟨(rt.captured src dst).loseBase (rt.tile dst).owner,[]⟩
      else ⟨rt.taken src dst,[]⟩ := by
  rw [attack_won stronger,taken_type facing]

def plunder (rt : RuntimeData) (src dst : Nat) : List Update :=
  if (rt.tile dst).value ≠ 2 then [⟨(rt.tile src).owner,.resources,true⟩,⟨(rt.tile dst).owner,.resources,false⟩]
  else [⟨(rt.tile dst).owner,.resources,false⟩]

def settledSrc (rt : RuntimeData) (src dst : Nat) : TileData :=
  if (rt.tile src).value > (rt.tile dst).value then { rt.tile src with value := 1 }
  else if (rt.tile dst).countered = false then { rt.tile src with owner := 0, value := 0 }
  else { rt.tile src with acted := true }

def settledDst (rt : RuntimeData) (src dst : Nat) : TileData :=
  if (rt.tile src).value > (rt.tile dst).value then
    { rt.tile dst with owner := rt.spoils src dst, value := (rt.tile dst).value - 1 - 1 }
  else if (rt.tile dst).countered = false then { rt.tile dst with countered := true }
  else if (rt.tile src).value = (rt.tile dst).value then
    { rt.tile dst with owner := 0, value := (rt.tile dst).value - (rt.tile src).value }
  else { rt.tile dst with value := (rt.tile dst).value - (rt.tile src).value }

theorem settled_board (facing : Facing rt src dst) :
    Rewritten rt (rt.settled src dst) src dst (rt.settledSrc src dst) (rt.settledDst src dst) := by
  have counted (next : RuntimeData) (id : UserId) : (next.loseBase id).mapData = next.mapData := loseBase_mapData ..
  unfold settled settledSrc settledDst Rewritten
  by_cases stronger : (rt.tile src).value > (rt.tile dst).value
  · simp only [if_pos stronger]
    split
    · rw [counted,captured_board]
      exact taken_board facing
    · exact taken_board facing
  · simp only [if_neg stronger]
    by_cases first : (rt.tile dst).countered = false
    · simp only [if_pos first]
      split
      · rw [counted]
        exact repelled_board facing
      · exact repelled_board facing
    · simp only [if_neg first]
      split
      · split
        · rw [counted]
          exact spent_board facing
        · exact spent_board facing
      · exact exhausted_board facing

-- The counter updates of an attack, in the order the branches make them.
def attackUpdates (rt : RuntimeData) (src dst : Nat) : List Update :=
  let owner1 := (rt.tile src).owner
  let owner2 := (rt.tile dst).owner
  if (rt.tile src).value > (rt.tile dst).value then
    rt.plunder src dst ++
      if (rt.tile dst).type = .base then
        (if rt.spoils src dst = owner1 then [⟨owner1,.baseCount,true⟩] else []) ++ [⟨owner2,.baseCount,false⟩]
      else []
  else if (rt.tile dst).countered = false then
    [⟨owner1,.resources,false⟩] ++ if (rt.tile src).type = .base then [⟨owner1,.baseCount,false⟩] else []
  else if (rt.tile src).value = (rt.tile dst).value then
    [⟨owner1,.resources,false⟩,⟨owner2,.resources,false⟩] ++
      if (rt.tile dst).type = .base then [⟨owner2,.baseCount,false⟩] else []
  else []

theorem postAll_append {one other : List Update} : rt.postAll (one ++ other) = (rt.postAll one).postAll other :=
  List.foldl_append

theorem taken_players (facing : Facing rt src dst) :
    (rt.taken src dst).players = ((rt.entered src dst).postAll (rt.plunder src dst)).players := by
  have value : ((rt.fought src dst).tile dst).value > 0 ↔ (rt.tile dst).value ≠ 2 := by
    rw [(fought_tiles facing).2]; exact two_fewer _
  have kept (owner : UserId) : ((rt.fought src dst).setOwner dst owner).players = (rt.entered src dst).players := rfl
  unfold taken plunder
  by_cases two : (rt.tile dst).value = 2
  · rw [if_neg (fun more => value.mp more two),if_neg (not_not.mpr two)]
    exact postAll_players [⟨(rt.tile dst).owner,.resources,false⟩] (kept 0)
  · rw [if_pos (value.mpr two),if_pos two]
    exact postAll_players [⟨(rt.tile src).owner,.resources,true⟩,⟨(rt.tile dst).owner,.resources,false⟩] (kept _)

theorem captured_players (facing : Facing rt src dst) : (rt.captured src dst).players = ((rt.taken src dst).postAll
    (if rt.spoils src dst = (rt.tile src).owner then [⟨(rt.tile src).owner,.baseCount,true⟩] else [])).players := by
  have board := rewritten_tile (taken_board facing) facing.insideSrc facing.insideDst
  have held : ((rt.taken src dst).tile dst).owner = rt.spoils src dst := by rw [board,if_pos rfl]
  have attacker : ((rt.taken src dst).tile src).owner = (rt.tile src).owner := by
    rw [board,if_neg facing.different,if_pos rfl]
  unfold captured
  rw [held,attacker]
  split <;> rfl

theorem settled_players (facing : Facing rt src dst) :
    (rt.settled src dst).players = ((rt.entered src dst).postAll (rt.attackUpdates src dst)).players := by
  have taken := taken_players facing
  have captured := captured_players facing
  unfold settled attackUpdates
  by_cases stronger : (rt.tile src).value > (rt.tile dst).value
  · rw [if_pos stronger,if_pos stronger,postAll_append]
    by_cases base : (rt.tile dst).type = .base
    · rw [if_pos base,if_pos base,postAll_append]
      have gained := captured.trans (postAll_players _ taken)
      have lost : ((rt.captured src dst).postAll [⟨(rt.tile dst).owner,.baseCount,false⟩]).players = _ :=
        postAll_players _ gained
      exact lost
    · rw [if_neg base,if_neg base]
      exact taken
  · rw [if_neg stronger,if_neg stronger]
    by_cases first : (rt.tile dst).countered = false
    · rw [if_pos first,if_pos first]
      have kept : (rt.repelled src dst).players =
        ((rt.entered src dst).postAll [⟨(rt.tile src).owner,.resources,false⟩]).players := rfl
      split
      · have lost : ((rt.repelled src dst).postAll [⟨(rt.tile src).owner,.baseCount,false⟩]).players = _ :=
          postAll_players _ kept
        exact lost
      · exact kept
    · rw [if_neg first,if_neg first]
      split
      · split <;> rfl
      · rfl

theorem attackUpdates_once (facing : Facing rt src dst) : ((rt.attackUpdates src dst).map Update.account).Nodup := by
  have apart := facing.owners
  unfold attackUpdates plunder
  dsimp only
  split_ifs <;> simp [Update.account,apart]

theorem attackUpdates_present : ∀ u ∈ rt.attackUpdates src dst, u.player ∈ (rt.entered src dst).players := by
  have present : (rt.tile src).owner ∈ (rt.entered src dst).players ∧ (rt.tile dst).owner ∈ (rt.entered src dst).players :=
    ⟨entered_mem.mpr (Or.inl rfl),entered_mem.mpr (Or.inr (Or.inl rfl))⟩
  intro u member
  unfold attackUpdates plunder at member
  dsimp only at member
  have either : u.player = (rt.tile src).owner ∨ u.player = (rt.tile dst).owner := by
    split_ifs at member <;> simp at member <;> grind
  rcases either with same | same
  · exact same ▸ present.1
  · exact same ▸ present.2

theorem reading_congr {other : RuntimeData} (same : other.players = rt.players) (account : UserId × Counter) :
    other.reading account = rt.reading account := by
  rw [reading,player,same,reading,player]

theorem entered_player {id : UserId} : (rt.entered src dst).player id = rt.player id := by
  rw [entered,touch_player,touch_player]

theorem settled_failure (facing : Facing rt src dst) {id : UserId} :
    ((rt.settled src dst).player id).failure = (rt.player id).failure := by
  rw [player,settled_players facing,← player,postAll_failure,entered_player]

theorem settled_calm (calm : rt.Calm) (facing : Facing rt src dst) : (rt.settled src dst).Calm := by
  intro id
  rw [settled_failure facing]
  exact calm id

theorem calm_spares (calm : rt.Calm) (facing : Facing rt src dst) : rt.Spares src dst :=
  fun _ _ => calm_spared (settled_calm calm facing)

theorem settled_untouched (facing : Facing rt src dst) {account : UserId × Counter}
    (other : account ∉ (rt.attackUpdates src dst).map Update.account) :
    (rt.settled src dst).reading account = rt.reading account := by
  rw [reading_congr (settled_players facing),postAll_untouched attackUpdates_present other,reading,entered_player,reading]

theorem settled_updated (facing : Facing rt src dst) {u : Update} (member : u ∈ rt.attackUpdates src dst) :
    (rt.settled src dst).reading u.account = u.next (rt.reading u.account) := by
  rw [reading_congr (settled_players facing),postAll_reading attackUpdates_present (attackUpdates_once facing) member,
    reading,entered_player,reading]

def struck (iteration : Iteration) (rt : RuntimeData) (src dst : Nat) : Battle :=
  if (rt.tile src).type = .base then gameEndCheck iteration ⟨(rt.repelled src dst).loseBase (rt.tile src).owner,[]⟩
  else ⟨rt.repelled src dst,[]⟩

theorem attack_repelled (facing : Facing rt src dst) (weaker : ¬ (rt.tile src).value > (rt.tile dst).value)
    (first : (rt.tile dst).countered = false) : attack iteration rt src dst =
      attackLost iteration (struck iteration rt src dst) src dst (rt.tile src).owner (rt.tile dst).owner := by
  have countered : counterStrike iteration (rt.entered src dst) src dst (rt.tile src).owner =
      if ((rt.repelled src dst).tile src).type = .base
      then gameEndCheck iteration ⟨(rt.repelled src dst).loseBase (rt.tile src).owner,[]⟩
      else ⟨rt.repelled src dst,[]⟩ := if_pos first
  rw [attack_lost weaker,countered,repelled_type facing,struck]

theorem attack_exhausted (facing : Facing rt src dst) (weaker : ¬ (rt.tile src).value > (rt.tile dst).value)
    (again : (rt.tile dst).countered ≠ false) : attack iteration rt src dst =
      if (rt.tile src).value = (rt.tile dst).value then
        if (rt.tile dst).type = .base then gameEndCheck iteration ⟨(rt.spent src dst).loseBase (rt.tile dst).owner,[]⟩
        else ⟨rt.spent src dst,[]⟩
      else ⟨rt.exhausted src dst,[]⟩ := by
  have countered : counterStrike iteration (rt.entered src dst) src dst (rt.tile src).owner =
      ⟨(rt.entered src dst).setTile src fun tile => { tile with acted := true },[]⟩ := if_neg again
  obtain ⟨value,type⟩ := exhausted_tile facing
  have held : ((rt.spent src dst).tile dst).type = (rt.tile dst).type := by
    have inside : dst < (rt.exhausted src dst).mapData.tiles.length := by
      rw [rewritten_length (exhausted_board facing)]; exact facing.insideDst
    have owned : (rt.spent src dst).tile dst = ((rt.exhausted src dst).setOwner dst 0).tile dst := rfl
    rw [owned,setOwner,setTile_tile _ _ _ _ inside,if_pos rfl,type]
  have gone : ((rt.exhausted src dst).tile dst).value = 0 ↔ (rt.tile src).value = (rt.tile dst).value := by
    rw [value]; grind
  rw [attack_lost weaker,countered,attackLost]
  refine (if_congr gone ?_ rfl).trans rfl
  exact if_congr (by rw [← held]; rfl) rfl rfl

theorem struck_runtime : (struck iteration rt src dst).runtime =
    if (rt.tile src).type = .base then ((rt.repelled src dst).loseBase (rt.tile src).owner).cull
    else rt.repelled src dst := by
  unfold struck
  split
  · exact gameEndCheck_runtime _ _
  · rfl

theorem repelled_stand (facing : Facing rt src dst) : (rt.repelled src dst).tile dst = { rt.tile dst with countered := true } ∧
    (rt.repelled src dst).tile src = { rt.tile src with owner := 0, value := 0 } := by
  have board := rewritten_tile (repelled_board facing) facing.insideSrc facing.insideDst
  exact ⟨by rw [board,if_pos rfl],by rw [board,if_neg facing.different,if_pos rfl]⟩

theorem struck_tiles (iteration : Iteration) (facing : Facing rt src dst) :
    ((struck iteration rt src dst).runtime.tile src).value = 0 ∧
    ((struck iteration rt src dst).runtime.tile dst = { rt.tile dst with countered := true } ∨
      ((struck iteration rt src dst).runtime.tile dst).countered = false) ∧
    (struck iteration rt src dst).runtime.mapData.tiles.length = rt.mapData.tiles.length := by
  obtain ⟨atDst,atSrc⟩ := repelled_stand facing
  have size := rewritten_length (repelled_board facing)
  rw [struck_runtime]
  split
  · have board (place : Nat) : ((rt.repelled src dst).loseBase (rt.tile src).owner).tile place =
        (rt.repelled src dst).tile place := by rw [tile,loseBase_mapData,tile]
    have length : ((rt.repelled src dst).loseBase (rt.tile src).owner).mapData.tiles.length = rt.mapData.tiles.length := by
      rw [loseBase_mapData,size]
    refine ⟨?_,?_,?_⟩
    · rw [cull_tile (length ▸ facing.insideSrc),board,atSrc]
      split <;> rfl
    · rw [cull_tile (length ▸ facing.insideDst),board,atDst]
      split
      · exact Or.inr rfl
      · exact Or.inl rfl
    · rw [cull_length,length]
  · exact ⟨by rw [atSrc],Or.inl atDst,size⟩

-- The defender outlives its counter-strike, so the rest of the branch takes nothing from it.
theorem defender_stands {b : Battle} {owner1 owner2 : UserId} (facing : Facing rt src dst)
    (weaker : ¬ (rt.tile src).value > (rt.tile dst).value) (atDst : b.runtime.tile dst = { rt.tile dst with countered := true })
    (atSrc : (b.runtime.tile src).value = 0) : attackLost iteration b src dst owner1 owner2 = b := by
  have strong := facing.strong
  have alive : (rt.tile dst).value ≠ 0 := by grind
  have held : b.runtime.setTile dst (fun tile => { tile with value := tile.value - (b.runtime.tile src).value }) = b.runtime := by
    apply setTile_same
    rw [atSrc]
    simp
  have stands : ¬ (b.runtime.tile dst).value = 0 := by rw [atDst]; exact alive
  simp only [attackLost,held,if_neg stands]

theorem attack_settled (iteration : Iteration) (facing : Facing rt src dst) (spares : rt.Spares src dst) :
    (attack iteration rt src dst).runtime = rt.settled src dst := by
  unfold Spares Contested handover settled at spares
  unfold settled
  by_cases stronger : (rt.tile src).value > (rt.tile dst).value
  · rw [attack_conquers facing stronger,if_pos stronger]
    simp only [if_pos stronger] at spares
    split
    · rename_i base
      rw [gameEndCheck_runtime]
      simp only [if_pos base] at spares
      exact cull_nobody (spares ⟨_,_,rfl,base⟩)
    · rfl
  · rw [if_neg stronger]
    simp only [if_neg stronger] at spares
    by_cases first : (rt.tile dst).countered = false
    · rw [attack_repelled facing stronger first,if_pos first]
      simp only [if_pos first] at spares
      have outcome : (struck iteration rt src dst).runtime = if (rt.tile src).type = .base
          then (rt.repelled src dst).loseBase (rt.tile src).owner else rt.repelled src dst := by
        rw [struck_runtime]
        split
        · rename_i base
          simp only [if_pos base] at spares
          exact cull_nobody (spares ⟨_,_,rfl,base⟩)
        · rfl
      have board : (struck iteration rt src dst).runtime.mapData = (rt.repelled src dst).mapData := by
        rw [outcome]
        split <;> simp
      have same (place : Nat) : (struck iteration rt src dst).runtime.tile place = (rt.repelled src dst).tile place := by
        rw [tile,board,tile]
      obtain ⟨atDst,atSrc⟩ := repelled_stand facing
      rw [defender_stands facing stronger ((same dst).trans atDst) (by rw [same,atSrc]),outcome]
    · rw [attack_exhausted facing stronger first,if_neg first]
      simp only [if_neg first] at spares
      split
      · rename_i even
        simp only [if_pos even] at spares
        split
        · rename_i base
          rw [gameEndCheck_runtime]
          simp only [if_pos base] at spares
          exact cull_nobody (spares ⟨_,_,rfl,base⟩)
        · rfl
      · rfl

end Attacks
end RuntimeData
end GameServer
