import GameServer.GameEnd

namespace GameServer
open Foundation

namespace RuntimeData

-- Marked as having lost, and without a base: the players the end check clears.
def Doomed (rt : RuntimeData) (id : UserId) : Prop := (rt.player id).failure = true ∧ (rt.player id).baseCount = 0

instance {rt : RuntimeData} : DecidablePred rt.Doomed := fun _ => inferInstanceAs (Decidable (_ ∧ _))

def vacated (tile : TileData) : TileData := { tile with owner := 0, value := 0, countered := false, acted := false }

def evict (rt : RuntimeData) (out : UserId → Prop) [DecidablePred out] : RuntimeData :=
  let judge (tile : TileData) : TileData := if out tile.owner then vacated tile else tile
  { rt with mapData := { rt.mapData with tiles := rt.mapData.tiles.map judge } }

def cull (rt : RuntimeData) : RuntimeData := rt.evict rt.Doomed

section Scan
variable {rt : RuntimeData} {id : UserId}

theorem clear_evicts : rt.clearTilesOfPlayer id = rt.evict (· = id) := rfl

theorem evict_congr {one other : UserId → Prop} [DecidablePred one] [DecidablePred other]
    (same : ∀ owner, one owner ↔ other owner) : rt.evict one = rt.evict other := by
  simp only [evict,same]

theorem evict_nobody {out : UserId → Prop} [DecidablePred out] (nobody : ∀ owner, ¬ out owner) : rt.evict out = rt := by
  simp [evict,nobody]

theorem evict_evict {first second : UserId → Prop} [DecidablePred first] [DecidablePred second] :
    (rt.evict first).evict second = rt.evict fun owner => first owner ∨ second owner := by
  simp only [evict,List.map_map]
  congr 3
  funext tile
  by_cases gone : first tile.owner
  · simp [gone,vacated]
  · simp [gone]

@[simp] theorem evict_players {out : UserId → Prop} [DecidablePred out] : (rt.evict out).players = rt.players := rfl

theorem fail_again (failed : (rt.player id).failure = true) :
    rt.setPlayer id (fun state => { state with failure := true }) = rt := by
  by_cases present : id ∈ rt.players
  · obtain ⟨state,found⟩ := UnorderedMap.mem_iff_lookup.mp present
    have marked : { state with failure := true } = state := by
      rw [player,found] at failed
      cases state
      simp_all
    have entry : (⟨id,state⟩ : Σ _ : UserId, PlayerRuntimeState) ∈ rt.players.entries := List.of_mem_dlookup found
    have same : rt.players.modify id (fun state => { state with failure := true }) = rt.players := by
      simp only [UnorderedMap.modify,found]
      apply AList.ext
      rw [marked]
      exact List.kreplace_self rt.players.nodupKeys entry
    simp only [setPlayer,same]
  · exact setPlayer_absent present

theorem scanPlayer_runtime (scan : EndScan) : (scanPlayer scan id).runtime =
    scan.runtime.evict fun owner => owner = id ∧ scan.runtime.Doomed owner := by
  have turn : (scanPlayer scan id).runtime =
      if scan.runtime.Doomed id then scan.runtime.clearTilesOfPlayer id else scan.runtime := by
    unfold scanPlayer Doomed
    by_cases failed : (scan.runtime.player id).failure = true
    · by_cases landless : (scan.runtime.player id).baseCount = 0
      · simp [failed,landless,fail_again failed]
      · simp [failed,landless]
    · simp [failed]
  rw [turn]
  split
  · rename_i doomed
    rw [clear_evicts]
    apply evict_congr
    intro owner
    exact ⟨fun same => ⟨same,same ▸ doomed⟩,fun both => both.1⟩
  · rename_i spared
    refine (evict_nobody ?_).symm
    intro owner both
    exact spared (both.1 ▸ both.2)

theorem scan_runtime (ids : List UserId) (scan : EndScan) :
    (ids.foldl scanPlayer scan).runtime = scan.runtime.evict fun owner => owner ∈ ids ∧ scan.runtime.Doomed owner := by
  induction ids generalizing scan with
  | nil => exact (evict_nobody fun _ => by simp).symm
  | cons id rest ih =>
    have kept : (scanPlayer scan id).runtime.players = scan.runtime.players := by
      rw [scanPlayer_runtime,evict_players]
    have same (owner : UserId) : (scanPlayer scan id).runtime.Doomed owner ↔ scan.runtime.Doomed owner := by
      rw [Doomed,Doomed,player,kept,player]
    have rest_ := ih (scanPlayer scan id)
    rw [List.foldl_cons,rest_,evict_congr fun owner => and_congr_right fun _ => same owner]
    rw [scanPlayer_runtime,evict_evict]
    apply evict_congr
    intro owner
    rw [List.mem_cons,or_and_right]

theorem doomed_present (doomed : rt.Doomed id) : id ∈ rt.players := by
  by_contra absent
  have missing : rt.players.lookup id = none := AList.lookup_eq_none.mpr absent
  have unmarked := doomed.1
  rw [player,missing] at unmarked
  cases unmarked

theorem gameEndCheck_runtime (iteration : Iteration) (b : Battle) : (gameEndCheck iteration b).runtime = b.runtime.cull := by
  have scanned := scan_runtime (iteration.order b.runtime.players) ⟨b.runtime,true,0⟩
  refine Eq.trans scanned (evict_congr ?_)
  intro owner
  refine and_iff_right_of_imp ?_
  intro doomed
  exact (iteration.complete _).mem_iff.mpr (doomed_present doomed)

end Scan

section Culling
variable {rt : RuntimeData} {id : UserId} {place : Nat}

@[simp] theorem cull_players : rt.cull.players = rt.players := rfl

@[simp] theorem cull_player : rt.cull.player id = rt.player id := rfl

@[simp] theorem cull_length : rt.cull.mapData.tiles.length = rt.mapData.tiles.length := List.length_map _

theorem cull_tile (inside : place < rt.mapData.tiles.length) :
    rt.cull.tile place = if rt.Doomed (rt.tile place).owner then vacated (rt.tile place) else rt.tile place := by
  simp [cull,evict,tile,inside]

theorem cull_nobody (spared : ∀ id, ¬ rt.Doomed id) : rt.cull = rt := evict_nobody spared

theorem calm_spared (calm : rt.Calm) : ¬ rt.Doomed id := by
  intro doomed
  rw [Doomed,calm id] at doomed
  cases doomed.1

-- What the check is for, read off the two states of one call.
structure Eliminated (rt next : RuntimeData) (id : UserId) : Prop where
  failed : (next.player id).failure = true
  cleared : ∀ place < rt.mapData.tiles.length, (rt.tile place).owner = id → next.tile place = vacated (rt.tile place)
  landless : id ≠ 0 → ∀ place < rt.mapData.tiles.length, (next.tile place).owner ≠ id

structure Undisturbed (rt next : RuntimeData) (id : UserId) : Prop where
  flag : (next.player id).failure = (rt.player id).failure
  tiles : ∀ place < rt.mapData.tiles.length, (rt.tile place).owner = id → next.tile place = rt.tile place

-- 0 is the owner of what nobody owns.
def EliminationExact (rt next : RuntimeData) : Prop := ∀ id ∈ rt.players,
  ((rt.player id).baseCount = 0 → Eliminated rt next id) ∧ ((rt.player id).baseCount ≠ 0 → Undisturbed rt next id)

theorem cull_eliminated (doomed : rt.Doomed id) : Eliminated rt rt.cull id := by
  refine ⟨doomed.1,?_,?_⟩
  · intro place inside own
    rw [cull_tile inside,if_pos (own ▸ doomed)]
  · intro real place inside
    rw [cull_tile inside]
    split
    · exact real.symm
    · rename_i spared
      intro own
      exact spared (own ▸ doomed)

theorem cull_undisturbed (based : (rt.player id).baseCount ≠ 0) : Undisturbed rt rt.cull id := by
  refine ⟨rfl,?_⟩
  intro place inside own
  rw [cull_tile inside,if_neg]
  intro doomed
  rw [own] at doomed
  exact based doomed.2

-- The loop passes over everyone who is not yet marked, so the check eliminates
-- as it should exactly where nobody is left to be marked.
theorem elimination_exact (iteration : Iteration) (b : Battle) :
    EliminationExact b.runtime (gameEndCheck iteration b).runtime ↔
      ∀ id ∈ b.runtime.players, (b.runtime.player id).baseCount = 0 → (b.runtime.player id).failure = true := by
  rw [gameEndCheck_runtime]
  refine ⟨?_,?_⟩
  · intro holds id member landless
    exact ((holds id member).1 landless).failed
  · intro marked id member
    refine ⟨?_,cull_undisturbed⟩
    intro landless
    exact cull_eliminated ⟨marked id member landless,landless⟩

-- Both duelists are without a base, and neither is marked as having lost.
theorem landless_duelist_spared : ¬ EliminationExact Battle.duelStart.runtime
    (gameEndCheck Battle.keyOrder ⟨Battle.duelStart.runtime,[]⟩).runtime := by
  intro holds
  have failed := ((holds 1 (by decide)).1 rfl).failed
  revert failed
  decide

end Culling
end RuntimeData
end GameServer
