import GameServer.CommandOrder
import GameServer.Foundation.Balances

namespace GameServer
open Foundation

def MapData.unplayed (mapData : MapData) : RuntimeData := { mapData := mapData }

def MapData.after (mapData : MapData) (cmd : BattleCmd) : MapData :=
  { mapData with tiles := mapData.tiles.mapIdx fun place tile => ((mapData.unplayed.patch cmd).tiles place).getD tile }

namespace RuntimeData

def Update.entry (u : Update) : Balances.Entry (UserId × Counter) := ⟨u.account,u.gain⟩

def ledger (mapData : MapData) : List BattleCmd → List (Balances.Entry (UserId × Counter))
  | [] => []
  | cmd :: rest => (mapData.unplayed.patch cmd).updates.map Update.entry ++ ledger (mapData.after cmd) rest

-- What StartGame leaves on the counters: a player of the match starts with
-- nothing, the other entries are those of earlier matches.
def opening (h : GameCmdHandler) (info : MatchInfo) (account : UserId × Counter) : Nat :=
  if account.1 ∈ GameCmdHandler.ids info then 0 else (h.runtime.reading account).toNat

def balance (rt : RuntimeData) (account : UserId × Counter) : Nat := (rt.reading account).toNat

section Ledgers
variable {rt : RuntimeData} {u : Update} {updates : List Update} {rest : List (Balances.Entry (UserId × Counter))}

theorem balance_below (rt : RuntimeData) (account : UserId × Counter) : rt.balance account < 2 ^ 32 := UInt32.toNat_lt _

theorem exact_fits : u.Exact (rt.reading u.account) ↔ u.entry.Fits (2 ^ 32) rt.balance := by
  rw [exact_iff,Balances.Entry.Fits,Ne,← UInt32.toNat_inj]
  rfl

theorem post_balance (present : u.player ∈ rt.players) (exactly : u.Exact (rt.reading u.account)) :
    (rt.post u).balance = u.entry.entered rt.balance := by
  funext account
  rw [balance,post_reading present,Balances.Entry.entered]
  by_cases same : account = u.account
  · subst same
    unfold Update.Exact at exactly
    rw [if_pos rfl,if_pos (show u.account = u.entry.account from rfl)]
    show (u.next (rt.reading u.account)).toNat =
      if u.gain then (rt.reading u.account).toNat + 1 else (rt.reading u.account).toNat - 1
    split_ifs at exactly ⊢ <;> omega
  · simp [Update.entry,balance,same]

theorem tallied_covered (present : ∀ u ∈ updates, u.player ∈ rt.players) :
    Tallied rt updates ∧ Balances.Covered (2 ^ 32) (rt.postAll updates).balance rest ↔
      Balances.Covered (2 ^ 32) rt.balance (updates.map Update.entry ++ rest) := by
  induction updates generalizing rt with
  | nil => exact and_iff_right trivial
  | cons u others ih =>
    have here := present u List.mem_cons_self
    have later : ∀ v ∈ others, v.player ∈ (rt.post u).players :=
      fun v member => (setPlayer_mem _ _ _ _).mpr (present v (List.mem_cons_of_mem _ member))
    have posted : rt.postAll (u :: others) = (rt.post u).postAll others := rfl
    rw [List.map_cons,List.cons_append,Balances.covered_cons rt.balance_below,Tallied,posted,and_assoc,ih later,exact_fits]
    refine and_congr_right fun fits => ?_
    rw [post_balance here (exact_fits.mpr fits)]

theorem started_balance {h next : GameCmdHandler} {loadMapData : StdString → Option MapData} {info : MatchInfo}
    (started : h.startGame loadMapData info = (none,next)) : next.runtime.balance = opening h info := by
  obtain ⟨mapData,_,runtime⟩ := GameCmdHandler.startGame_started started
  funext account
  rw [balance,runtime,opening,reading,player]
  by_cases member : account.1 ∈ GameCmdHandler.ids info
  · have seated : ∃ place, (seatPlayers h.runtime.players 0 info.players).lookup account.1 =
        some { playerId := account.1, seatIndex := place } := GameCmdHandler.seated_present member
    obtain ⟨place,found⟩ := seated
    rw [if_pos member,found]
    cases account.2 <;> rfl
  · rw [if_neg member,GameCmdHandler.seated_absent member,reading,player]

end Ledgers

section Boards
variable {rt : RuntimeData} {mapData : MapData} {cmd : BattleCmd}

theorem unplayed_patch (same : rt.mapData.tiles = mapData.tiles) (cmd : BattleCmd) : mapData.unplayed.patch cmd = rt.patch cmd := by
  refine shown_patch ⟨?_,?_⟩
  · rw [same]
    rfl
  · intro _ _ place _
    rw [tile,tile,same]
    rfl

end Boards
end RuntimeData

namespace Battle
open RuntimeData
variable {b next : Battle} {c : Command}

theorem step_tiles (calm : b.runtime.Calm) {mapData : MapData} (same : b.runtime.mapData.tiles = mapData.tiles)
    (stepped : b.step c = some next) : next.runtime.mapData.tiles = (mapData.after c.cmd).tiles := by
  have patched := (step_advanced calm stepped).runtime
  refine List.ext_getElem ?_ fun place inside inside' => ?_
  · rw [patched.size,same,MapData.after,List.length_mapIdx]
  · have board := patched.tiles place
    have before : place < b.runtime.mapData.tiles.length := patched.size ▸ inside
    simp only [tile,List.getD_eq_getElem?_getD,List.getElem?_eq_getElem inside,List.getElem?_eq_getElem before,
      Option.getD_some] at board
    simp only [board,MapData.after,List.getElem_mapIdx,unplayed_patch same,same]

theorem taken_updates {rt : RuntimeData} {cmd : BattleCmd} (accepted : rt.Accepted cmd) {iteration : Iteration}
    (taken : Taken iteration rt cmd b) : (rt.patch cmd).updates = updates rt cmd := by
  have accepted : rt.validateCmd cmd = .ok true := accepted
  cases taken with
  | move type first second => simp only [patch,updates,accepted,type,first,second]
  | attack type first second => simp only [patch,updates,accepted,type,first,second]
  | grow type first => simp only [patch,updates,accepted,type,first]

theorem step_posted (calm : b.runtime.Calm) (stepped : b.step c = some next) :
    ∃ rt : RuntimeData, rt.balance = b.runtime.balance ∧ (∀ u ∈ (b.runtime.patch c.cmd).updates, u.player ∈ rt.players) ∧
      next.runtime.balance = (rt.postAll (b.runtime.patch c.cmd).updates).balance ∧
      (Counted b.runtime c.cmd next.runtime ↔ Tallied rt (b.runtime.patch c.cmd).updates) := by
  rcases step_cases stepped with ⟨refused,same⟩ | ⟨accepted,played,taken,same⟩
  · subst same
    rw [patch_refused refused]
    exact ⟨next.runtime,rfl,List.forall_mem_nil _,rfl,iff_of_true (fun accepted => absurd accepted refused) trivial⟩
  · subst same
    rw [taken_updates accepted taken]
    have law := taken_counted calm accepted taken
    refine ⟨opened b.runtime c.cmd,?_,updates_opened,?_,law⟩
    · funext account
      rw [balance,opened_reading,balance]
    · funext account
      rw [balance,reading_congr (taken_posted calm taken),balance]

theorem run_covered {commands : List Command} (calm : b.runtime.Calm) {mapData : MapData}
    (same : b.runtime.mapData.tiles = mapData.tiles) :
    Machine.Every step (fun b c after => Counted b.runtime c.cmd after.runtime) b commands ↔
      Balances.Covered (2 ^ 32) b.runtime.balance (ledger mapData (commands.map (·.cmd))) := by
  induction commands generalizing b mapData with
  | nil => exact iff_of_true trivial (Balances.covered_nil b.runtime.balance_below)
  | cons c rest ih =>
    obtain ⟨next,stepped⟩ := step_total b c
    obtain ⟨rt,before,present,after,law⟩ := step_posted calm stepped
    have others := ih (step_calm calm stepped) (step_tiles calm same stepped)
    rw [List.map_cons,ledger,unplayed_patch same,← before,← tallied_covered present,← law,← after,← others]
    refine ⟨fun holds => holds next stepped,?_⟩
    intro holds other taken
    cases stepped.symm.trans taken
    exact holds

-- No update of a match wraps exactly as long as, at every update of the commands
-- so far, nobody has lost more than he had when the match began and gained since.
theorem counters_exact (roomId : RoomId) (history : List GameCmdHandler.Event) (h : GameCmdHandler)
    (path : Machine.run GameCmdHandler.step (GameCmdHandler.create roomId) history = some h)
    (loadMapData : StdString → Option MapData) (info : MatchInfo) (next : GameCmdHandler)
    (started : h.startGame loadMapData info = (none,next)) (commands : List Command) :
    Machine.Every step (fun b c after => Counted b.runtime c.cmd after.runtime) ⟨next.runtime,[]⟩ commands ↔
      Balances.Covered (2 ^ 32) (opening h info) (ledger next.runtime.mapData (commands.map (·.cmd))) := by
  rw [← started_balance started]
  exact run_covered (started_calm path started) rfl

def duelRaid : List Command := [⟨keyOrder,⟨1,.move,0,1⟩⟩,⟨keyOrder,⟨1,.grow,1,2⟩⟩,⟨keyOrder,⟨1,.attack,1,2⟩⟩]

-- The unit a failed attack costs is one that a move has brought in.
theorem raid_counted :
    Machine.Every step (fun b c after => Counted b.runtime c.cmd after.runtime) ⟨duelStart.runtime,[]⟩ duelRaid := by
  refine (counters_exact 1 [] (GameCmdHandler.create 1) rfl (fun _ => some duelMap) duel duelStart rfl _).mpr ?_
  have entries : ledger duelStart.runtime.mapData (duelRaid.map (·.cmd)) =
      [⟨(1,.resources),true⟩,⟨(1,.resources),false⟩] := by decide +kernel
  have below (account : UserId × Counter) : opening (GameCmdHandler.create 1) duel account < 2 ^ 32 := by
    unfold opening
    split_ifs
    · exact Nat.two_pow_pos 32
    · exact UInt32.toNat_lt _
  have gained : Balances.Entry.Fits ⟨(1,.resources),true⟩ (2 ^ 32) (opening (GameCmdHandler.create 1) duel) := by
    decide +kernel
  have lost : Balances.Entry.Fits ⟨(1,.resources),false⟩ (2 ^ 32)
      (Balances.Entry.entered ⟨(1,.resources),true⟩ (opening (GameCmdHandler.create 1) duel)) := by decide +kernel
  have below' := Balances.entered_below below gained
  rw [entries,Balances.covered_cons below,Balances.covered_cons below']
  exact ⟨gained,lost,Balances.covered_nil (Balances.entered_below below' lost)⟩

-- The first attack of a match takes a resource and a base from a player who has none counted.
theorem first_loss_wraps : (∀ tile ∈ duelStart.runtime.mapData.tiles, tile.value.toNat < 2 ^ 31) ∧
    ¬ Machine.Every step (fun b c after => Counted b.runtime c.cmd after.runtime) ⟨duelStart.runtime,[]⟩
      [⟨keyOrder,⟨1,.attack,0,2⟩⟩] := by
  refine ⟨by decide,?_⟩
  intro holds
  have calm : duelStart.runtime.Calm := GameCmdHandler.startGame_calm (fun _ => rfl) _ _
  have covered := (run_covered calm rfl).mp holds
  have overdrawn := covered (ledger duelStart.runtime.mapData [⟨1,.attack,0,2⟩]) List.prefix_rfl (2,.resources)
  revert overdrawn
  decide +kernel

end Battle
end GameServer
