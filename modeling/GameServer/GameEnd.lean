import GameServer.MatchRun

namespace GameServer.Battle
open Foundation RuntimeData

-- The callback names the one player who has not lost.
structure Rightful (ending : Ending) : Prop where
  real : ending.winner ≠ 0
  standing : ∃ state, ending.players.lookup ending.winner = some state ∧ state.failure = false
  alone : ∀ id state, ending.players.lookup id = some state → state.failure = false → id = ending.winner

structure EndsRightly (b : Battle) : Prop where
  once : b.endings.length ≤ 1
  rightful : ∀ ending ∈ b.endings, Rightful ending

-- Whatever order the loop over the players takes at each command, the run is the same.
def Orderless (start : Battle) (commands : List Command) : Prop :=
  ∀ others : List Command, others.map (·.cmd) = commands.map (·.cmd) →
    Machine.run step start others = Machine.run step start commands

def LosesBase (rt : RuntimeData) (cmd : BattleCmd) : Prop :=
  rt.Accepted cmd ∧ cmd.type = .attack ∧ ∃ src dst place receiver, rt.index cmd.param1 = some src ∧
    rt.index cmd.param2 = some dst ∧ rt.handover src dst = some (place,receiver) ∧ (rt.tile place).type = .base

theorem losesBase_attack {rt : RuntimeData} {cmd : BattleCmd} {src dst : Nat} (first : rt.index cmd.param1 = some src)
    (second : rt.index cmd.param2 = some dst) (loses : LosesBase rt cmd) :
    ∃ place receiver, rt.handover src dst = some (place,receiver) ∧ (rt.tile place).type = .base := by
  obtain ⟨_,_,src',dst',place,receiver,first',second',fate,base⟩ := loses
  cases first.symm.trans first'
  cases second.symm.trans second'
  exact ⟨place,receiver,fate,base⟩

theorem taken_endings {rt : RuntimeData} (calm : rt.Calm) {cmd : BattleCmd} (accepted : rt.Accepted cmd)
    {iteration : Iteration} {b : Battle} (taken : Taken iteration rt cmd b) :
    (LosesBase rt cmd ∧ b.endings = [⟨0,b.runtime.players⟩]) ∨ (¬ LosesBase rt cmd ∧ b.endings = []) := by
  cases taken with
  | move type =>
    refine Or.inr ⟨?_,rfl⟩
    intro loses
    rw [loses.2.1] at type
    cases type
  | grow type =>
    refine Or.inr ⟨?_,rfl⟩
    intro loses
    rw [loses.2.1] at type
    cases type
  | @attack src dst type first second facing own =>
    have endings := (attack_resolved calm facing iteration).endings
    cases fate : rt.handover src dst with
    | none =>
      rw [fate] at endings
      refine Or.inr ⟨?_,endings⟩
      intro loses
      obtain ⟨_,_,other,_⟩ := losesBase_attack first second loses
      rw [fate] at other
      cases other
    | some change =>
      obtain ⟨place,receiver⟩ := change
      rw [fate] at endings
      by_cases base : (rt.tile place).type = .base
      · refine Or.inl ⟨⟨accepted,type,src,dst,place,receiver,first,second,fate,base⟩,?_⟩
        exact endings.trans (if_pos base)
      · refine Or.inr ⟨?_,endings.trans (if_neg base)⟩
        intro loses
        obtain ⟨_,_,other,isBase⟩ := losesBase_attack first second loses
        cases fate.symm.trans other
        exact base isBase

theorem step_endings {b next : Battle} {c : Command} (calm : b.runtime.Calm) (none_ : b.endings = [])
    (stepped : b.step c = some next) : (LosesBase b.runtime c.cmd ∧ next.endings = [⟨0,next.runtime.players⟩]) ∨
      (¬ LosesBase b.runtime c.cmd ∧ next.endings = []) := by
  rcases step_cases stepped with ⟨refused,rfl⟩ | ⟨accepted,played,taken,rfl⟩
  · exact Or.inr ⟨fun loses => refused loses.1,none_⟩
  · simp only [none_,List.nil_append]
    exact taken_endings calm accepted taken

theorem endsRightly_nil {b : Battle} (none_ : b.endings = []) : b.EndsRightly := by
  refine ⟨?_,?_⟩
  · rw [none_]; exact Nat.zero_le _
  · intro ending member
    rw [none_] at member
    cases member

theorem step_rightly {b next : Battle} {c : Command} (calm : b.runtime.Calm) (none_ : b.endings = [])
    (stepped : b.step c = some next) : next.EndsRightly ↔ ¬ LosesBase b.runtime c.cmd := by
  rcases step_endings calm none_ stepped with ⟨loses,endings⟩ | ⟨keeps,endings⟩
  · refine iff_of_false ?_ (not_not.mpr loses)
    intro rightly
    exact (rightly.rightful ⟨0,next.runtime.players⟩ (by rw [endings]; exact List.mem_singleton_self _)).real rfl
  · exact iff_of_true (endsRightly_nil endings) keeps

theorem step_order {b : Battle} (calm : b.runtime.Calm) {one other : Command} (same : one.cmd = other.cmd) :
    b.step one = b.step other := by
  rw [step,step,← same,processCommand_order calm one.cmd one.iteration other.iteration]

theorem orderless {start : Battle} (calm : start.runtime.Calm) (commands : List Command) : Orderless start commands := by
  induction commands generalizing start with
  | nil =>
    intro others same
    rw [List.map_eq_nil_iff.mp same]
  | cons c rest ih =>
    intro others same
    obtain ⟨first,later,rfl,sameCmd,sameRest⟩ := List.map_eq_cons_iff.mp same
    rw [Machine.run_cons,Machine.run_cons,step_order calm sameCmd]
    cases stepped : start.step c with
    | none => rfl
    | some next => exact ih (step_calm calm stepped) later sameRest

-- The end of a match is declared as promised in exactly the matches in which
-- no attack ever takes or destroys a base: any such attack calls the callback
-- with 0 at once, as nobody is ever marked as having lost.
theorem game_end_exact (roomId : RoomId) (history : List GameCmdHandler.Event) (h : GameCmdHandler)
    (path : Machine.run GameCmdHandler.step (GameCmdHandler.create roomId) history = some h)
    (loadMapData : StdString → Option MapData) (info : MatchInfo) (next : GameCmdHandler)
    (started : h.startGame loadMapData info = (none,next)) (commands : List Command) :
    (Machine.Always step EndsRightly ⟨next.runtime,[]⟩ commands ∧ Orderless ⟨next.runtime,[]⟩ commands) ↔
      Machine.Every step (fun b c _ => ¬ LosesBase b.runtime c.cmd) ⟨next.runtime,[]⟩ commands := by
  have calm : next.runtime.Calm := by
    have after := GameCmdHandler.startGame_calm (GameCmdHandler.run_calm path) loadMapData info
    rwa [started] at after
  have always : Machine.Always step EndsRightly ⟨next.runtime,[]⟩ commands ↔
      Machine.Every step (fun b c _ => ¬ LosesBase b.runtime c.cmd) ⟨next.runtime,[]⟩ commands := by
    have kept : ∀ (b : Battle) c after, b.runtime.Calm ∧ b.endings = [] → b.EndsRightly → b.step c = some after →
        after.EndsRightly → after.runtime.Calm ∧ after.endings = [] := by
      intro b c after valid _ stepped rightly
      refine ⟨step_calm valid.1 stepped,?_⟩
      rcases step_endings valid.1 valid.2 stepped with ⟨loses,_⟩ | ⟨_,endings⟩
      · exact absurd loses ((step_rightly valid.1 valid.2 stepped).mp rightly)
      · exact endings
    exact Machine.always_iff_guarded kept (fun b c after valid _ stepped => step_rightly valid.1 valid.2 stepped)
      ⟨calm,rfl⟩ (endsRightly_nil rfl)
  exact (and_iff_left (orderless calm commands)).trans always

def keyOrder : Iteration := ⟨fun players => players.keys,fun _ => List.Perm.refl _⟩

def duelist (userId : UserId) : GamePlayerInfo := ⟨⟨userId,1,[],0,true⟩,0,0,0,false⟩

def duel : MatchInfo := ⟨[duelist 1,duelist 2],[],1⟩

def duelMap : MapData := ⟨3,1,[{ tileId := 1, owner := 1, value := 5, roundType := 0 },
  { tileId := 2, owner := 1, value := 1, roundType := 0 },
  { tileId := 3, owner := 2, value := 3, type := .base, roundType := 0 }]⟩

def duelStart : GameCmdHandler := ((GameCmdHandler.create 1).startGame (fun _ => some duelMap) duel).2

theorem game_end_peaceful :
    (Machine.Always step EndsRightly ⟨duelStart.runtime,[]⟩ [⟨keyOrder,⟨1,.move,0,1⟩⟩] ∧
      Orderless ⟨duelStart.runtime,[]⟩ [⟨keyOrder,⟨1,.move,0,1⟩⟩]) := by
  refine (game_end_exact 1 [] (GameCmdHandler.create 1) rfl (fun _ => some duelMap) duel duelStart rfl _).mpr ?_
  intro next stepped
  refine ⟨?_,trivial⟩
  intro loses
  cases loses.2.1

-- Player 1 takes the base, and the match is declared over with winner 0 while
-- both players are still in it.
theorem captured_base_ends_wrongly :
    ¬ Machine.Always step EndsRightly ⟨duelStart.runtime,[]⟩ [⟨keyOrder,⟨1,.attack,0,2⟩⟩] := by
  intro holds
  have calm : duelStart.runtime.Calm := GameCmdHandler.startGame_calm (fun _ => rfl) _ _
  obtain ⟨next,stepped⟩ := step_total ⟨duelStart.runtime,[]⟩ ⟨keyOrder,⟨1,.attack,0,2⟩⟩
  have reached := holds _ [] next (List.append_nil _).symm (by rw [Machine.run_cons,stepped]; rfl)
  have takes : LosesBase duelStart.runtime ⟨1,.attack,0,2⟩ := ⟨rfl,rfl,0,2,2,1,rfl,rfl,rfl,rfl⟩
  exact (step_rightly calm rfl stepped).mp reached takes

end GameServer.Battle
