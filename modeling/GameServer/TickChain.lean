import GameServer.Foundation.Machine
import GameServer.Foundation.WaitableTimer
import GameServer.GameCmdHandler

namespace GameServer
open Foundation WaitableTimer

-- A handler with its tick timer. Each wait carries the number of the game in
-- which it was scheduled, counted by the calls of StartTicking that took effect.
structure TickChain where
  handler : GameCmdHandler
  timer : List (Wait Nat) := []
  game : Nat := 0

namespace TickChain

def create (roomId : RoomId) : TickChain := { handler := GameCmdHandler.create roomId }

def scheduleNextTick (s : TickChain) : TickChain :=
  if !s.handler.ticking then s else { s with timer := renew s.timer s.game }

def startTicking (s : TickChain) (interval : Nat) : TickChain :=
  if s.handler.ticking then s
  else { s with handler := s.handler.startTicking interval, game := s.game + 1 }.scheduleNextTick

def stopTicking (s : TickChain) : TickChain :=
  { s with handler := s.handler.stopTicking, timer := cancel s.timer }

def onWait (s : TickChain) (w : Wait Nat) : TickChain :=
  if w.status = .aborted || !s.handler.ticking then s
  else { s with handler := s.handler.tick (UInt64.ofNat s.handler.tickInterval) }.scheduleNextTick

inductive Event where
  | startTicking (interval : Nat)
  | stopTicking
  | expire (place : Nat)
  | runHandler (place : Nat)

def step (s : TickChain) : Event → Option TickChain
  | .startTicking interval => some (s.startTicking interval)
  | .stopTicking => some s.stopTicking
  | .expire place => (WaitableTimer.expire s.timer place).map fun timer => { s with timer := timer }
  | .runHandler place => (complete s.timer place).map fun out => { s with timer := out.2 }.onWait out.1

def wouldTick (s : TickChain) (w : Wait Nat) : Bool := w.live && s.handler.ticking

-- At most one such completion is outstanding, and it was scheduled in this game.
structure OneChain (s : TickChain) : Prop where
  one : s.timer.countP s.wouldTick ≤ 1
  own : ∀ w ∈ s.timer, s.wouldTick w = true → w.tag = s.game

-- A start that takes effect finds no completion queued before the last stop.
def Settled (s : TickChain) (event : Event) (_ : TickChain) : Prop :=
  ∀ interval, event = .startTicking interval → s.handler.ticking = false → ∀ w ∈ s.timer, w.status ≠ .expired

section Chains
variable {s next : TickChain}

theorem ticking_count (ticking : s.handler.ticking = true) : s.timer.countP s.wouldTick = s.timer.countP Wait.live := by
  congr 1
  funext w
  rw [wouldTick,ticking,Bool.and_true]

theorem idle_chain (idle : s.handler.ticking = false) : s.OneChain := by
  have none_ (w : Wait Nat) : s.wouldTick w = false := by rw [wouldTick,idle,Bool.and_false]
  refine ⟨?_,?_⟩
  · rw [List.countP_eq_zero.mpr fun w _ => by rw [none_ w]; decide]
    exact Nat.zero_le 1
  · intro w _ ticks
    cases (none_ w).symm.trans ticks

theorem renewed_chain {handler : GameCmdHandler} {waits : List (Wait Nat)} {game : Nat} (ticking : handler.ticking = true) :
    OneChain ⟨handler,renew waits game,game⟩ ↔ ∀ w ∈ waits, w.status ≠ .expired := by
  have none_queued : waits.countP Wait.queued = 0 ↔ ∀ w ∈ waits, w.status ≠ .expired := by
    rw [List.countP_eq_zero]
    exact forall₂_congr fun w _ => by rw [Wait.queued,decide_eq_true_eq]
  refine ⟨?_,?_⟩
  · intro chain
    have one := chain.one
    rw [ticking_count ticking,renew_live] at one
    exact none_queued.mp (Nat.le_zero.mp (Nat.le_of_succ_le_succ one))
  · intro settled
    refine ⟨?_,?_⟩
    · rw [ticking_count ticking,renew_live,none_queued.mpr settled]
    · intro w member ticks
      have live : w.live = true := (Bool.and_eq_true_iff.mp ticks).1
      rcases List.mem_append.mp member with old | new
      · obtain ⟨before,inside,queued,-⟩ := mem_cancel old live
        exact (settled before inside (by simpa [Wait.queued] using queued)).elim
      · rw [List.mem_singleton.mp new]

theorem startTicking_chain (interval : Nat) (idle : s.handler.ticking = false) :
    (s.startTicking interval).OneChain ↔ ∀ w ∈ s.timer, w.status ≠ .expired := by
  have started : (s.handler.startTicking interval).ticking = true := by
    unfold GameCmdHandler.startTicking
    rw [if_neg (by simp [idle])]
  unfold startTicking scheduleNextTick
  rw [if_neg (by simp [idle]),if_neg (by simp [started])]
  exact renewed_chain started

theorem onWait_chain {w : Wait Nat} {left : List (Wait Nat)} {place : Nat} (chain : s.OneChain)
    (completed : complete s.timer place = some (w,left)) : (onWait { s with timer := left } w).OneChain := by
  have count := complete_live completed
  obtain ⟨found,-,rest⟩ := complete_eq_some.mp completed
  have inside : ∀ other ∈ left, other ∈ s.timer := by
    intro other member
    rw [rest] at member
    exact List.mem_of_mem_eraseIdx member
  cases ticking : s.handler.ticking with
  | false =>
    unfold onWait
    rw [if_pos (by simp [ticking])]
    exact idle_chain ticking
  | true =>
    have one := chain.one
    rw [ticking_count ticking] at one
    by_cases aborted : w.status = .aborted
    · unfold onWait
      rw [if_pos (by simp [aborted])]
      refine ⟨?_,fun other member ticks => chain.own other (inside other member) ticks⟩
      have counted := @ticking_count { s with timer := left } ticking
      rw [counted]
      exact Nat.le_trans (Nat.le_trans (Nat.le_add_right _ _) (Nat.le_of_eq count)) one
    · have live : w.live = true := by simpa [Wait.live] using aborted
      rw [if_pos live] at count
      have none_ : left.countP Wait.live = 0 := by omega
      have ticked : (s.handler.tick (UInt64.ofNat s.handler.tickInterval)).ticking = true := ticking
      unfold onWait scheduleNextTick
      rw [if_neg (by simp [aborted,ticking]),if_neg (by simp [ticked])]
      refine (renewed_chain ticked).mpr ?_
      intro other member expired
      exact List.countP_eq_zero.mp none_ other member (queued_live (by simpa [Wait.queued] using expired))

theorem expire_chain {place : Nat} {timer : List (Wait Nat)} (chain : s.OneChain)
    (expired : WaitableTimer.expire s.timer place = some timer) : OneChain { s with timer := timer } := by
  cases ticking : s.handler.ticking with
  | false => exact idle_chain ticking
  | true =>
    have one := chain.one
    have count := expire_live expired
    refine ⟨?_,?_⟩
    · have counted := @ticking_count { s with timer := timer } ticking
      rw [counted,count,← ticking_count ticking]
      exact one
    · intro w member ticks
      obtain ⟨tag,found,rfl⟩ := expire_eq_some.mp expired
      rcases List.mem_or_eq_of_mem_set member with old | rfl
      · exact chain.own w old ticks
      · exact chain.own ⟨tag,.waiting⟩ (List.mem_of_getElem? found) ticks

theorem step_chain {event : Event} (chain : s.OneChain) (stepped : s.step event = some next) :
    next.OneChain ↔ Settled s event next := by
  cases event with
  | startTicking interval =>
    cases stepped
    cases ticking : s.handler.ticking with
    | true =>
      have same : s.startTicking interval = s := if_pos ticking
      rw [same]
      refine iff_of_true chain ?_
      intro _ _ idle
      cases ticking.symm.trans idle
    | false =>
      rw [startTicking_chain interval ticking]
      refine ⟨fun settled _ _ _ => settled,fun settled => settled interval rfl ticking⟩
  | stopTicking => cases stepped; exact iff_of_true (idle_chain rfl) nofun
  | expire place =>
    obtain ⟨timer,expired,rfl⟩ := Option.map_eq_some_iff.mp stepped
    exact iff_of_true (expire_chain chain expired) nofun
  | runHandler place =>
    obtain ⟨⟨w,left⟩,completed,rfl⟩ := Option.map_eq_some_iff.mp stepped
    exact iff_of_true (onWait_chain chain completed) nofun

end Chains

-- Over every interleaving from a new handler.
theorem one_chain_exact (roomId : RoomId) (events : List Event) :
    Machine.Always step OneChain (create roomId) events ↔ Machine.Every step Settled (create roomId) events := by
  have kept : ∀ (s : TickChain) event next, True → s.OneChain → s.step event = some next → next.OneChain → True :=
    fun _ _ _ _ _ _ _ => trivial
  have exact_at : ∀ (s : TickChain) event next, True → s.OneChain → s.step event = some next →
      (next.OneChain ↔ Settled s event next) :=
    fun _ _ _ _ chain stepped => step_chain chain stepped
  exact Machine.always_iff_guarded kept exact_at trivial (idle_chain rfl)

def restarted : List Event := [.startTicking 50,.expire 0,.stopTicking,.startTicking 50]

-- The timer expires just before the stop: after the restart its completion ticks
-- in the new game, beside the new one.
theorem restart_doubles : ¬ Machine.Always step OneChain (create 1) restarted := by
  intro always
  have seen : (Machine.run step (create 1) restarted).map (fun s => s.timer.countP s.wouldTick) = some 2 := by decide +kernel
  obtain ⟨s,path,two⟩ := Option.map_eq_some_iff.mp seen
  have one := (always restarted [] s (List.append_nil _).symm path).one
  rw [two] at one
  exact absurd one (by decide)

end TickChain
end GameServer
