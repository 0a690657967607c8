import GameServer.LobbySteps

namespace GameServer.GameRoom
open Foundation

-- The room's state and the handler's flag say the same.
def Together (room : GameRoom) : Prop := room.info.state = .running ↔ room.cmdHandler.ticking = true

-- The calls a running match turns away, with nothing changed by them.
structure Refuses (room : GameRoom) (heap : Heap) : Prop where
  joins : ∀ player, (room.joinRoom heap player).1 ≠ .ok ∧ (room.joinRoom heap player).2 = (room,heap)
  kicks : ∀ playerId targetId, (room.kickPlayer playerId targetId).1 ≠ .ok ∧ (room.kickPlayer playerId targetId).2 = room
  maps : ∀ playerId mapPath, (room.changeMap playerId mapPath).1 ≠ .ok ∧ (room.changeMap playerId mapPath).2 = room
  starts : ∀ loadMapData playerId, (∃ result, (room.startGame heap loadMapData playerId).1 = .ok result ∧ result ≠ .ok) ∧
    (room.startGame heap loadMapData playerId).2 = room

inductive Switch (room next : GameRoom) : Prop where
  | kept (state : next.info.state = room.info.state) (ticking : next.cmdHandler.ticking = room.cmdHandler.ticking)
  | started (state : next.info.state = .running) (ticking : next.cmdHandler.ticking = true)
  | stopped (state : next.info.state = .lobby) (ticking : next.cmdHandler.ticking = false)

section Flags
variable {room next : GameRoom} {heap after : Heap}

theorem switch_together (together : room.Together) (switch : Switch room next) : next.Together := by
  unfold Together at *
  cases switch with
  | kept state ticking => rw [state,ticking]; exact together
  | started state ticking => exact iff_of_true state ticking
  | stopped state ticking => rw [state,ticking]; decide

theorem running_refuses (running : room.isRunning = true) : room.Refuses heap := by
  have state : room.info.state ≠ .lobby := by
    intro lobby
    simp [isRunning,lobby] at running
  refine ⟨?_,?_,?_,?_⟩
  · intro player
    unfold joinRoom
    rw [if_pos running]
    exact ⟨RoomReqResult.noConfusion,rfl⟩
  · intro playerId targetId
    unfold kickPlayer
    rw [if_pos running]
    split <;> exact ⟨RoomReqResult.noConfusion,rfl⟩
  · intro playerId mapPath
    unfold changeMap
    rw [if_pos state]
    split <;> exact ⟨RoomReqResult.noConfusion,rfl⟩
  · intro loadMapData playerId
    unfold startGame
    rw [if_pos running]
    split <;> exact ⟨⟨_,rfl,RoomReqResult.noConfusion⟩,rfl⟩

theorem endings_switch (endings : List Ending) : ∀ room : GameRoom, Switch room (endings.foldl onGameEnd room) := by
  induction endings with
  | nil => intro room; exact .kept rfl rfl
  | cons ending rest ih =>
    intro room
    cases ih (room.onGameEnd ending) with
    | kept state ticking => exact .stopped state ticking
    | started state ticking => exact .started state ticking
    | stopped state ticking => exact .stopped state ticking

theorem perform_switch {op : Op} {result : Except Thrown RoomReqResult}
    (performed : room.perform heap op = some (result,next,after)) : Switch room next := by
  cases perform_cases performed with
  | started info group ticking => exact .started (by rw [info]) ticking
  | thrown info group ticking => exact .kept (by rw [info]) ticking
  | dissolved owner => exact .stopped rfl rfl
  | @played _ _ b =>
    cases endings_switch b.endings { room with cmdHandler := { room.cmdHandler with runtime := b.runtime } } with
    | kept state ticking => exact .kept state ticking
    | started state ticking => exact .started state ticking
    | stopped state ticking => exact .stopped state ticking
  | _ => exact .kept rfl rfl

theorem step_together {s next : GameRoom × Heap} {op : Op} (together : s.1.Together) (stepped : step s op = some next) :
    next.1.Together := by
  obtain ⟨⟨result,next⟩,performed,rfl⟩ := Option.map_eq_some_iff.mp stepped
  exact switch_together together (perform_switch performed)

end Flags

-- Rooms are built from an info that says they are in the lobby.
theorem ticking_together (info : GameRoomInfo) (lobby : info.state = .lobby) (heap : Heap) (ops : List Op) :
    Machine.Always step (fun s => s.1.Together ∧ (s.1.info.state = .running → s.1.Refuses s.2)) (create info,heap) ops := by
  intro earlier later reached _ path
  have start : (create info).Together := by
    refine iff_of_false ?_ (by decide : ¬ false = true)
    change ¬ info.state = .running
    rw [lobby]
    decide
  have kept : ∀ (s : GameRoom × Heap) op next, s.1.Together → step s op = some next → next.1.Together :=
    fun _ _ _ together stepped => step_together together stepped
  refine ⟨Machine.run_preserves kept start path,?_⟩
  intro running
  exact running_refuses (by rw [isRunning,running]; rfl)

theorem ticking_together_duel : Machine.Always step (fun s => s.1.Together ∧ (s.1.info.state = .running → s.1.Refuses s.2))
    (create { ownerId := 1, capacity := 4 },Lobby.noInfos)
    [.joinRoom (some ⟨0,1⟩),.joinRoom (some ⟨1,2⟩),.startGame (fun _ => some Battle.duelMap) 1] :=
  ticking_together { ownerId := 1, capacity := 4 } rfl Lobby.noInfos _

end GameServer.GameRoom
