import Mathlib.Algebra.BigOperators.Ring.List
import GameServer.Foundation.Locks
import GameServer.Linearized

namespace GameServer.Handlers
open Foundation Locks JSONTranslator

inductive Strand where
  | login | room
deriving DecidableEq

instance : Fintype Strand := ⟨{.login,.room},fun strand => by cases strand <;> decide⟩

-- player_manager_mutex_ of the players, mutex_ of the rooms.
inductive Mutex where
  | playerManager | rooms
deriving DecidableEq

def LoginTask.needs : LoginTask → Option (Mutex × Mode)
  | .called turn pack =>
    if Server.LogsIn pack ∧ (loginInfo turn pack).result = .success ∧ (loginInfo turn pack).userId ≠ 0
    then some (.playerManager,.exclusive) else none
  | _ => none

def RoomTask.needs (w : Lobby) : RoomTask → Option (Mutex × Mode)
  | .called _ pack =>
    if Server.Reads pack ∧ pack.msg.payload = [] then none
    else if pack.msg.subType = RoomReqType.createRoom then none
    else some (.rooms,.shared)
  | .owning .. | .meeting .. => if w.manager.hasPlayerManager then some (.playerManager,.shared) else none
  | .entering .. => some (.rooms,.exclusive)
  | .finding .. | .leaving .. | .describing .. | .fetching .. | .reading .. | .telling => some (.rooms,.shared)
  | .idle | .housing .. | .seating .. => none

-- GetRoomInfo reads the players under the lock it has found the room with.
def RoomTask.amid : RoomTask → Bool
  | .reading .. => true
  | _ => false

def Action.strand : Action → Strand
  | .call request => if request.logs then .login else .room
  | .login => .login
  | .room => .room

def discipline (library : JsonLibrary) : Discipline State Action Strand Mutex where
  step := step library
  party := Action.strand
  needs := fun s strand => match strand with
    | .login => s.login.needs
    | .room => s.room.needs s.lobby
  amid := fun s strand => match strand with
    | .login => false
    | .room => s.room.amid

def LoginTask.left : LoginTask → Nat
  | .idle => 0
  | .called .. => 5
  | .binding .. => 2
  | .marking .. => 1

def RoomTask.left : RoomTask → Nat
  | .idle => 0
  | .called .. => 24
  | .owning .. => 21
  | .housing .. => 18
  | .entering .. => 17
  | .finding .. => 21
  | .meeting .. => 18
  | .seating .. => 15
  | .leaving .. => 3
  | .describing .. => 14
  | .fetching .. => 11
  | .reading _ _ _ _ rest => rest.length + 6
  | .telling => 3

def LoginTask.price (task : LoginTask) : Nat := if task.needs = none then 1 else 3

def RoomTask.price (w : Lobby) (task after : RoomTask) : Nat := if task.needs w = none ∨ after.amid = true then 1 else 3

section Locking
variable {library : JsonLibrary} {w after : Lobby} {s next : State}

theorem login_price_le (task : LoginTask) : task.price ≤ 3 := by
  unfold LoginTask.price
  split <;> omega

theorem login_price {task then_ : LoginTask} (stepped : loginStep w task = some (after,then_)) :
    task.price + then_.left ≤ task.left := by
  have most := login_price_le task
  cases task with
  | idle => cases stepped
  | called turn pack =>
    unfold loginStep at stepped
    dsimp only at stepped
    split at stepped
    · split at stepped <;> cases stepped <;> simp only [LoginTask.left] <;> omega
    · cases stepped
      simp only [LoginTask.left]
      omega
  | binding info player => cases stepped; exact Nat.le_refl 2
  | marking player => cases stepped; exact Nat.le_refl 1

theorem room_price_le (w : Lobby) (task then_ : RoomTask) : task.price w then_ ≤ 3 := by
  unfold RoomTask.price
  split <;> omega

theorem replied_left (pack : MsgPack) (text : Option StdString) : (replied pack text).left ≤ 3 := by
  unfold replied
  split
  · exact Nat.le_refl 3
  · exact Nat.zero_le 3

theorem replied_amid (pack : MsgPack) (text : Option StdString) : (replied pack text).amid = false := by
  unfold replied
  split <;> rfl

theorem room_price (objects : Objects w) {task then_ : RoomTask} {out : List Answer}
    (stepped : roomStep library w task = some (after,then_,out)) : task.price w then_ + then_.left ≤ task.left := by
  have most := room_price_le w task then_
  cases task with
  | idle => cases stepped
  | called turn pack =>
    unfold roomStep at stepped
    dsimp only at stepped
    split at stepped
    · cases stepped
      simp only [RoomTask.left]
      omega
    · rename_i whole
      split at stepped
      · rename_i creates
        cases stepped
        have free : (RoomTask.called turn pack).needs w = none := by
          simp only [RoomTask.needs,whole,creates,if_true,if_false]
        simp only [RoomTask.price,free,true_or,if_true,RoomTask.left]
        omega
      · split at stepped
        · split at stepped <;> cases stepped <;> simp only [RoomTask.left] <;> omega
        · split at stepped
          · split at stepped <;> cases stepped <;> simp only [RoomTask.left] <;> omega
          · cases stepped
            simp only [RoomTask.left]
            omega
  | owning turn pack newRoom =>
    unfold roomStep at stepped
    dsimp only at stepped
    split at stepped
    · cases stepped
      simp only [RoomTask.left]
      omega
    · split at stepped <;> cases stepped <;> simp only [RoomTask.left] <;> omega
  | housing turn pack newRoom ownerPlayer =>
    have free : (RoomTask.housing turn pack newRoom ownerPlayer).price w then_ = 1 := if_pos (.inl rfl)
    unfold roomStep at stepped
    dsimp only at stepped
    rw [free]
    split at stepped <;> cases stepped <;> simp only [RoomTask.left] <;> omega
  | entering turn pack newRoom =>
    cases stepped
    simp only [RoomTask.left]
    omega
  | finding turn pack roomId =>
    unfold roomStep at stepped
    dsimp only at stepped
    split at stepped <;> cases stepped <;> simp only [RoomTask.left] <;> omega
  | meeting turn pack roomId =>
    unfold roomStep at stepped
    dsimp only at stepped
    split at stepped
    · cases stepped
      simp only [RoomTask.left]
      omega
    · split at stepped <;> cases stepped <;> simp only [RoomTask.left] <;> omega
  | seating turn pack roomId player =>
    have free : (RoomTask.seating turn pack roomId player).price w then_ = 1 := if_pos (.inl rfl)
    unfold roomStep at stepped
    dsimp only at stepped
    rw [free]
    split at stepped <;> cases stepped <;> simp only [RoomTask.left] <;> omega
  | leaving turn pack roomId =>
    unfold roomStep at stepped
    dsimp only at stepped
    split at stepped <;> cases stepped <;> exact most
  | describing turn pack =>
    unfold roomStep at stepped
    dsimp only at stepped
    split at stepped <;> cases stepped <;> simp only [RoomTask.left] <;> omega
  | fetching turn pack roomId =>
    unfold roomStep at stepped
    dsimp only at stepped
    split at stepped
    · cases stepped
      exact Nat.le_trans (Nat.add_le_add most (replied_left pack _)) (Nat.le_add_right 6 5)
    · rename_i room listed
      cases stepped
      -- A room has four members at most, and they are read under one lock.
      have few := (objects.rooms roomId room listed).few
      simp only [RoomTask.price,RoomTask.amid,or_true,if_true,RoomTask.left]
      omega
  | reading turn pack room infos rest =>
    cases rest with
    | nil =>
      cases stepped
      exact Nat.le_trans (Nat.add_le_add most (replied_left pack _)) (Nat.le_refl 6)
    | cons player rest =>
      cases stepped
      simp only [RoomTask.price,RoomTask.amid,or_true,if_true,RoomTask.left,List.length_cons]
      omega
  | telling =>
    cases stepped
    exact most

theorem login_owes {task : LoginTask} (needs : task.needs ≠ none) : 0 < task.left := by
  cases task with
  | idle => exact absurd rfl needs
  | _ => exact Nat.succ_pos _

theorem room_owes {task : RoomTask} (needs : task.needs w ≠ none) : 0 < task.left := by
  cases task with
  | idle => exact absurd rfl needs
  | _ => exact Nat.succ_pos _

theorem loginStep_manager {task then_ : LoginTask} (stepped : loginStep w task = some (after,then_)) :
    after.manager = w.manager := by
  cases task with
  | idle => cases stepped
  | called turn pack =>
    unfold loginStep at stepped
    dsimp only at stepped
    split at stepped
    · split at stepped <;> cases stepped
      · rfl
      · unfold Lobby.createPlayer
        split <;> rfl
    · cases stepped
      rfl
  | binding info player => cases stepped; rfl
  | marking player => cases stepped; rfl

theorem needs_manager {task : RoomTask} (manager : after.manager = w.manager) : task.needs after = task.needs w := by
  cases task with
  | owning => simp only [RoomTask.needs,manager]
  | meeting => simp only [RoomTask.needs,manager]
  | _ => rfl

theorem amid_needs {task then_ : RoomTask} {out : List Answer} (stepped : roomStep library w task = some (after,then_,out))
    (amid : then_.amid = true) : then_.needs after = task.needs w := by
  cases task with
  | idle => cases stepped
  | called turn pack =>
    unfold roomStep at stepped
    dsimp only at stepped
    split at stepped
    · cases stepped; cases amid
    · split at stepped
      · cases stepped; cases amid
      · split at stepped
        · split at stepped <;> cases stepped <;> cases amid
        · split at stepped
          · split at stepped <;> cases stepped <;> cases amid
          · cases stepped; cases amid
  | owning turn pack newRoom =>
    unfold roomStep at stepped
    dsimp only at stepped
    split at stepped
    · cases stepped; cases amid
    · split at stepped <;> cases stepped <;> cases amid
  | meeting turn pack roomId =>
    unfold roomStep at stepped
    dsimp only at stepped
    split at stepped
    · cases stepped; cases amid
    · split at stepped <;> cases stepped <;> cases amid
  | entering turn pack newRoom => cases stepped; cases amid
  | fetching turn pack roomId =>
    unfold roomStep at stepped
    dsimp only at stepped
    split at stepped <;> cases stepped
    · exact absurd amid (by rw [replied_amid]; decide)
    · rfl
  | reading turn pack room infos rest =>
    cases rest <;> cases stepped
    · exact absurd amid (by rw [replied_amid]; decide)
    · rfl
  | telling => cases stepped; cases amid
  | _ =>
    unfold roomStep at stepped
    dsimp only at stepped
    split at stepped <;> cases stepped <;> cases amid

theorem orderly (library : JsonLibrary) : (discipline library).Orderly Sound := by
  refine ⟨sound_kept library,?_,?_,?_⟩
  · intro s action next sound stepped strand other
    have stepped : step library s action = some next := stepped
    cases action with
    | call request =>
      cases request with
      | login turn pack =>
        obtain ⟨_,rfl⟩ := login_call stepped
        cases strand with
        | login => exact absurd rfl other
        | room => rfl
      | room turn pack =>
        obtain ⟨_,rfl⟩ := room_call stepped
        cases strand with
        | login => rfl
        | room => exact absurd rfl other
    | login =>
      obtain ⟨⟨lobby,then_⟩,taken,rfl⟩ := Option.map_eq_some_iff.mp stepped
      have manager := loginStep_manager taken
      cases strand with
      | login => exact absurd rfl other
      | room =>
        exact needs_manager manager
    | room =>
      obtain ⟨⟨lobby,then_,out⟩,taken,rfl⟩ := Option.map_eq_some_iff.mp stepped
      cases strand with
      | login => rfl
      | room => exact absurd rfl other
  · intro s action next sound stepped amid
    have stepped : step library s action = some next := stepped
    cases action with
    | call request =>
      cases request with
      | login turn pack => cases amid
      | room turn pack =>
        obtain ⟨_,rfl⟩ := room_call stepped
        cases amid
    | login => cases amid
    | room =>
      obtain ⟨⟨lobby,then_,out⟩,taken,rfl⟩ := Option.map_eq_some_iff.mp stepped
      exact amid_needs taken amid
  · intro s strand sound needs
    cases strand with
    | login =>
      have busy : s.login ≠ .idle := fun idle => needs (congrArg LoginTask.needs idle)
      obtain ⟨lobby,then_,taken,_⟩ := login_goes s.lobby busy
      exact ⟨.login,_,rfl,Option.map_eq_some_iff.mpr ⟨_,taken,rfl⟩⟩
    | room =>
      have busy : s.room ≠ .idle := fun idle => needs (congrArg (RoomTask.needs s.lobby) idle)
      obtain ⟨lobby,then_,out,taken,_⟩ := room_goes library s.lobby busy
      exact ⟨.room,_,rfl,Option.map_eq_some_iff.mpr ⟨_,taken,rfl⟩⟩

def Action.paid (own : Request → Bool) (moves : Nat) (action : Action) : Nat := moves * action.calls.countP own

theorem login_pays {action : Action} (stepped : step library s action = some next) :
    (if action.strand = .login then (discipline library).cost s action next else 0) + next.login.left ≤
      s.login.left + action.paid Request.logs 6 := by
  cases action with
  | call request =>
    cases request with
    | login turn pack =>
      obtain ⟨idle,rfl⟩ := login_call stepped
      simp [Action.strand,Request.logs,Discipline.cost,discipline,idle,LoginTask.needs,LoginTask.left,Action.paid,Action.calls]
    | room turn pack =>
      obtain ⟨_,rfl⟩ := room_call stepped
      simp [Action.strand,Request.logs]
  | login =>
    obtain ⟨⟨lobby,then_⟩,taken,rfl⟩ := Option.map_eq_some_iff.mp stepped
    have cost : (discipline library).cost s .login { s with lobby, login := then_ } = s.login.price := by
      simp [Discipline.cost,discipline,Action.strand,LoginTask.price]
    have mine : Action.login.strand = .login := rfl
    dsimp only
    rw [if_pos mine,cost]
    exact Nat.le_trans (login_price taken) (Nat.le_add_right _ _)
  | room =>
    obtain ⟨lobby,after,out,rfl,_⟩ := room_step stepped
    simp [Action.strand]

theorem room_pays (sound : Sound s) {action : Action} (stepped : step library s action = some next) :
    (if action.strand = .room then (discipline library).cost s action next else 0) + next.room.left ≤
      s.room.left + action.paid (!·.logs) 25 := by
  cases action with
  | call request =>
    cases request with
    | login turn pack =>
      obtain ⟨_,rfl⟩ := login_call stepped
      simp [Action.strand,Request.logs]
    | room turn pack =>
      obtain ⟨idle,rfl⟩ := room_call stepped
      simp [Action.strand,Request.logs,Discipline.cost,discipline,idle,RoomTask.needs,RoomTask.left,Action.paid,Action.calls]
  | login =>
    obtain ⟨lobby,after,rfl,_⟩ := login_step stepped
    simp [Action.strand]
  | room =>
    obtain ⟨⟨lobby,then_,out⟩,taken,rfl⟩ := Option.map_eq_some_iff.mp stepped
    have mine : Action.room.strand = .room := rfl
    rw [if_pos mine]
    exact Nat.le_trans (room_price sound.objects taken) (Nat.le_add_right _ _)

end Locking

theorem paid_calls (actions : List Action) (own : Request → Bool) (moves : Nat) :
    (actions.map (Action.paid own moves)).sum = moves * (actions.flatMap Action.calls).countP own := by
  unfold Action.paid
  rw [List.sum_map_mul_left,List.countP_flatMap]
  rfl

-- The strands as the server starts them, with no lock held.
def openedGuarded (heap : Heap) : Guarded State Strand Mutex := ⟨opened heap,fun _ => .nothing⟩

theorem openedGuarded_sound (library : JsonLibrary) (heap : Heap) : (discipline library).Sound Sound (openedGuarded heap) :=
  ⟨opened_sound heap,nofun,nofun⟩

-- Under the locks the strands do nothing they would not do without, and never hold
-- what excludes the other. Who holds a lock can go on, so who cannot waits for one
-- that can, and a request is through after so many moves of its own strand.
theorem strands_advance (library : JsonLibrary) (heap : Heap) (moves : List (Move Action Strand)) (s : Guarded State Strand Mutex)
    (path : Machine.run (discipline library).move (openedGuarded heap) moves = some s) :
    let accesses := moves.filterMap Move.access
    Machine.run (step library) (opened heap) accesses = some s.base ∧ Apart s.hold ∧
      (∀ strand, s.hold strand ≠ .nothing → (discipline library).Moves s strand) ∧
      (∀ action next, step library s.base action = some next → (discipline library).Moves s action.strand ∨
        ∃ mutex mode other, (discipline library).needs s.base action.strand = some (mutex,mode) ∧ other ≠ action.strand ∧
          (s.hold other).Blocks mutex mode ∧ (discipline library).Moves s other) ∧
      moves.countP (fun move => (discipline library).of move = .login) ≤ 6 * (accesses.flatMap Action.calls).countP Request.logs ∧
      moves.countP (fun move => (discipline library).of move = .room) ≤ 25 * (accesses.flatMap Action.calls).countP (!·.logs) := by
  have sound := Discipline.run_sound (orderly library) (openedGuarded_sound library heap) path
  refine ⟨Discipline.run_accesses path,sound.apart,?_,?_,?_,?_⟩
  · exact fun strand holds => Discipline.holder_moves (orderly library) sound holds
  · exact fun action next stepped => Discipline.advances (orderly library) sound stepped
  · have cost : _ ≤ 0 + _ := Discipline.run_cost (orderly library) (fun _ _ _ _ stepped => login_pays stepped)
      (fun _ _ needs => login_owes needs) (openedGuarded_sound library heap) rfl path
    rwa [paid_calls,Nat.zero_add] at cost
  · have cost : _ ≤ 0 + _ := Discipline.run_cost (orderly library) (fun _ _ _ sound stepped => room_pays sound stepped)
      (fun _ _ needs => room_owes needs) (openedGuarded_sound library heap) rfl path
    rwa [paid_calls,Nat.zero_add] at cost

def contended : List (Move Action Strand) :=
  [.act (.call (.login blank (ClientSession.pack 1 Server.loginMsg))),.lock .login,
    .act (.call (.room blank { ClientSession.pack 1 Server.roomMsg with senderId := 124 })),.act .room,
    .act .login,.unlock .login,.lock .room,.act .room,.act .login,.unlock .room,.act .room,.lock .room,.act .room,.unlock .room,
    .act .login,.lock .room,.act .room,.unlock .room,.lock .room,.act .room,.act .room,.act .room,.unlock .room]
where blank := Server.blankTurn

theorem contended_advances : ∃ s, Machine.run (discipline Json.compact).move (openedGuarded Lobby.noInfos) contended = some s ∧
    Machine.run (step Json.compact) (opened Lobby.noInfos) (contended.filterMap Move.access) = some s.base ∧
      contended.countP (fun move => (discipline Json.compact).of move = .room) ≤
        25 * ((contended.filterMap Move.access).flatMap Action.calls).countP (!·.logs) := by
  have seen : (Machine.run (discipline Json.compact).move (openedGuarded Lobby.noInfos) contended).isSome = true := by
    decide +kernel
  obtain ⟨s,path⟩ := Option.isSome_iff_exists.mp seen
  have law := strands_advance Json.compact Lobby.noInfos contended s path
  exact ⟨s,path,law.1,law.2.2.2.2.2⟩

-- The room strand has to wait for it.
example : (Machine.run (discipline Json.compact).move (openedGuarded Lobby.noInfos)
    (contended.take 4 ++ [.lock .room])).isNone = true := by decide +kernel

end GameServer.Handlers
