import GameServer.StrandsApart

namespace GameServer.Handlers
open Foundation JSONTranslator RequestPayload

section Settling
variable {library : JsonLibrary} {s next : State} {action : Action} {actions : List Action}

-- A request that waits has not looked at the players' infos.
theorem waiting_blind (library : JsonLibrary) {task : RoomTask} (w : Lobby) (waits : task.waiting ≠ none) (heap : Heap) :
    roomStep library { w with heap := heap } task =
      (roomStep library w task).map fun out => ({ out.1 with heap := heap },out.2) := by
  have codes : ∀ code, Lobby.roomCodeToId { w with heap := heap } code = w.roomCodeToId code := fun _ => rfl
  have rooms : ∀ roomId, Lobby.getRoom { w with heap := heap } roomId = w.getRoom roomId := fun _ => rfl
  have players : ∀ id, Lobby.getPlayer { w with heap := heap } id = w.getPlayer id := fun _ => rfl
  cases task with
  | called turn pack =>
    unfold roomStep
    dsimp only
    rw [codes,codes]
    split
    · rfl
    split
    · rfl
    · split
      · cases w.roomCodeToId (sought turn pack) <;> rfl
      · split
        · cases w.roomCodeToId readLeave.first <;> rfl
        · rfl
  | owning turn pack newRoom =>
    unfold roomStep
    dsimp only
    rw [players]
    split
    · rfl
    · cases w.getPlayer newRoom.info.ownerId <;> rfl
  | finding turn pack roomId =>
    unfold roomStep
    dsimp only
    rw [rooms]
    cases w.getRoom roomId <;> rfl
  | meeting turn pack roomId =>
    unfold roomStep
    dsimp only
    rw [players]
    split
    · rfl
    · cases w.getPlayer pack.senderId <;> rfl
  | leaving turn pack roomId =>
    unfold roomStep Lobby.leaveRoom Lobby.withRoom
    dsimp only
    rw [rooms]
    cases w.getRoom roomId <;> rfl
  | _ => exact absurd rfl waits

theorem waiting_heap {w after : Lobby} {task then_ : RoomTask} {out : List Answer} (waits : task.waiting ≠ none)
    (stepped : roomStep library w task = some (after,then_,out)) : after.heap = w.heap := by
  have same := waiting_blind library w waits w.heap
  have self : roomStep library { w with heap := w.heap } task = roomStep library w task := rfl
  rw [self,stepped] at same
  have named := (Prod.mk.inj (Option.some.inj same)).1
  exact (congrArg Lobby.heap named).trans rfl

theorem room_settles (sound : Sound s) (stepped : step library s .room = some next) :
    settle library next = (commits library s .room).toList.foldl (serve library) (settle library s) := by
  obtain ⟨⟨after,then_,out⟩,taken,rfl⟩ := Option.map_eq_some_iff.mp stepped
  have outside := writes_outside s.login
  have seen : commits library s .room = passes s.room.waiting then_.waiting := by
    unfold commits
    dsimp only
    rw [taken]
    rfl
  rw [seen]
  unfold settle
  dsimp only
  by_cases waits : s.room.waiting = none
  · obtain ⟨objects,held⟩ := roomStep_sound sound.objects sound.room taken
    have kept := roomStep_finishes s.answers waits taken
    rw [waits,passes_none,Option.toList_none,List.foldl_nil]
    refine (finish_outside outside objects held _).trans ?_
    rw [kept]
    exact (finish_outside outside sound.objects sound.room s.answers).symm
  · have blind := waiting_blind library s.lobby waits (s.login.writes s.lobby.heap)
    rw [taken] at blind
    rw [waiting_heap waits taken]
    have held : s.room.Sound { s.lobby with heap := s.login.writes s.lobby.heap } := by
      refine sound_later ?_ ?_ sound.room
      · rfl
      · exact Nat.le_refl _
    exact roomStep_serves s.answers held blind

theorem login_settles (sound : Sound s) (stepped : step library s .login = some next) :
    settle library next = (commits library s .login).toList.foldl (serve library) (settle library s) := by
  obtain ⟨⟨after,then_⟩,taken,rfl⟩ := Option.map_eq_some_iff.mp stepped
  have seen : commits library s .login = passes s.login.waiting then_.waiting := by
    unfold commits
    dsimp only
    rw [taken]
    rfl
  rw [seen]
  unfold settle
  dsimp only
  cases stands : s.login with
  | idle =>
    rw [stands] at taken
    cases taken
  | called turn pack =>
    rw [stands] at taken
    -- The login has written nothing yet, and no user of it is known.
    have served : serve library (s.room.finish library (s.lobby,s.answers)) (.login turn pack) = _ := login_serves
    unfold loginStep at taken
    dsimp only at taken
    split at taken
    · rename_i logs
      rw [if_pos logs] at served
      have login : s.room.finish library (s.lobby.onUserLogin _,s.answers) = _ :=
        finish_outside (userLogin_outside (loginInfo turn pack)) sound.objects sound.room s.answers
      split at taken
      · rename_i refused
        cases taken
        unfold Lobby.onUserLogin at served
        rw [if_pos refused] at served
        exact served.symm
      · rename_i let_in
        cases taken
        refine Eq.trans (Eq.trans ?_ login) served.symm
        unfold Lobby.onUserLogin
        rw [if_neg let_in]
        rfl
    · rename_i other
      rw [if_neg other] at served
      cases taken
      exact served.symm
  | binding info player =>
    rw [stands] at taken
    cases taken
    rfl
  | marking player =>
    rw [stands] at taken
    cases taken
    rfl

theorem step_settles (sound : Sound s) (stepped : step library s action = some next) :
    settle library next = (commits library s action).toList.foldl (serve library) (settle library s) := by
  cases action with
  | call request =>
    cases request with
    | login turn pack =>
      unfold step at stepped
      dsimp only at stepped
      split at stepped
      · rename_i idle
        cases stepped
        unfold settle
        rw [idle]
        rfl
      · cases stepped
    | room turn pack =>
      unfold step at stepped
      dsimp only at stepped
      split at stepped
      · rename_i idle
        cases stepped
        unfold settle
        rw [idle]
        rfl
      · cases stepped
  | login => exact login_settles sound stepped
  | room => exact room_settles sound stepped

def Action.calls : Action → List Request
  | .call request => [request]
  | _ => []

theorem passes_keeps {before after : Option Request} (moves : after = none ∨ after = before) :
    (passes before after).toList ++ after.toList = before.toList := by
  unfold passes
  cases after with
  | none => exact List.append_nil _
  | some request => exact congrArg Option.toList (moves.resolve_left nofun)

theorem passes_own {before after : Option Request} {own : Request → Bool} (all : ∀ request ∈ before, own request = true) :
    (passes before after).toList.filter own = (passes before after).toList := by
  rw [List.filter_eq_self]
  unfold passes
  intro request member
  split at member
  · exact all request (Option.mem_toList.mp member)
  · cases member

theorem passes_foreign {before after : Option Request} {own : Request → Bool}
    (none_ : ∀ request ∈ before, own request = false) :
    (passes before after).toList.filter own = [] := by
  rw [List.filter_eq_nil_iff]
  unfold passes
  intro request member
  split at member
  · rw [none_ request (Option.mem_toList.mp member)]
    exact Bool.false_ne_true
  · cases member

theorem login_logs {task : LoginTask} : ∀ request ∈ task.waiting, request.logs = true := by
  intro request waits
  cases task <;> cases waits
  rfl

theorem room_logs {task : RoomTask} : ∀ request ∈ task.waiting, request.logs = false := by
  intro request waits
  cases task <;> cases waits <;> rfl

theorem login_goes (w : Lobby) {task : LoginTask} (busy : task ≠ .idle) :
    ∃ next after, loginStep w task = some (next,after) ∧ after.waiting = none := by
  cases task with
  | idle => exact absurd rfl busy
  | called turn pack =>
    unfold loginStep
    dsimp only
    split
    · split <;> exact ⟨_,_,rfl,rfl⟩
    · exact ⟨_,_,rfl,rfl⟩
  | _ => exact ⟨_,_,rfl,rfl⟩

theorem room_goes (library : JsonLibrary) (w : Lobby) {task : RoomTask} (busy : task ≠ .idle) :
    ∃ next after out, roomStep library w task = some (next,after,out) ∧
      (after.waiting = none ∨ after.waiting = task.waiting) := by
  cases task with
  | idle => exact absurd rfl busy
  | called turn pack =>
    unfold roomStep
    dsimp only
    split
    · exact ⟨_,_,_,rfl,.inl rfl⟩
    split
    · exact ⟨_,_,_,rfl,.inr rfl⟩
    · split
      · split
        · exact ⟨_,_,_,rfl,.inl rfl⟩
        · exact ⟨_,_,_,rfl,.inr rfl⟩
      · split
        · split
          · exact ⟨_,_,_,rfl,.inl rfl⟩
          · exact ⟨_,_,_,rfl,.inr rfl⟩
        · exact ⟨_,_,_,rfl,.inl rfl⟩
  | owning turn pack newRoom =>
    unfold roomStep
    dsimp only
    split
    · exact ⟨_,_,_,rfl,.inl rfl⟩
    · split <;> exact ⟨_,_,_,rfl,.inl rfl⟩
  | finding turn pack roomId =>
    unfold roomStep
    dsimp only
    split
    · exact ⟨_,_,_,rfl,.inl rfl⟩
    · exact ⟨_,_,_,rfl,.inr rfl⟩
  | meeting turn pack roomId =>
    unfold roomStep
    dsimp only
    split
    · exact ⟨_,_,_,rfl,.inl rfl⟩
    · split <;> exact ⟨_,_,_,rfl,.inl rfl⟩
  | entering turn pack newRoom => exact ⟨_,_,_,rfl,.inl rfl⟩
  | fetching turn pack roomId =>
    unfold roomStep
    dsimp only
    split
    · exact ⟨_,_,_,rfl,.inl replied_waiting⟩
    · exact ⟨_,_,_,rfl,.inl rfl⟩
  | reading turn pack room infos rest =>
    cases rest with
    | nil => exact ⟨_,_,_,rfl,.inl replied_waiting⟩
    | cons player rest => exact ⟨_,_,_,rfl,.inl rfl⟩
  | telling => exact ⟨_,_,_,rfl,.inl rfl⟩
  | _ =>
    unfold roomStep
    dsimp only
    split <;> exact ⟨_,_,_,rfl,.inl rfl⟩

theorem login_step (stepped : step library s .login = some next) : ∃ lobby after,
    next = { s with lobby := lobby, login := after } ∧ after.waiting = none ∧
      commits library s .login = passes s.login.waiting after.waiting := by
  obtain ⟨⟨lobby,after⟩,taken,rfl⟩ := Option.map_eq_some_iff.mp stepped
  have busy : s.login ≠ .idle := by
    intro idle
    rw [idle] at taken
    cases taken
  obtain ⟨_,_,same,gone⟩ := login_goes s.lobby busy
  cases same.symm.trans taken
  refine ⟨lobby,after,rfl,gone,?_⟩
  unfold commits
  dsimp only
  rw [taken]
  rfl

theorem room_step (stepped : step library s .room = some next) : ∃ lobby after out,
    next = { s with lobby := lobby, room := after, answers := s.answers ++ out } ∧
      (after.waiting = none ∨ after.waiting = s.room.waiting) ∧
      commits library s .room = passes s.room.waiting after.waiting := by
  obtain ⟨⟨lobby,after,out⟩,taken,rfl⟩ := Option.map_eq_some_iff.mp stepped
  have busy : s.room ≠ .idle := by
    intro idle
    rw [idle] at taken
    cases taken
  obtain ⟨_,_,_,same,moves⟩ := room_goes library s.lobby busy
  cases same.symm.trans taken
  refine ⟨lobby,after,out,rfl,moves,?_⟩
  unfold commits
  dsimp only
  rw [taken]
  rfl

theorem login_call {turn : Turn} {pack : MsgPack} (stepped : step library s (.call (.login turn pack)) = some next) :
    s.login = .idle ∧ next = { s with login := .called turn pack } := by
  unfold step at stepped
  dsimp only at stepped
  split at stepped
  · rename_i idle
    cases stepped
    exact ⟨idle,rfl⟩
  · cases stepped

theorem room_call {turn : Turn} {pack : MsgPack} (stepped : step library s (.call (.room turn pack)) = some next) :
    s.room = .idle ∧ next = { s with room := .called turn pack } := by
  unfold step at stepped
  dsimp only at stepped
  split at stepped
  · rename_i idle
    cases stepped
    exact ⟨idle,rfl⟩
  · cases stepped

theorem logins_wait (stepped : step library s action = some next) :
    (commits library s action).toList.filter Request.logs ++ next.login.waiting.toList =
      s.login.waiting.toList ++ action.calls.filter Request.logs := by
  cases action with
  | call request =>
    cases request with
    | login turn pack =>
      obtain ⟨idle,rfl⟩ := login_call stepped
      rw [idle]
      rfl
    | room turn pack =>
      obtain ⟨_,rfl⟩ := room_call stepped
      exact (List.append_nil _).symm
  | login =>
    obtain ⟨lobby,after,rfl,gone,seen⟩ := login_step stepped
    rw [seen,passes_own login_logs,passes_keeps (.inl gone)]
    exact (List.append_nil _).symm
  | room =>
    obtain ⟨lobby,after,out,rfl,_,seen⟩ := room_step stepped
    rw [seen,passes_foreign room_logs]
    exact (List.append_nil _).symm

theorem rooms_wait (stepped : step library s action = some next) :
    (commits library s action).toList.filter (!·.logs) ++ next.room.waiting.toList =
      s.room.waiting.toList ++ action.calls.filter (!·.logs) := by
  cases action with
  | call request =>
    cases request with
    | login turn pack =>
      obtain ⟨_,rfl⟩ := login_call stepped
      exact (List.append_nil _).symm
    | room turn pack =>
      obtain ⟨idle,rfl⟩ := room_call stepped
      rw [idle]
      rfl
  | login =>
    obtain ⟨lobby,after,rfl,_,seen⟩ := login_step stepped
    rw [seen,passes_foreign fun request waits => by rw [login_logs request waits]; rfl]
    exact (List.append_nil _).symm
  | room =>
    obtain ⟨lobby,after,out,rfl,moves,seen⟩ := room_step stepped
    rw [seen,passes_own fun request waits => by rw [room_logs request waits]; rfl,passes_keeps moves]
    exact (List.append_nil _).symm

end Settling

def opened (heap : Heap) : State := { lobby := (Server.start heap).lobby }

section Runs
variable {library : JsonLibrary} {heap : Heap} {s : State} {actions : List Action}

theorem opened_sound (heap : Heap) : Sound (opened heap) := ⟨⟨nofun,nofun,nofun⟩,trivial⟩

theorem sound_kept (library : JsonLibrary) : ∀ s action next, Sound s → step library s action = some next → Sound next :=
  fun _ _ _ sound stepped => step_sound sound stepped

theorem run_settled (path : Machine.run (step library) (opened heap) actions = some s) : settle library s =
    (Machine.order (step library) (commits library) (opened heap) actions).foldl (serve library) ((Server.start heap).lobby,[]) :=
  Machine.run_settles (sound_kept library) (fun _ _ _ sound stepped => step_settles sound stepped) (opened_sound heap) path

def Request.asks : Request → Foyer.Request
  | .login turn pack => Server.entered turn pack
  | .room turn pack => Server.asked turn pack

theorem serve_foyer (library : JsonLibrary) {t : Lobby × List Answer} (open_ : t.1.Open) (request : Request) :
    (serve library t request).1.Open ∧ (serve library t request).1.foyer = t.1.foyer.serve request.asks := by
  cases request with
  | login turn pack => exact Server.handleLogin_foyer open_
  | room turn pack => exact Server.handleRoom_foyer open_

theorem served_foyer {t : Lobby × List Answer} (open_ : t.1.Open) (requests : List Request) :
    (requests.foldl (serve library) t).1.foyer = t.1.foyer.serveAll (requests.map Request.asks) := by
  induction requests generalizing t with
  | nil => rfl
  | cons request rest ih =>
    obtain ⟨after,served⟩ := serve_foyer library open_ request
    rw [List.foldl_cons,ih after,served]
    rfl

end Runs

-- Whatever the strands do at the same time, it is what they would do one request
-- after the other: in the order in which each has got its requests, and a request
-- that was answered before another came before it.
theorem strands_linearize (library : JsonLibrary) (heap : Heap) (actions : List Action) (s : State)
    (path : Machine.run (step library) (opened heap) actions = some s) :
    let order := Machine.order (step library) (commits library) (opened heap)
    (order actions).filter Request.logs ++ s.login.waiting.toList = (actions.flatMap Action.calls).filter Request.logs ∧
      (order actions).filter (!·.logs) ++ s.room.waiting.toList = (actions.flatMap Action.calls).filter (!·.logs) ∧
      (∀ earlier, earlier <+: actions → order earlier <+: order actions) ∧
      (s.login = .idle → s.room = .idle →
        (s.lobby,s.answers) = (order actions).foldl (serve library) ((Server.start heap).lobby,[])) := by
  refine ⟨?_,?_,?_,?_⟩
  · refine Machine.order_waits (fun s : State => s.login.waiting.toList) (sound_kept library) ?_ (opened_sound heap) path
    exact fun s action next _ stepped => logins_wait stepped
  · refine Machine.order_waits (fun s : State => s.room.waiting.toList) (sound_kept library) ?_ (opened_sound heap) path
    exact fun s action next _ stepped => rooms_wait stepped
  · exact fun earlier first => Machine.order_prefix path first
  · intro login room
    have settled := run_settled path
    unfold settle at settled
    rw [login,room] at settled
    exact settled

def State.resting (s : State) : Bool := match s.login,s.room with
  | .idle,.idle => true
  | _,_ => false

theorem resting_idle {s : State} (rests : s.resting = true) : s.login = .idle ∧ s.room = .idle := by
  unfold State.resting at rests
  split at rests
  · exact ⟨‹_›,‹_›⟩
  · cases rests

def overlap : List Action :=
  [.call (.login blank (ClientSession.pack 1 Server.loginMsg)),.login,
    .call (.room blank { ClientSession.pack 1 Server.roomMsg with senderId := 124 }),.room,.room,.login,.room,.room,.login,
    .room,.room,.room,.room]
where blank := Server.blankTurn

theorem overlap_linearizes : ∃ s, Machine.run (step Json.compact) (opened Lobby.noInfos) overlap = some s ∧
    (s.lobby,s.answers) = (Machine.order (step Json.compact) (commits Json.compact) (opened Lobby.noInfos) overlap).foldl
      (serve Json.compact) ((Server.start Lobby.noInfos).lobby,[]) := by
  have seen : (Machine.run (step Json.compact) (opened Lobby.noInfos) overlap).map State.resting = some true := by decide +kernel
  obtain ⟨s,path,rests⟩ := Option.map_eq_some_iff.mp seen
  obtain ⟨login,room⟩ := resting_idle rests
  exact ⟨s,path,(strands_linearize Json.compact Lobby.noInfos overlap s path).2.2.2 login room⟩

-- What the strands make of the rooms at the same time is what the tables make of
-- the requests one by one.
theorem strands_are_foyer (library : JsonLibrary) (heap : Heap) (actions : List Action) (s : State)
    (path : Machine.run (step library) (opened heap) actions = some s) (login : s.login = .idle) (room : s.room = .idle) :
    s.lobby.foyer = Foyer.serveAll {}
      ((Machine.order (step library) (commits library) (opened heap) actions).map Request.asks) := by
  have settled := run_settled path
  unfold settle at settled
  rw [login,room] at settled
  have lobby : s.lobby = _ := congrArg Prod.fst settled
  rw [lobby,served_foyer (Lobby.opened_open heap)]
  rfl

theorem overlap_is_foyer : ∃ s, Machine.run (step Json.compact) (opened Lobby.noInfos) overlap = some s ∧
    s.lobby.foyer = Foyer.serveAll {}
      ((Machine.order (step Json.compact) (commits Json.compact) (opened Lobby.noInfos) overlap).map Request.asks) := by
  have seen : (Machine.run (step Json.compact) (opened Lobby.noInfos) overlap).map State.resting = some true := by decide +kernel
  obtain ⟨s,path,rests⟩ := Option.map_eq_some_iff.mp seen
  obtain ⟨login,room⟩ := resting_idle rests
  exact ⟨s,path,strands_are_foyer Json.compact Lobby.noInfos overlap s path login room⟩

end GameServer.Handlers
