import GameServer.ServerRuns

namespace GameServer.Server
open Foundation RequestPayload

-- The network's events, and the calls of the room manager that no handler makes.
inductive Act where
  | network (event : Event)
  | manage (event : Lobby.Event)

def act (library : JsonLibrary) (s : Server) : Act → Option Server
  | .network event => step library s event
  | .manage event =>
    if s.ended || !event.managed then none else (s.lobby.step event).map fun lobby => { s with lobby }

def Act.taken (s : Server) : Act → Option (Server × Turn × MsgPack)
  | .network event => s.taken event
  | .manage _ => none

def Upheld (law : Server → Turn → MsgPack → Prop) (s : Server) (move : Act) (_ : Server) : Prop :=
  ∀ at_ turn pack, move.taken s = some (at_,turn,pack) → law at_ turn pack

-- What the managers may become: nothing else, or what one of their own events makes of them.
inductive Follows (w : Lobby) : Lobby → Prop where
  | same : Follows w w
  | stepped (event : Lobby.Event) {next : Lobby} (managed : event.managed = true) (taken : w.step event = some next) :
      Follows w next

section Acting
variable {library : JsonLibrary} {s next : Server} {turn : Turn} {pack : MsgPack}

theorem replyToUser_lobby (s : Server) (pack : MsgPack) (msg : EncodeMessage) :
    (s.replyToUser pack msg).server.lobby = s.lobby := by
  obtain ⟨n,sent⟩ := sendMessageToUser_server s pack.senderId msg
  have kept := congrArg lobby sent
  exact kept

theorem replyToSession_lobby (s : Server) (pack : MsgPack) (msg : EncodeMessage) :
    (s.replyToSession pack msg).server.lobby = s.lobby := by
  obtain ⟨n,sent⟩ := sendMessageToSession_server s pack.senderSessionId msg
  have kept := congrArg lobby sent
  exact kept

theorem roomBroadCast_lobby (s : Server) (roomId : RoomId) (msg : EncodeMessage) :
    (s.roomBroadCast roomId msg).server.lobby = s.lobby := by
  obtain ⟨⟨n,sent⟩,-⟩ := roomBroadCast_server s roomId msg
  have kept := congrArg lobby sent
  exact kept

theorem create_follows : Follows s.lobby (s.handleRoomCreateRequest library turn pack).server.lobby := by
  have created : Follows s.lobby (s.lobby.createRoom (requestedRoom (readPair turn.past pack.msg.payload) pack.senderId)
      turn.dist).lobby := .stepped (.createRoom _ turn.dist) rfl rfl
  unfold handleRoomCreateRequest
  split
  · exact .same
  dsimp only
  split
  · exact created
  · rw [replyToUser_lobby]
    exact created

theorem joined_follows {roomId : RoomId} {playerId : UserId} {result : Except Thrown RoomReqResult} {lobby : Lobby}
    (joined : s.lobby.joinRoom roomId playerId = some (result,lobby)) : Follows s.lobby lobby := by
  refine .stepped (.joinRoom roomId playerId) rfl ?_
  rw [Lobby.step,joined]
  rfl

theorem join_follows : Follows s.lobby (s.handleRoomJoinRequest library turn pack).server.lobby := by
  unfold handleRoomJoinRequest
  split
  · exact .same
  dsimp only
  split
  · rw [replyToUser_lobby]
    exact .same
  · split
    · rename_i joined
      split
      · exact joined_follows joined
      · rw [roomBroadCast_lobby,replyToUser_lobby]
        exact joined_follows joined
    · rename_i joined
      rw [replyToUser_lobby]
      exact joined_follows joined
    · exact .same

theorem leave_follows : Follows s.lobby (s.handleRoomLeaveRequest turn pack).server.lobby := by
  unfold handleRoomLeaveRequest
  split
  · exact .same
  split
  · exact .same
  · rename_i roomId _
    split
    · rename_i result lobby left
      rw [replyToUser_lobby]
      refine .stepped (.leaveRoom roomId pack.senderId) rfl ?_
      rw [Lobby.step,left]
      rfl
    · exact .same

theorem list_follows : Follows s.lobby (s.handleRoomListRequest library turn pack).server.lobby := by
  unfold handleRoomListRequest
  split
  · exact .same
  · rw [replyToSession_lobby]
    exact .same

variable (s turn pack) in
theorem handleRoom_follows : Follows s.lobby (s.handleRoom library turn pack).server.lobby := by
  unfold handleRoom
  split
  · exact create_follows
  · split
    · exact join_follows
    · split
      · exact leave_follows
      · exact list_follows

variable (s turn pack) in
theorem handleLogin_follows : Follows s.lobby (s.handleLogin turn pack).server.lobby := by
  unfold handleLogin
  split
  · unfold handleLoginRequest
    split
    · exact .same
    dsimp only
    rw [replyToSession_lobby]
    exact .stepped (.userLogin _) rfl rfl
  · exact .same

theorem step_follows {event : Event} (stepped : step library s event = some next) : Follows s.lobby next.lobby := by
  cases step_stepped stepped with
  | connect connected => cases connected <;> exact .same
  | close => exact .same
  | receive present heard =>
    cases heard with
    | answered =>
      obtain ⟨n,sent⟩ := sendMessageToSession_server s _ _
      rw [sent]
      exact .same
    | login => exact .same
    | room known => exact .same
    | unknown => exact .same
  | @runLogin turn pack rest first => exact handleLogin_follows { s with loginStrand := rest } turn pack
  | @runRoom turn pack rest first => exact handleRoom_follows { s with roomStrand := rest } turn pack

theorem act_follows {move : Act} (acted : act library s move = some next) : Follows s.lobby next.lobby := by
  cases move with
  | network event => exact step_follows acted
  | manage event =>
    unfold act at acted
    dsimp only at acted
    split at acted
    · cases acted
    · rename_i open_
      obtain ⟨lobby,taken,rfl⟩ := Option.map_eq_some_iff.mp acted
      simp only [Bool.or_eq_true,Bool.not_eq_true',not_or,Bool.not_eq_false] at open_
      exact .stepped event open_.2 taken

theorem act_keeps {kept : Lobby → Prop}
    (step : ∀ w event after, kept w → event.managed = true → w.step event = some after → kept after)
    {move : Act} (held : kept s.lobby) (acted : act library s move = some next) : kept next.lobby := by
  have follows := act_follows acted
  generalize next.lobby = after at follows
  cases follows with
  | same => exact held
  | stepped event managed taken => exact step _ _ _ held managed taken

theorem acts_keep {kept : Lobby → Prop}
    (step : ∀ w event after, kept w → event.managed = true → w.step event = some after → kept after)
    {moves : List Act} (start : kept s.lobby) (path : Machine.run (act library) s moves = some next) : kept next.lobby := by
  have each : ∀ s move next, kept s.lobby → act library s move = some next → kept next.lobby :=
    fun _ _ _ held acted => act_keeps step held acted
  exact Machine.run_preserves each start path

theorem taken_lobby {move : Act} {at_ : Server} (took : move.taken s = some (at_,turn,pack)) : at_.lobby = s.lobby := by
  cases move with
  | manage event => cases took
  | network event =>
    cases event with
    | runRoom run =>
      unfold Act.taken taken at took
      dsimp only at took
      split at took
      · cases took
      · cases took
        rfl
    | _ => cases took

theorem every_upheld {kept : Lobby → Prop} {law guard : Server → Turn → MsgPack → Prop}
    (step : ∀ w event after, kept w → event.managed = true → w.step event = some after → kept after)
    (agree : ∀ s turn pack, kept s.lobby → (law s turn pack ↔ guard s turn pack))
    {moves : List Act} (start : kept s.lobby) :
    Machine.Every (act library) (Upheld law) s moves ↔ Machine.Every (act library) (Upheld guard) s moves := by
  have each : ∀ s move next, kept s.lobby → act library s move = some next → Upheld law s move next → kept next.lobby :=
    fun _ _ _ held acted _ => act_keeps step held acted
  refine Machine.every_congr each ?_ start
  intro s move next held _
  have alike (at_ : Server) (turn : Turn) (pack : MsgPack) (took : move.taken s = some (at_,turn,pack)) :
      law at_ turn pack ↔ guard at_ turn pack := agree at_ turn pack (taken_lobby took ▸ held)
  refine ⟨?_,?_⟩
  · exact fun holds at_ turn pack took => (alike at_ turn pack took).mp (holds at_ turn pack took)
  · exact fun holds at_ turn pack took => (alike at_ turn pack took).mpr (holds at_ turn pack took)

theorem upheld_seen {α : Type*} {law : Server → Turn → MsgPack → Prop} {view : Server × Turn × MsgPack → α} {facts : α}
    {earlier : List Act} {move : Act} (every : Machine.Every (act library) (Upheld law) s (earlier ++ [move]))
    (seen : ((Machine.run (act library) s earlier).bind fun reached => (act library reached move).bind fun _ =>
      (Act.taken reached move).map view) = some facts) :
    ∃ at_ turn pack, law at_ turn pack ∧ view (at_,turn,pack) = facts := by
  obtain ⟨reached,path,looked⟩ := Option.bind_eq_some_iff.mp seen
  obtain ⟨next,stepped,looked⟩ := Option.bind_eq_some_iff.mp looked
  obtain ⟨⟨at_,turn,pack⟩,took,shown⟩ := Option.map_eq_some_iff.mp looked
  exact ⟨at_,turn,pack,Machine.every_iff.mp every earlier move [] reached next rfl path stepped at_ turn pack took,shown⟩

end Acting
end GameServer.Server
