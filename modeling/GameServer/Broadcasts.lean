import GameServer.Pushes
import GameServer.RoomPasswords

namespace GameServer.Server
open Foundation MTcpCodec

def gateway (s : Server) (pushes : List Push) : Gateway := ⟨s.users,s.sessions,s.nextMsgId,pushes⟩

-- Seen from the gateway, one state becomes another by a run with so many pushes at most.
def Flies (most : Nat) (s next : Server) : Prop := ∀ before, ∃ moves more, more.length ≤ most ∧
  Machine.run Gateway.step (s.gateway before) moves = some (next.gateway (before ++ more))

def stamped (nextMsgId : MsgId) (msg : EncodeMessage) : EncodeMessage :=
  if msg.msgId = 0 then { msg with msgId := nextMsgId } else msg

section Flying
variable {s next last : Server} {most others : Nat}

theorem flies_kept (users : next.users = s.users) (sessions : next.sessions = s.sessions)
    (counter : next.nextMsgId = s.nextMsgId) : Flies most s next := by
  intro before
  refine ⟨[],[],Nat.zero_le _,?_⟩
  rw [List.append_nil,gateway,gateway,users,sessions,counter]
  rfl

theorem flies_trans (first : Flies most s next) (second : Flies others next last) : Flies (most + others) s last := by
  intro before
  obtain ⟨moves,more,few,path⟩ := first before
  obtain ⟨rest,further,short,later⟩ := second (before ++ more)
  refine ⟨moves ++ rest,more ++ further,?_,?_⟩
  · rw [List.length_append]
    exact Nat.add_le_add few short
  · rw [Machine.run_append,path,← List.append_assoc]
    exact later

theorem flies_more (flies : Flies most s next) (less : most ≤ others) : Flies others s next := by
  intro before
  obtain ⟨moves,more,few,path⟩ := flies before
  exact ⟨moves,more,Nat.le_trans few less,path⟩

theorem goesOn_last (s : Server) (before : List Push) (push : Push) :
    Gateway.step (s.gateway (before ++ [push])) (.goesOn before.length) =
      ((s.gateway []).advance push).map fun after =>
        { s with nextMsgId := after.1 }.gateway (before ++ [after.2]) := by
  have stands : (before ++ [push])[before.length]? = some push := by simp
  have changed (other : Push) : (before ++ [push]).set before.length other = before ++ [other] := by simp
  simp only [Gateway.step,gateway,stands,Option.bind_some,changed]
  rfl

def Travels (s next : Server) (push after : Push) : Prop := ∀ before, ∃ n,
  Machine.run Gateway.step (s.gateway (before ++ [push])) (List.replicate n (.goesOn before.length)) =
    some (next.gateway (before ++ [after]))

theorem travels_refl (s : Server) (push : Push) : Travels s s push push := fun _ => ⟨0,rfl⟩

theorem travels_trans {push after final : Push} (first : Travels s next push after) (second : Travels next last after final) :
    Travels s last push final := by
  intro before
  obtain ⟨n,path⟩ := first before
  obtain ⟨m,later⟩ := second before
  refine ⟨n + m,?_⟩
  rw [← List.replicate_append_replicate,Machine.run_append,path]
  exact later

theorem travels_step {push after : Push} {counter : MsgId} (advanced : (s.gateway []).advance push = some (counter,after)) :
    Travels s { s with nextMsgId := counter } push after := by
  intro before
  refine ⟨1,?_⟩
  rw [List.replicate_one,Machine.run_cons,goesOn_last,advanced]
  rfl

theorem sendMessage_stamped (session : ClientSession) (nextMsgId : MsgId) (msg : EncodeMessage) :
    session.sendMessage nextMsgId msg = ⟨(Gateway.written session (stamped nextMsgId msg)).isSome,stamped nextMsgId msg,
      if msg.msgId = 0 then nextMsgId + 1 else nextMsgId,Gateway.written session (stamped nextMsgId msg)⟩ := by
  unfold ClientSession.sendMessage Gateway.written stamped
  dsimp only
  cases accepted : (encodeSync (if msg.msgId = 0 then { msg with msgId := nextMsgId } else msg)).success <;> rfl

theorem held_advances (g : Gateway) (msg : EncodeMessage) (target : Target) (rest : List Target) (id : SessionId)
    (session : ClientSession) (copies : List Delivery) : g.advance ⟨msg,target :: rest,.held id session,copies⟩ =
      some (if msg.msgId = 0 then g.nextMsgId + 1 else g.nextMsgId,
        ⟨stamped g.nextMsgId msg,target :: rest,.numbered id session,copies⟩) := by
  unfold Gateway.advance stamped
  dsimp only
  split <;> rfl

theorem session_travels (s : Server) (id : SessionId) (msg : EncodeMessage) (target : Target) (rest : List Target)
    (copies : List Delivery) : Travels s (s.sendMessageToSession id msg).server ⟨msg,target :: rest,.routed id,copies⟩
      ⟨(s.sendMessageToSession id msg).msg,rest,.asked,copies ++ (s.sendMessageToSession id msg).deliveries⟩ := by
  unfold sendMessageToSession
  cases found : s.sessions.lookup id with
  | none =>
    have gone : (s.gateway []).advance ⟨msg,target :: rest,.routed id,copies⟩ = some (s.nextMsgId,⟨msg,rest,.asked,copies⟩) := by
      simp only [Gateway.advance,gateway,found]
    rw [List.append_nil]
    exact travels_step gone
  | some session =>
    have holds : (s.gateway []).advance ⟨msg,target :: rest,.routed id,copies⟩ =
        some (s.nextMsgId,⟨msg,target :: rest,.held id session,copies⟩) := by
      simp only [Gateway.advance,gateway,found]
    have looks := held_advances (s.gateway []) msg target rest id session copies
    have writes (counter : MsgId) : ({ s with nextMsgId := counter }.gateway []).advance
        ⟨stamped s.nextMsgId msg,target :: rest,.numbered id session,copies⟩ =
          some (counter,⟨stamped s.nextMsgId msg,rest,.asked,copies ++ ((Gateway.written session (stamped s.nextMsgId msg)).map
            fun bytes => (⟨id,stamped s.nextMsgId msg,bytes⟩ : Delivery)).toList⟩) := rfl
    dsimp only
    rw [sendMessage_stamped]
    exact travels_trans (travels_step holds) (travels_trans (travels_step looks) (travels_step (writes _)))

theorem user_travels (s : Server) (id : UserId) (msg : EncodeMessage) (rest : List Target) (copies : List Delivery) :
    Travels s (s.sendMessageToUser id msg).server ⟨msg,.user id :: rest,.asked,copies⟩
      ⟨(s.sendMessageToUser id msg).msg,rest,.asked,copies ++ (s.sendMessageToUser id msg).deliveries⟩ := by
  unfold sendMessageToUser
  cases target : s.users.sendTarget id with
  | none =>
    have gone : (s.gateway []).advance ⟨msg,.user id :: rest,.asked,copies⟩ = some (s.nextMsgId,⟨msg,rest,.asked,copies⟩) := by
      simp only [Gateway.advance,Gateway.route,gateway,target]
    rw [List.append_nil]
    exact travels_step gone
  | some sessionId =>
    have routes : (s.gateway []).advance ⟨msg,.user id :: rest,.asked,copies⟩ =
        some (s.nextMsgId,⟨msg,.user id :: rest,.routed sessionId,copies⟩) := by
      simp only [Gateway.advance,Gateway.route,gateway,target]
    exact travels_trans (travels_step routes) (session_travels s sessionId msg (.user id) rest copies)

theorem broadcast_travels (ids : List UserId) (s : Server) (msg : EncodeMessage) (copies : List Delivery) :
    Travels s (s.broadcast msg ids).server ⟨msg,ids.map .user,.asked,copies⟩
      ⟨(s.broadcast msg ids).msg,[],.asked,copies ++ (s.broadcast msg ids).deliveries⟩ := by
  induction ids generalizing s msg copies with
  | nil =>
    rw [broadcast,List.append_nil]
    exact travels_refl s _
  | cons id rest ih =>
    rw [broadcast,← List.append_assoc]
    exact travels_trans (user_travels s id msg (rest.map .user) copies) (ih _ _ _)

theorem travels_flies {msg : EncodeMessage} {targets : List Target} {after : Push} (fresh : msg.msgId = 0)
    (travels : Travels s next ⟨msg,targets,.asked,[]⟩ after) (before : List Push) : ∃ moves,
    Machine.run Gateway.step (s.gateway before) (.push msg targets :: moves) = some (next.gateway (before ++ [after])) := by
  obtain ⟨n,path⟩ := travels before
  refine ⟨List.replicate n (.goesOn before.length),?_⟩
  have made : Gateway.step (s.gateway before) (.push msg targets) = some (s.gateway (before ++ [⟨msg,targets,.asked,[]⟩])) :=
    if_pos fresh
  rw [Machine.run_cons,made]
  exact path

theorem sendMessageToSession_known {msg : EncodeMessage} (known : msg.msgId ≠ 0) (s : Server) (id : SessionId) :
    (s.sendMessageToSession id msg).server = s := by
  unfold sendMessageToSession
  split
  · rfl
  · rename_i session _
    dsimp only
    rw [sendMessage_stamped,if_neg known]

theorem sendMessageToSession_flies (s : Server) (id : SessionId) (msg : EncodeMessage) :
    Flies 1 s (s.sendMessageToSession id msg).server := by
  by_cases fresh : msg.msgId = 0
  · intro before
    have routes : (s.gateway []).advance ⟨msg,[.session id],.asked,[]⟩ =
        some (s.nextMsgId,⟨msg,[.session id],.routed id,[]⟩) := rfl
    obtain ⟨moves,path⟩ := travels_flies fresh
      (travels_trans (travels_step routes) (session_travels s id msg (.session id) [] [])) before
    exact ⟨_,[_],Nat.le_refl 1,path⟩
  · rw [sendMessageToSession_known fresh]
    exact flies_kept rfl rfl rfl

theorem sendMessageToUser_flies (s : Server) (id : UserId) (msg : EncodeMessage) :
    Flies 1 s (s.sendMessageToUser id msg).server := by
  unfold sendMessageToUser
  split
  · exact flies_kept rfl rfl rfl
  · exact sendMessageToSession_flies s _ msg

theorem roomBroadCast_flies (s : Server) (roomId : RoomId) {msg : EncodeMessage} (fresh : msg.msgId = 0) :
    Flies 1 s (s.roomBroadCast roomId msg).server := by
  unfold roomBroadCast
  split
  · exact flies_kept rfl rfl rfl
  · rename_i room _
    intro before
    obtain ⟨moves,path⟩ := travels_flies fresh (broadcast_travels room.memberIds s msg []) before
    exact ⟨_,[_],Nat.le_refl 1,path⟩

theorem connected_flies {s next : Server} (connected : Connected s next) : Flies most s next := by
  cases connected with
  | turned => exact flies_kept rfl rfl rfl
  | opened real =>
    intro before
    exact ⟨[.opens s.nextSessionId],[],Nat.zero_le _,by rw [List.append_nil]; rfl⟩

theorem closeSession_flies (s : Server) (id : SessionId) : Flies most s (s.closeSession id) := by
  intro before
  exact ⟨[.closes id],[],Nat.zero_le _,by rw [List.append_nil]; rfl⟩

theorem login_flies (s : Server) (info : UserLoginInfo) (lobby : Lobby) :
    Flies most s { s with users := s.users.onUserLogin info, lobby := lobby } := by
  intro before
  exact ⟨[.bindings (.userLogin info)],[],Nat.zero_le _,by rw [List.append_nil]; rfl⟩

theorem heard_flies {s next : Server} {pack : MsgPack} (heard : Heard s pack next) : Flies 1 s next := by
  cases heard with
  | answered => exact sendMessageToSession_flies s _ _
  | login => exact flies_kept rfl rfl rfl
  | room known => exact flies_kept rfl rfl rfl
  | unknown => exact flies_kept rfl rfl rfl

section Handlers
variable {library : JsonLibrary} {turn : Turn} {pack : MsgPack}

theorem handleLogin_flies (s : Server) : Flies 2 s (s.handleLogin turn pack).server := by
  unfold handleLogin
  split
  · unfold handleLoginRequest
    split
    · exact flies_kept rfl rfl rfl
    exact @flies_trans _ _ _ 1 1 (login_flies s _ _) (sendMessageToSession_flies _ _ _)
  · exact flies_kept rfl rfl rfl

theorem lobby_flies (s : Server) (lobby : Lobby) : Flies most s { s with lobby := lobby } := flies_kept rfl rfl rfl

theorem reply_flies (s : Server) (lobby : Lobby) (msg : EncodeMessage) :
    Flies 1 s ({ s with lobby := lobby }.replyToUser pack msg).server :=
  @flies_trans _ _ _ 0 1 (lobby_flies s lobby) (sendMessageToUser_flies _ _ _)

theorem handleRoomCreateRequest_flies (s : Server) : Flies 2 s (s.handleRoomCreateRequest library turn pack).server := by
  unfold handleRoomCreateRequest
  split
  · exact flies_kept rfl rfl rfl
  dsimp only
  split
  · exact lobby_flies s _
  · exact flies_more (reply_flies s _ _) (Nat.le_succ 1)

theorem handleRoomJoinRequest_flies (s : Server) : Flies 2 s (s.handleRoomJoinRequest library turn pack).server := by
  unfold handleRoomJoinRequest
  split
  · exact flies_kept rfl rfl rfl
  dsimp only
  split
  · exact flies_more (sendMessageToUser_flies s _ _) (Nat.le_succ 1)
  · split
    · split
      · exact lobby_flies s _
      · exact flies_trans (reply_flies s _ _) (roomBroadCast_flies _ _ rfl)
    · exact flies_more (reply_flies s _ _) (Nat.le_succ 1)
    · exact flies_kept rfl rfl rfl

theorem handleRoomLeaveRequest_flies (s : Server) : Flies 2 s (s.handleRoomLeaveRequest turn pack).server := by
  unfold handleRoomLeaveRequest
  split
  · exact flies_kept rfl rfl rfl
  split
  · exact flies_kept rfl rfl rfl
  · split
    · exact flies_more (reply_flies s _ _) (Nat.le_succ 1)
    · exact flies_kept rfl rfl rfl

theorem handleRoomListRequest_flies (s : Server) : Flies 2 s (s.handleRoomListRequest library turn pack).server := by
  unfold handleRoomListRequest
  split
  · exact flies_kept rfl rfl rfl
  · exact flies_more (sendMessageToSession_flies s _ _) (Nat.le_succ 1)

theorem handleRoom_flies (s : Server) : Flies 2 s (s.handleRoom library turn pack).server := by
  unfold handleRoom
  split
  · exact handleRoomCreateRequest_flies s
  · split
    · exact handleRoomJoinRequest_flies s
    · split
      · exact handleRoomLeaveRequest_flies s
      · exact handleRoomListRequest_flies s

end Handlers

variable {library : JsonLibrary}

theorem step_flies {event : Event} (stepped : step library s event = some next) : Flies 2 s next := by
  cases step_stepped stepped with
  | connect connected => exact connected_flies connected
  | close => exact closeSession_flies s _
  | receive present heard => exact flies_more (heard_flies heard) (Nat.le_succ 1)
  | @runLogin turn pack rest first =>
    have handled : Flies 2 { s with loginStrand := rest } ({ s with loginStrand := rest }.handleLogin turn pack).server :=
      handleLogin_flies _
    exact @flies_trans _ _ _ 0 2 (flies_kept rfl rfl rfl) (@flies_trans _ _ _ 2 0 handled (flies_kept rfl rfl rfl))
  | @runRoom turn pack rest first =>
    have handled : Flies 2 { s with roomStrand := rest }
        ({ s with roomStrand := rest }.handleRoom library turn pack).server := handleRoom_flies _
    exact @flies_trans _ _ _ 0 2 (flies_kept rfl rfl rfl) (@flies_trans _ _ _ 2 0 handled (flies_kept rfl rfl rfl))

theorem run_flies {events : List Event} (path : Machine.run (step library) s events = some next) :
    Flies (2 * events.length) s next := by
  induction events generalizing s with
  | nil => cases path; exact flies_kept rfl rfl rfl
  | cons event rest ih =>
    obtain ⟨middle,stepped,path⟩ := Option.bind_eq_some_iff.mp path
    refine flies_more (flies_trans (step_flies stepped) (ih path)) ?_
    rw [List.length_cons]
    omega

end Flying

def counted (s : Server) (msg : EncodeMessage) : Server :=
  { s with nextMsgId := if msg.msgId = 0 then s.nextMsgId + 1 else s.nextMsgId }

section Copies
variable {s : Server} {msg : EncodeMessage}

theorem counted_live (live : s.Live) : (s.counted msg).Live := ⟨live.served,live.sessions,live.packs⟩

theorem stamped_body (counter : MsgId) (msg : EncodeMessage) :
    { stamped counter msg with msgId := 0 } = { msg with msgId := 0 } := by
  unfold stamped
  split <;> rfl

theorem stamped_encodable (encodable : MTcpCodec.Encodable msg) (counter : MsgId) :
    MTcpCodec.Encodable (stamped counter msg) := by
  unfold stamped
  split <;> exact ⟨encodable.business,encodable.nonempty,encodable.bounded⟩

theorem member_told (live : s.Live) (encodable : MTcpCodec.Encodable msg) (id : UserId) :
    s.sendMessageToUser id msg = match s.liveSession id with
      | none => ⟨s,msg,[]⟩
      | some sessionId => ⟨s.counted msg,stamped s.nextMsgId msg,
          [⟨sessionId,stamped s.nextMsgId msg,(frames (stamped s.nextMsgId msg)).flatten⟩]⟩ := by
  unfold sendMessageToUser liveSession
  cases s.users.sendTarget id with
  | none => rfl
  | some sessionId =>
    unfold sendMessageToSession
    cases found : s.sessions.lookup sessionId with
    | none =>
      have gone : (some sessionId).filter (· ∈ s.sessions) = none := by simp [AList.lookup_eq_none.mp found]
      rw [gone]
      dsimp only
      rw [found]
    | some session =>
      have present : (some sessionId).filter (· ∈ s.sessions) = some sessionId := by simp [UnorderedMap.mem_of_lookup found]
      have sent : Gateway.written session (stamped s.nextMsgId msg) = some (frames (stamped s.nextMsgId msg)).flatten := by
        have connected := (live.sessions _ _ found).2
        have filled := List.isEmpty_eq_false_iff.mpr (frames_filled (stamped_encodable encodable s.nextMsgId))
        unfold Gateway.written
        rw [encodeSync_encodable (stamped_encodable encodable _)]
        simp [ClientSession.writeEncodedPayload,connected,filled]
      rw [present]
      dsimp only
      rw [found]
      dsimp only
      rw [sendMessage_stamped,sent]
      rfl

theorem broadcast_passes (live : s.Live) (encodable : MTcpCodec.Encodable msg) {id : UserId} (gone : s.liveSession id = none)
    (rest : List UserId) : s.broadcast msg (id :: rest) = s.broadcast msg rest := by
  rw [broadcast,member_told live encodable id,gone]
  rfl

theorem broadcast_tells (live : s.Live) (encodable : MTcpCodec.Encodable msg) {id : UserId} {sessionId : SessionId}
    (bound : s.liveSession id = some sessionId) (rest : List UserId) : (s.broadcast msg (id :: rest)).deliveries =
      ⟨sessionId,stamped s.nextMsgId msg,(frames (stamped s.nextMsgId msg)).flatten⟩ ::
        ((s.counted msg).broadcast (stamped s.nextMsgId msg) rest).deliveries := by
  rw [broadcast,member_told live encodable id,bound]
  rfl

theorem broadcast_told (live : s.Live) (encodable : MTcpCodec.Encodable msg) (ids : List UserId) :
    (s.broadcast msg ids).deliveries.map (·.sessionId) = ids.filterMap s.liveSession := by
  induction ids generalizing s msg with
  | nil => rfl
  | cons id rest ih =>
    cases bound : s.liveSession id with
    | none => rw [broadcast_passes live encodable bound,List.filterMap_cons_none bound,ih live encodable]
    | some sessionId =>
      rw [broadcast_tells live encodable bound,List.filterMap_cons_some bound,List.map_cons,
        ih (counted_live live) (stamped_encodable encodable _)]
      rfl

theorem broadcast_copies (live : s.Live) (encodable : MTcpCodec.Encodable msg) (ids : List UserId) :
    ∀ copy ∈ (s.broadcast msg ids).deliveries, copy.bytes = (frames copy.msg).flatten ∧
      { copy.msg with msgId := 0 } = { msg with msgId := 0 } := by
  induction ids generalizing s msg with
  | nil => exact fun _ member => (List.not_mem_nil member).elim
  | cons id rest ih =>
    intro copy member
    cases bound : s.liveSession id with
    | none =>
      rw [broadcast_passes live encodable bound] at member
      exact ih live encodable copy member
    | some sessionId =>
      rw [broadcast_tells live encodable bound] at member
      rcases List.mem_cons.mp member with rfl | later
      · exact ⟨rfl,stamped_body _ _⟩
      · obtain ⟨whole,body⟩ := ih (counted_live live) (stamped_encodable encodable _) copy later
        exact ⟨whole,body.trans (stamped_body _ _)⟩

theorem broadcast_shared (live : s.Live) (encodable : MTcpCodec.Encodable msg) (ids : List UserId)
    (real : (stamped s.nextMsgId msg).msgId ≠ 0) :
    ∀ copy ∈ (s.broadcast msg ids).deliveries, copy.msg.msgId = (stamped s.nextMsgId msg).msgId := by
  induction ids generalizing s msg with
  | nil => exact fun _ member => (List.not_mem_nil member).elim
  | cons id rest ih =>
    intro copy member
    cases bound : s.liveSession id with
    | none =>
      rw [broadcast_passes live encodable bound] at member
      exact ih live encodable real copy member
    | some sessionId =>
      rw [broadcast_tells live encodable bound] at member
      rcases List.mem_cons.mp member with rfl | later
      · rfl
      · have settled (counter : MsgId) : stamped counter (stamped s.nextMsgId msg) = stamped s.nextMsgId msg := if_neg real
        have shared := ih (counted_live live) (stamped_encodable encodable _) (by rw [settled]; exact real) copy later
        rwa [settled] at shared

end Copies

-- What a broadcast of an unnumbered message comes to: the live sessions of the
-- members, in their order, one copy each of the one message under one id, and all
-- of it one push.
structure Broadcasts (s : Server) (room : GameRoom) (msg : EncodeMessage) (sent : Sent) : Prop where
  told : sent.deliveries.map (·.sessionId) = room.memberIds.filterMap s.liveSession
  copies : ∀ copy ∈ sent.deliveries, copy.bytes = (frames copy.msg).flatten ∧ { copy.msg with msgId := 0 } = msg
  shared : s.nextMsgId ≠ 0 → ∀ copy ∈ sent.deliveries, copy.msg.msgId = s.nextMsgId
  pushed : ∀ before, ∃ moves, Machine.run Gateway.step (s.gateway before) (.push msg (room.memberIds.map .user) :: moves) =
    some (sent.server.gateway (before ++ [⟨sent.msg,[],.asked,sent.deliveries⟩]))

theorem roomBroadCast_broadcasts {s : Server} {roomId : RoomId} {room : GameRoom} {msg : EncodeMessage} (live : s.Live)
    (listed : s.lobby.getRoom roomId = some room) (fresh : msg.msgId = 0) (encodable : MTcpCodec.Encodable msg) :
    Broadcasts s room msg (s.roomBroadCast roomId msg) := by
  have whole : ({ msg with msgId := 0 } : EncodeMessage) = msg := by rw [← fresh]
  have first : stamped s.nextMsgId msg = { msg with msgId := s.nextMsgId } := if_pos fresh
  unfold roomBroadCast
  rw [listed]
  refine ⟨broadcast_told live encodable _,?_,?_,?_⟩
  · have copies := broadcast_copies live encodable room.memberIds
    rwa [whole] at copies
  · intro real
    have shared := broadcast_shared live encodable room.memberIds (by rw [first]; exact real)
    rwa [first] at shared
  · exact fun before => travels_flies fresh (broadcast_travels room.memberIds s msg []) before

theorem run_live {library : JsonLibrary} {heap : Heap} {events : List Event} {s : Server}
    (path : Machine.run (step library) (start heap) events = some s) : s.Live :=
  Machine.run_preserves (fun _ _ _ live stepped => step_live live stepped) (start_live heap) path

-- Every run of the server is one of the gateway, each broadcast of it one push, and
-- in no run of the gateway do fewer than 2^64 - 1 pushes share an id.
theorem broadcasts_numbered (library : JsonLibrary) :
    (∀ heap events s, Machine.run (step library) (start heap) events = some s →
      (∃ moves pushes, Machine.run Gateway.step Gateway.opened moves = some (s.gateway pushes) ∧
        pushes.length ≤ 2 * events.length) ∧
      ∀ roomId room msg, s.lobby.getRoom roomId = some room → msg.msgId = 0 → MTcpCodec.Encodable msg →
        Broadcasts s room msg (s.roomBroadCast roomId msg)) ∧
    ∀ moves g, Machine.run Gateway.step Gateway.opened moves = some g → g.pushes.length < 2 ^ 64 - 1 →
      g.nextMsgId ≠ 0 ∧ g.Numbered := by
  refine ⟨?_,?_⟩
  · intro heap events s path
    refine ⟨?_,?_⟩
    · obtain ⟨moves,pushes,few,flown⟩ := run_flies path []
      exact ⟨moves,pushes,flown,few⟩
    · intro roomId room msg listed fresh encodable
      exact roomBroadCast_broadcasts (run_live path) listed fresh encodable
  · intro moves g path few
    have ledger := Gateway.run_ledger path (by omega)
    exact ⟨(Tickets.drawn_fresh ledger.drawn).1,Gateway.ledger_numbered ledger⟩

def twoInRoom : List Event := [.connect,.connect,.receive 1 loginMsg,.runLogin blankTurn,.receive 2 otherLoginMsg,
  .runLogin blankTurn,.receive 1 roomMsg,.runRoom blankTurn,.receive 2 joinMsg,.runRoom blankTurn]

def notice : EncodeMessage := ⟨0,ProtoType.control,MsgType.chatMsg,0,[1]⟩

theorem notice_encodable : MTcpCodec.Encodable notice := ⟨by decide,by decide,by decide⟩

theorem both_members_told : ∃ s room,
    Machine.run (step Json.compact) (start Lobby.noInfos) twoInRoom = some s ∧ s.lobby.getRoom 1 = some room ∧
      Broadcasts s room notice (s.roomBroadCast 1 notice) ∧
      (s.roomBroadCast 1 notice).deliveries.map (·.sessionId) = [1,2] ∧
      ∃ g, Machine.run Gateway.step Gateway.opened [.push notice [.user 124]] = some g ∧ g.Numbered := by
  have seen : ((Machine.run (step Json.compact) (start Lobby.noInfos) twoInRoom).bind fun s =>
      (s.lobby.getRoom 1).map fun _ => (s.roomBroadCast 1 notice).deliveries.map (·.sessionId)) = some [1,2] := by
    decide +kernel
  obtain ⟨s,path,looked⟩ := Option.bind_eq_some_iff.mp seen
  obtain ⟨room,listed,told⟩ := Option.map_eq_some_iff.mp looked
  obtain ⟨served,pushed⟩ := broadcasts_numbered Json.compact
  obtain ⟨-,broadcasts⟩ := served Lobby.noInfos twoInRoom s path
  refine ⟨s,room,path,listed,broadcasts 1 room notice listed rfl notice_encodable,told,_,rfl,?_⟩
  exact (pushed [.push notice [.user 124]] _ rfl (by decide)).2

-- A heartbeat with msg_id 0 draws an id for the answer that is never sent.
theorem heartbeat_draws {s : Server} (open_ : s.ended = false) (present : 1 ∈ s.sessions) :
    step Json.compact s (.receive 1 (heartbeat 0)) = some { s with nextMsgId := s.nextMsgId + 1 } := by
  obtain ⟨session,found⟩ := UnorderedMap.mem_iff_lookup.mp present
  have heard : s.onMsgReceive (ClientSession.pack 1 (heartbeat 0)) =
      (s.sendMessageToSession 1 ⟨0,ProtoType.heartBeat,0,0,[]⟩).server := by
    unfold onMsgReceive
    exact if_pos rfl
  unfold step
  rw [open_,if_neg Bool.false_ne_true]
  dsimp only
  rw [if_pos present,heard,sendMessageToSession,found]
  dsimp only
  rw [sendMessage_stamped,if_pos rfl,← open_]

theorem heartbeats_draw {s : Server} (open_ : s.ended = false) (present : 1 ∈ s.sessions) (n : Nat) :
    Machine.run (step Json.compact) s (List.replicate n (.receive 1 (heartbeat 0))) =
      some { s with nextMsgId := s.nextMsgId + UInt64.ofNat n } := by
  induction n generalizing s with
  | zero => simp
  | succ n ih =>
    have later := @ih { s with nextMsgId := s.nextMsgId + 1 } open_ present
    rw [List.replicate_succ,Machine.run_cons,heartbeat_draws open_ present,Option.bind_some,later]
    have sum : s.nextMsgId + 1 + UInt64.ofNat n = s.nextMsgId + UInt64.ofNat (n + 1) := by
      rw [UInt64.ofNat_add,UInt64.add_assoc,UInt64.add_comm 1]
      rfl
    rw [sum]

theorem counter_runs_over {s : Server} (open_ : s.ended = false) (present : 1 ∈ s.sessions) :
    ∃ beats, Machine.run (step Json.compact) s beats = some { s with nextMsgId := 0 } := by
  have drawn := heartbeats_draw open_ present (-s.nextMsgId).toNat
  have zero : s.nextMsgId + UInt64.ofNat (-s.nextMsgId).toNat = 0 := by
    rw [UInt64.ofNat_toNat,UInt64.add_right_neg]
  rw [zero] at drawn
  exact ⟨_,drawn⟩

-- The first of two copies then carries id 0, and the second draws another.
theorem copies_drift_apart : ¬ ∀ heap events s, Machine.run (step Json.compact) (start heap) events = some s →
    ∀ roomId room msg, s.lobby.getRoom roomId = some room → msg.msgId = 0 → MTcpCodec.Encodable msg →
      ∃ id ≠ 0, ∀ copy ∈ (s.roomBroadCast roomId msg).deliveries, copy.msg.msgId = id := by
  intro shared
  have seen : ((Machine.run (step Json.compact) (start Lobby.noInfos) twoInRoom).bind fun s =>
      (s.lobby.getRoom 1).map fun _ => (s.ended,decide (1 ∈ s.sessions),
        (({ s with nextMsgId := 0 } : Server).roomBroadCast 1 notice).deliveries.map (·.msg.msgId))) =
          some (false,true,[0,1]) := by decide +kernel
  obtain ⟨s,path,looked⟩ := Option.bind_eq_some_iff.mp seen
  obtain ⟨room,listed,facts⟩ := Option.map_eq_some_iff.mp looked
  simp only [Prod.mk.injEq,decide_eq_true_eq] at facts
  obtain ⟨open_,present,ids⟩ := facts
  obtain ⟨beats,round⟩ := counter_runs_over open_ present
  have whole : Machine.run (step Json.compact) (start Lobby.noInfos) (twoInRoom ++ beats) = some { s with nextMsgId := 0 } := by
    rw [Machine.run_append,path]
    exact round
  obtain ⟨id,real,each⟩ := shared Lobby.noInfos _ _ whole 1 room notice listed rfl notice_encodable
  have first : (0 : MsgId) ∈ (({ s with nextMsgId := 0 } : Server).roomBroadCast 1 notice).deliveries.map (·.msg.msgId) := by
    rw [ids]
    decide
  obtain ⟨copy,member,carries⟩ := List.mem_map.mp first
  exact real ((each copy member).symm.trans carries)

end GameServer.Server
