import GameServer.RoomRequests

namespace GameServer.Server
open Foundation RequestPayload

-- The run of the room handler an event is, if it is one: the state it starts in,
-- what else it depends on, and the pack it takes off the strand.
def taken (s : Server) : Event → Option (Server × Turn × MsgPack)
  | .runRoom turn => match s.roomStrand with
    | [] => none
    | pack :: rest => some ({ s with roomStrand := rest },turn,pack)
  | _ => none

def Upon (law : Server → Turn → MsgPack → Prop) (s : Server) (event : Event) (_ : Server) : Prop :=
  ∀ at_ turn pack, s.taken event = some (at_,turn,pack) → law at_ turn pack

-- What the payload of a room request has to hold for its handler to read.
structure WellFormed (msg : DecodedMessage) : Prop where
  creates : msg.subType = RoomReqType.createRoom → ∃ first second, StartsWith msg.payload first second
  codes : msg.subType = RoomReqType.joinRoom ∨ msg.subType = RoomReqType.leaveRoom → 6 ≤ msg.payload.length

theorem WellFormed.filled {pack : MsgPack} (wellFormed : WellFormed pack.msg) (reads : Reads pack) : pack.msg.payload ≠ [] := by
  intro empty
  rcases reads with create | code
  · obtain ⟨first,second,starts⟩ := wellFormed.creates create
    exact startsWith_filled starts empty
  · have long := wellFormed.codes code
    rw [empty,List.length_nil] at long
    omega

def LogsIn (pack : MsgPack) : Prop := pack.msg.subType = 0 ∧ pack.msg.payload ≠ []

instance (pack : MsgPack) : Decidable (LogsIn pack) := inferInstanceAs (Decidable (_ ∧ _))

-- What a new connection leaves: an id is drawn, and a session opened where there is
-- an id and room for it.
inductive Connected (s : Server) : Server → Prop where
  | turned : Connected s { s with nextSessionId := s.nextSessionId + 1 }
  | opened (real : s.nextSessionId ≠ 0) : Connected s { s with
      nextSessionId := s.nextSessionId + 1
      sessions := AList.insert s.nextSessionId (ClientSession.create s.nextSessionId) s.sessions }

-- What a decoded message leaves: a heartbeat is answered, a request that is known
-- waits on its strand under the user the session is bound to.
inductive Heard (s : Server) (pack : MsgPack) : Server → Prop where
  | answered : Heard s pack (s.sendMessageToSession pack.senderSessionId ⟨pack.msg.msgId,ProtoType.heartBeat,0,0,[]⟩).server
  | login : Heard s pack
      { s with loginStrand := s.loginStrand ++ [{ pack with senderId := s.users.getUserId pack.senderSessionId }] }
  | room (known : 1 ≤ pack.msg.subType ∧ pack.msg.subType ≤ 4) : Heard s pack
      { s with roomStrand := s.roomStrand ++ [{ pack with senderId := s.users.getUserId pack.senderSessionId }] }
  | unknown : Heard s pack s

inductive Stepped (library : JsonLibrary) (s : Server) : Event → Server → Prop where
  | connect {next : Server} (connected : Connected s next) : Stepped library s .connect next
  | close {sessionId : SessionId} : Stepped library s (.close sessionId) (s.closeSession sessionId)
  | receive {sessionId : SessionId} {msg : DecodedMessage} {next : Server} (present : sessionId ∈ s.sessions)
      (heard : Heard s (ClientSession.pack sessionId msg) next) : Stepped library s (.receive sessionId msg) next
  | runLogin {turn : Turn} {pack : MsgPack} {rest : List MsgPack} (first : s.loginStrand = pack :: rest) :
      Stepped library s (.runLogin turn) ({ s with loginStrand := rest }.handleLogin turn pack).after
  | runRoom {turn : Turn} {pack : MsgPack} {rest : List MsgPack} (first : s.roomStrand = pack :: rest) :
      Stepped library s (.runRoom turn) ({ s with roomStrand := rest }.handleRoom library turn pack).after

section Living
variable {library : JsonLibrary} {s : Server}

theorem createSession_connected (s : Server) : Connected s s.createSession := by
  unfold createSession
  dsimp only
  split
  · exact .turned
  · rename_i real
    split
    · exact .turned
    · split
      · exact .turned
      · exact .opened real

theorem onMsgReceive_heard (s : Server) (pack : MsgPack) : Heard s pack (s.onMsgReceive pack) := by
  unfold onMsgReceive
  dsimp only
  split
  · exact .answered
  · split
    · split
      · exact .login
      · exact .unknown
    · split
      · split
        · rename_i known
          exact .room known
        · exact .unknown
      · exact .unknown

theorem step_stepped {event : Event} {next : Server} (stepped : step library s event = some next) :
    Stepped library s event next := by
  unfold step at stepped
  split at stepped
  · cases stepped
  · cases event with
    | connect => cases stepped; exact .connect (createSession_connected s)
    | close sessionId => cases stepped; exact .close
    | receive sessionId msg =>
      dsimp only at stepped
      split at stepped
      · rename_i present
        cases stepped
        exact .receive present (onMsgReceive_heard s _)
      · cases stepped
    | runLogin turn =>
      obtain ⟨out,ran,rfl⟩ := Option.map_eq_some_iff.mp stepped
      unfold runLogin at ran
      split at ran
      · cases ran
      · rename_i first
        cases ran
        exact .runLogin first
    | runRoom turn =>
      obtain ⟨out,ran,rfl⟩ := Option.map_eq_some_iff.mp stepped
      unfold runRoom at ran
      split at ran
      · cases ran
      · rename_i first
        cases ran
        exact .runRoom first

theorem connected_live {next : Server} (live : s.Live) (connected : Connected s next) : next.Live := by
  cases connected with
  | turned => exact live_kept live rfl rfl rfl
  | opened real =>
    refine ⟨live.served,?_,live.packs⟩
    intro id session found
    rw [UnorderedMap.lookup_insert_eq] at found
    split at found
    · rename_i same
      cases found
      exact ⟨same ▸ real,rfl⟩
    · exact live.sessions id session found

theorem createSession_live (live : s.Live) : s.createSession.Live := connected_live live (createSession_connected s)

theorem closeSession_live (live : s.Live) (sessionId : SessionId) : (s.closeSession sessionId).Live := by
  refine ⟨live.served,?_,live.packs⟩
  intro id session found
  rw [closeSession,UnorderedMap.lookup_erase_eq] at found
  split at found
  · cases found
  · exact live.sessions id session found

theorem heard_live {pack : MsgPack} {next : Server} (live : s.Live) (heard : Heard s pack next) : next.Live := by
  cases heard with
  | answered =>
    obtain ⟨n,sent⟩ := sendMessageToSession_server s pack.senderSessionId ⟨pack.msg.msgId,ProtoType.heartBeat,0,0,[]⟩
    rw [sent]
    exact live_kept live rfl rfl rfl
  | login => exact live_kept live rfl rfl rfl
  | room known =>
    refine ⟨live.served,live.sessions,?_⟩
    intro other member
    rcases List.mem_append.mp member with old | new
    · exact live.packs other old
    · rw [List.mem_singleton.mp new]
      exact known
  | unknown => exact live

theorem handleLogin_live (live : s.Live) (turn : Turn) (pack : MsgPack) : (s.handleLogin turn pack).after.Live := by
  unfold handleLogin
  split
  · unfold handleLoginRequest replyToSession Outcome.after
    split
    · exact live_kept live rfl rfl rfl
    dsimp only
    generalize (⟨.success,_,pack.senderSessionId,[]⟩ : UserLoginInfo) = info
    obtain ⟨n,sent⟩ := sendMessageToSession_server
      { s with users := s.users.onUserLogin info, lobby := s.lobby.onUserLogin info } pack.senderSessionId _
    rw [sent]
    exact ⟨Lobby.userLogin_served info live.served,live.sessions,live.packs⟩
  · exact live_kept live rfl rfl rfl

theorem taken_live {at_ : Server} {event : Event} {turn : Turn} {pack : MsgPack} (live : s.Live)
    (took : s.taken event = some (at_,turn,pack)) : at_.Live ∧ 1 ≤ pack.msg.subType ∧ pack.msg.subType ≤ 4 := by
  cases event with
  | runRoom run =>
    cases strand : s.roomStrand with
    | nil => simp only [taken,strand] at took; cases took
    | cons head rest =>
      simp only [taken,strand] at took
      cases took
      have packs := live.packs
      rw [strand] at packs
      exact ⟨⟨live.served,live.sessions,fun other member => packs other (List.mem_cons_of_mem _ member)⟩,
        packs _ (List.mem_cons_self ..)⟩
  | _ => cases took

theorem taken_first {turn : Turn} {pack : MsgPack} {rest : List MsgPack} (first : s.roomStrand = pack :: rest) :
    s.taken (.runRoom turn) = some ({ s with roomStrand := rest },turn,pack) := by
  rw [taken,first]

theorem first_runs {turn : Turn} {pack : MsgPack} {rest : List MsgPack} (live : s.Live) (first : s.roomStrand = pack :: rest) :
    { s with roomStrand := rest }.Live ∧ RoomRun library { s with roomStrand := rest } turn pack
      ({ s with roomStrand := rest }.handleRoom library turn pack) := by
  obtain ⟨living,known⟩ := taken_live live (@taken_first s turn pack rest first)
  exact ⟨living,handleRoom_runs library living known⟩

theorem step_live {event : Event} {next : Server} (live : s.Live) (stepped : step library s event = some next) : next.Live := by
  cases step_stepped stepped with
  | connect connected => exact connected_live live connected
  | close => exact closeSession_live live _
  | receive present heard => exact heard_live live heard
  | runLogin first =>
    apply handleLogin_live
    exact live_kept live rfl rfl rfl
  | runRoom first =>
    obtain ⟨living,run⟩ := first_runs live first
    exact roomRun_live library living run

theorem start_live (heap : Heap) : (start heap).Live :=
  ⟨Lobby.opened_served heap,nofun,fun _ member => (List.not_mem_nil member).elim⟩

theorem every_upon {law guard : Server → Turn → MsgPack → Prop}
    (agree : ∀ s turn pack, s.Live → RoomRun library s turn pack (s.handleRoom library turn pack) →
      (law s turn pack ↔ guard s turn pack)) (heap : Heap) (events : List Event) :
    Machine.Every (step library) (Upon law) (start heap) events ↔
      Machine.Every (step library) (Upon guard) (start heap) events := by
  refine Machine.every_congr (fun _ _ _ live stepped _ => step_live live stepped) ?_ (start_live heap)
  intro s event next live _
  have each (at_ : Server) (turn : Turn) (pack : MsgPack) (took : s.taken event = some (at_,turn,pack)) :
      law at_ turn pack ↔ guard at_ turn pack := by
    obtain ⟨living,known⟩ := taken_live live took
    exact agree at_ turn pack living (handleRoom_runs library living known)
  refine ⟨?_,?_⟩
  · exact fun holds at_ turn pack took => (each at_ turn pack took).mp (holds at_ turn pack took)
  · exact fun holds at_ turn pack took => (each at_ turn pack took).mpr (holds at_ turn pack took)

theorem upon_seen {α : Type*} {law : Server → Turn → MsgPack → Prop} {view : Server × Turn × MsgPack → α} {facts : α}
    {earlier : List Event} {event : Event} (every : Machine.Every (step library) (Upon law) s (earlier ++ [event]))
    (seen : ((Machine.run (step library) s earlier).bind fun reached => (step library reached event).bind fun _ =>
      (reached.taken event).map view) = some facts) :
    ∃ at_ turn pack, law at_ turn pack ∧ view (at_,turn,pack) = facts := by
  obtain ⟨reached,path,looked⟩ := Option.bind_eq_some_iff.mp seen
  obtain ⟨next,stepped,looked⟩ := Option.bind_eq_some_iff.mp looked
  obtain ⟨⟨at_,turn,pack⟩,took,shown⟩ := Option.map_eq_some_iff.mp looked
  exact ⟨at_,turn,pack,Machine.every_iff.mp every earlier event [] reached next rfl path stepped at_ turn pack took,shown⟩

end Living

def loginMsg : DecodedMessage := ⟨1,ProtoType.data,MsgType.loginReq,0,spelled [65] []⟩
def roomMsg : DecodedMessage := ⟨2,ProtoType.data,MsgType.roomReq,RoomReqType.createRoom,spelled [65] []⟩

def hostsRoom : List Event :=
  [.connect,.receive 1 loginMsg,.runLogin blankTurn,.receive 1 roomMsg,.runRoom blankTurn]

end GameServer.Server
