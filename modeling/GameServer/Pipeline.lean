import GameServer.HeartbeatEcho
import GameServer.Segmentation
import GameServer.SessionEnds

namespace GameServer
open Foundation MTcpCodec Server

def IsLogin (msg : DecodedMessage) : Prop := msg.mainType = MsgType.loginReq ∧ msg.subType = 0

def IsRoom (msg : DecodedMessage) : Prop := msg.mainType = MsgType.roomReq ∧ 1 ≤ msg.subType ∧ msg.subType ≤ 4

instance (msg : DecodedMessage) : Decidable (IsLogin msg) := inferInstanceAs (Decidable (_ ∧ _))

instance (msg : DecodedMessage) : Decidable (IsRoom msg) := inferInstanceAs (Decidable (_ ∧ _))

def namedUser (msg : DecodedMessage) : UserId := loginUser blankTurn (ClientSession.pack 0 msg)

-- One session whose client only sends requests for login and for rooms: what it has
-- sent that is not read yet, what onSocketRecv has decoded and not handed to the
-- router yet, and the server. Beside that the record of the run: the bytes read, the
-- requests the two strands have run, and for each room request posted to its strand
-- the user of the last login that had run when the router took it up.
structure Pipeline where
  server : Server
  session : ClientSession
  coming : List UInt8
  decoded : List MsgPack := []
  data : List UInt8 := []
  logins : List MsgPack := []
  handled : List MsgPack := []
  stamps : List UserId := []

namespace Pipeline

inductive Event where
  | read (size : Nat) (heap : Nat → UInt8)
  | route
  | runLogin (turn : Turn)
  | runRoom (turn : Turn)

def lastUser (logins : List MsgPack) : Option UserId := logins.getLast?.map fun pack => namedUser pack.msg

def onRead (p : Pipeline) (size : Nat) (heap : Nat → UInt8) : Option Pipeline :=
  (p.session.onSocketRecv ⟨p.coming.take size,heap⟩).map fun result =>
    { p with session := result.1, decoded := result.2, coming := p.coming.drop size, data := p.data ++ p.coming.take size }

variable (library : JsonLibrary)

-- The next read is only started when onSocketRecv is through; the strands run beside it.
def step (p : Pipeline) : Event → Option Pipeline
  | .read size heap =>
    if p.server.ended = false ∧ p.decoded = [] ∧ 0 < size ∧ size ≤ 4096 ∧ size ≤ p.coming.length then p.onRead size heap
    else none
  | .route => match p.decoded with
    | [] => none
    | pack :: rest => (Server.step library p.server (.receive pack.senderSessionId pack.msg)).map fun server =>
      { p with server := server, decoded := rest
               stamps := p.stamps ++ if IsRoom pack.msg then [(lastUser p.logins).getD 0] else [] }
  | .runLogin turn => (Server.step library p.server (.runLogin turn)).map fun server =>
    { p with server := server, logins := p.logins ++ p.server.loginStrand.head?.toList }
  | .runRoom turn => (Server.step library p.server (.runRoom turn)).map fun server =>
    { p with server := server, handled := p.handled ++ p.server.roomStrand.head?.toList }

-- A session the server has accepted and not heard of yet, and nothing else under way.
structure Accepted (s : Server) (sessionId : SessionId) : Prop where
  live : s.Live
  present : sessionId ∈ s.sessions
  nobody : s.users.getUserId sessionId = 0
  loginsDone : s.loginStrand = []
  roomsDone : s.roomStrand = []

structure IsRequest (msg : EncodeMessage) : Prop where
  encodable : MTcpCodec.Encodable msg
  kind : msg.mainType = MsgType.loginReq ∧ msg.subType = 0 ∨
    msg.mainType = MsgType.roomReq ∧ 1 ≤ msg.subType ∧ msg.subType ≤ 4

def opened (s : Server) (sessionId : SessionId) (msgs : List EncodeMessage) : Pipeline :=
  { server := s, session := ClientSession.create sessionId, coming := stream msgs }

-- The messages completed by the bytes read so far.
def whole (data : List UInt8) : List DecodedMessage := (framing.split data).1.map frameMessage

def passed (p : Pipeline) : List DecodedMessage := (whole p.data).take ((whole p.data).length - p.decoded.length)

-- The room requests in a stream, each with the user of the last login request before it.
def awaited : Option UserId → List DecodedMessage → List (Option UserId × DecodedMessage)
  | _,[] => []
  | last,msg :: rest =>
    if IsLogin msg then awaited (some (namedUser msg)) rest
    else if IsRoom msg then (last,msg) :: awaited last rest
    else awaited last rest

def heard (last : Option UserId) (msgs : List DecodedMessage) : Option UserId :=
  msgs.foldl (fun last msg => if IsLogin msg then some (namedUser msg) else last) last

def posted (p : Pipeline) : List MsgPack := p.handled ++ p.server.roomStrand

def Carries (due : Option UserId × DecodedMessage) (pack : MsgPack) : Prop :=
  pack.msg = due.2 ∧ ∀ user, due.1 = some user → pack.senderId = user

-- The room requests of the stream have come to their strand, each under the user of
-- the last login request before it.
def Identified (p : Pipeline) : Prop := List.Forall₂ Carries (awaited none p.passed) p.posted

-- Each room request on its strand is under the user of the last login run before
-- the router took it up, and under nobody where none had run.
def Stamped (p : Pipeline) : Prop := p.posted.map (·.senderId) = p.stamps

-- The messages a read completes and drops, because it ends a header's length or more
-- inside the next.
def lost (p : Pipeline) (chunk : List UInt8) : List DecodedMessage :=
  if protoHeaderSize ≤ (framing.split (p.data ++ chunk)).2.length then
    (whole (p.data ++ chunk)).drop (whole p.data).length
  else []

-- No room request is dropped, and when one is taken up after login requests, the last
-- login that has run is for the user the last of those requests names.
def Timely (p : Pipeline) : Event → Pipeline → Prop
  | .read size _,_ => ∀ msg ∈ p.lost (p.coming.take size), ¬ IsRoom msg
  | .route,_ => ∀ pack rest user, p.decoded = pack :: rest → IsRoom pack.msg → heard none p.passed = some user →
    lastUser p.logins = some user
  | _,_ => True

section Streams
variable {last : Option UserId} {msgs more : List DecodedMessage} {msg : DecodedMessage}

theorem login_not_room (login : IsLogin msg) : ¬ IsRoom msg := by
  intro room
  cases login.1.symm.trans room.1

theorem awaited_append (last : Option UserId) (msgs more : List DecodedMessage) :
    awaited last (msgs ++ more) = awaited last msgs ++ awaited (heard last msgs) more := by
  induction msgs generalizing last with
  | nil => rfl
  | cons msg rest ih =>
    unfold heard
    rw [List.cons_append,awaited,awaited,List.foldl_cons]
    by_cases login : IsLogin msg
    · rw [if_pos login,if_pos login,if_pos login]
      exact ih _
    · rw [if_neg login,if_neg login,if_neg login]
      by_cases room : IsRoom msg
      · rw [if_pos room,if_pos room,List.cons_append]
        exact congrArg _ (ih _)
      · rw [if_neg room,if_neg room]
        exact ih _

theorem awaited_room (room : IsRoom msg) : awaited last [msg] = [(last,msg)] := by
  have other : ¬ IsLogin msg := fun login => login_not_room login room
  rw [awaited,if_neg other,if_pos room,awaited]

theorem awaited_none (roomless : ∀ msg ∈ msgs, ¬ IsRoom msg) : awaited last msgs = [] := by
  induction msgs generalizing last with
  | nil => rfl
  | cons msg rest ih =>
    have later : ∀ msg ∈ rest, ¬ IsRoom msg := fun other member => roomless other (List.mem_cons_of_mem _ member)
    rw [awaited,if_neg (roomless msg (List.mem_cons_self ..)),ih later,ih later]
    split <;> rfl

theorem roomless_awaited (nothing : awaited last msgs = []) : ∀ msg ∈ msgs, ¬ IsRoom msg := by
  induction msgs generalizing last with
  | nil => exact fun _ member => (List.not_mem_nil member).elim
  | cons msg rest ih =>
    rw [awaited] at nothing
    intro other member
    by_cases login : IsLogin msg
    · rw [if_pos login] at nothing
      rcases List.mem_cons.mp member with rfl | later
      · exact login_not_room login
      · exact ih nothing other later
    · rw [if_neg login] at nothing
      by_cases room : IsRoom msg
      · rw [if_pos room] at nothing
        cases nothing
      · rw [if_neg room] at nothing
        rcases List.mem_cons.mp member with rfl | later
        · exact room
        · exact ih nothing other later

end Streams

section Strands
variable {library : JsonLibrary} {s next : Server} {sessionId : SessionId} {msg : DecodedMessage}

theorem receive_heard (stepped : Server.step library s (.receive sessionId msg) = some next) :
    next = s.onMsgReceive (ClientSession.pack sessionId msg) := by
  unfold Server.step at stepped
  dsimp only at stepped
  split at stepped
  · cases stepped
  · split at stepped
    · cases stepped
      rfl
    · cases stepped

theorem receive_room (room : IsRoom msg) (stepped : Server.step library s (.receive sessionId msg) = some next) :
    next = { s with roomStrand := s.roomStrand ++ [⟨s.users.getUserId sessionId,sessionId,0,msg⟩] } := by
  obtain ⟨kind,known⟩ := room
  rw [receive_heard stepped]
  unfold onMsgReceive ClientSession.pack
  dsimp only
  rw [kind,if_neg (by decide),if_neg (by decide),if_pos rfl,if_pos known]

theorem receive_login (login : IsLogin msg) (stepped : Server.step library s (.receive sessionId msg) = some next) :
    next = { s with loginStrand := s.loginStrand ++ [⟨s.users.getUserId sessionId,sessionId,0,msg⟩] } := by
  obtain ⟨kind,known⟩ := login
  rw [receive_heard stepped]
  unfold onMsgReceive ClientSession.pack
  dsimp only
  rw [kind,if_neg (by decide),if_pos rfl,if_pos (by rw [known]; decide)]

theorem replyToSession_strands (s : Server) (pack : MsgPack) (reply : EncodeMessage) :
    (s.replyToSession pack reply).after.loginStrand = s.loginStrand ∧
      (s.replyToSession pack reply).after.roomStrand = s.roomStrand := by
  obtain ⟨n,sent⟩ := sendMessageToSession_server s pack.senderSessionId reply
  unfold replyToSession Outcome.after
  dsimp only
  rw [sent]
  exact ⟨rfl,rfl⟩

theorem handleLogin_strands (s : Server) (turn : Turn) (pack : MsgPack) :
    (s.handleLogin turn pack).after.loginStrand = s.loginStrand ∧ (s.handleLogin turn pack).after.roomStrand = s.roomStrand := by
  unfold handleLogin
  split
  · unfold handleLoginRequest
    split
    · exact ⟨rfl,rfl⟩
    exact replyToSession_strands _ pack _
  · exact ⟨rfl,rfl⟩

theorem runLogin_strands {turn : Turn} (stepped : Server.step library s (.runLogin turn) = some next) :
    ∃ pack, s.loginStrand = pack :: next.loginStrand ∧ next.roomStrand = s.roomStrand := by
  cases step_stepped stepped with
  | @runLogin turn pack rest first =>
    obtain ⟨logins,rooms⟩ := handleLogin_strands { s with loginStrand := rest } turn pack
    exact ⟨pack,logins.symm ▸ first,rooms⟩

theorem roomRun_strands {turn : Turn} {pack : MsgPack} {out : Server.Outcome} (run : RoomRun library s turn pack out) :
    out.after.loginStrand = s.loginStrand ∧ out.after.roomStrand = s.roomStrand := by
  cases run with
  | user kind speaks served replies small reports aside => exact ⟨rfl,rfl⟩
  | session kind speaks replies text => exact replyToSession_strands s pack _
  | idle kind => exact ⟨rfl,rfl⟩
  | throws mute served => exact ⟨rfl,rfl⟩
  | crashes reads empty => exact ⟨rfl,rfl⟩

theorem runRoom_strands {turn : Turn} (live : s.Live) (stepped : Server.step library s (.runRoom turn) = some next) :
    ∃ pack, s.roomStrand = pack :: next.roomStrand ∧ next.loginStrand = s.loginStrand := by
  cases step_stepped stepped with
  | @runRoom turn pack rest first =>
    obtain ⟨living,run⟩ := first_runs live first
    obtain ⟨logins,rooms⟩ := roomRun_strands run
    exact ⟨pack,rooms.symm ▸ first,logins⟩

end Strands

-- The frames of a stream of requests, as the encoder makes them.
structure Requests (frames : List (List UInt8)) : Prop where
  expected : ClientSession.Expected frames
  asks : ∀ frame ∈ frames, (IsLogin (frameMessage frame) ∨ IsRoom (frameMessage frame)) ∧ (frameMessage frame).payload ≠ []

structure Flow (sessionId : SessionId) (frames : List (List UInt8)) (p : Pipeline) : Prop where
  live : p.server.Live
  identity : p.session.sessionId = sessionId
  intact : p.session.Intact
  sent : p.data ++ p.coming = frames.flatten
  pending : p.session.pending = (framing.split p.data).2
  decoded : ∃ front, whole p.data = front ++ p.decoded.map (·.msg)
  packs : ∀ pack ∈ p.decoded, pack = ClientSession.pack sessionId pack.msg
  waiting : ∀ pack ∈ p.server.loginStrand, pack.senderSessionId = sessionId ∧ IsLogin pack.msg ∧ pack.msg.payload ≠ []
  bound : p.server.users.getUserId sessionId = (lastUser p.logins).getD 0

section Steps
variable {library : JsonLibrary} {sessionId : SessionId} {frames : List (List UInt8)} {p next : Pipeline}

theorem passed_front {front : List DecodedMessage} (split : whole p.data = front ++ p.decoded.map (·.msg)) :
    p.passed = front := by
  rw [passed,split,List.length_append,List.length_map,Nat.add_sub_cancel,List.take_left]

theorem whole_append (data chunk : List UInt8) : whole (data ++ chunk) =
    whole data ++ (framing.split ((framing.split data).2 ++ chunk)).1.map frameMessage := by
  rw [whole,Framing.split_append,List.map_append,whole]

theorem read_flow (requests : Requests frames) (flow : p.Flow sessionId frames) {size : Nat} {heap : Nat → UInt8}
    (idle : p.decoded = []) (positive : 0 < size) (small : size ≤ 4096) (inside : size ≤ p.coming.length)
    (read : p.onRead size heap = some next) :
    next.Flow sessionId frames ∧ next.passed = p.passed ++ p.lost (p.coming.take size) ∧ next.posted = p.posted := by
  obtain ⟨⟨session,packs⟩,received,rfl⟩ := Option.map_eq_some_iff.mp read
  have length : (p.coming.take size).length = size := by rw [List.length_take,Nat.min_eq_left inside]
  have some_ : p.coming.take size ≠ [] := List.ne_nil_of_length_pos (by omega)
  obtain ⟨rest,parts,arriving⟩ := Framing.split_prefix requests.expected.valid flow.sent
  rw [← flow.pending] at arriving
  have unfinished : framing.size p.session.pending = none := flow.pending ▸ Framing.split_unfinished p.data
  have expected : ClientSession.Expected rest := ClientSession.expected_rest (parts ▸ requests.expected)
  have cut : p.session.pending ++ (p.coming.take size ++ p.coming.drop size) = rest.flatten := by
    rw [List.take_append_drop]
    exact arriving
  have fits := ClientSession.held_fits flow.intact expected unfinished some_
    (by rw [length]; simp only [protoHeaderSize,chunkSize,ClientSession.readBufferSize]; omega) cut
  rw [← List.append_assoc] at cut
  obtain ⟨later,completed,start⟩ := Framing.split_prefix expected.valid cut
  have filled : (⟨p.coming.take size,heap⟩ : ClientSession.Read).data ≠ [] := some_
  obtain ⟨other,same,intact,identity,left⟩ :=
    ClientSession.onSocketRecv_start flow.intact filled fits expected completed start
  obtain ⟨rfl,made⟩ := Prod.mk.inj (Option.some.inj (received.symm.trans same))
  have grown := whole_append p.data (p.coming.take size)
  have tail := congrArg Prod.snd (Framing.split_append (F := framing) p.data (p.coming.take size))
  dsimp only at tail
  rw [← flow.pending] at grown tail
  have before : p.passed = whole p.data := by
    apply passed_front
    rw [idle,List.map_nil,List.append_nil]
  have sent : (p.data ++ p.coming.take size) ++ p.coming.drop size = frames.flatten := by
    rw [List.append_assoc,List.take_append_drop]
    exact flow.sent
  have pending : session.pending = (framing.split (p.data ++ p.coming.take size)).2 := left.trans tail.symm
  by_cases short : (framing.split (p.session.pending ++ p.coming.take size)).2.length < protoHeaderSize
  · rw [if_pos short] at made
    subst made
    have decoded : whole (p.data ++ p.coming.take size) = whole p.data ++
        (((framing.split (p.session.pending ++ p.coming.take size)).1.map frameMessage).map
          (ClientSession.pack p.session.sessionId)).map (·.msg) := by
      have back : (fun pack : MsgPack => pack.msg) ∘ ClientSession.pack p.session.sessionId = id := rfl
      rw [grown,List.map_map,back,List.map_id]
    have kept : p.lost (p.coming.take size) = [] := by
      rw [lost,tail,if_neg (Nat.not_le.mpr short)]
    refine ⟨⟨flow.live,identity.trans flow.identity,intact,sent,pending,⟨_,decoded⟩,?_,flow.waiting,flow.bound⟩,?_,rfl⟩
    · intro pack member
      obtain ⟨msg,-,rfl⟩ := List.mem_map.mp member
      rw [flow.identity]
      rfl
    · rw [kept,before,List.append_nil]
      exact passed_front decoded
  · rw [if_neg short] at made
    subst made
    have dropped : p.lost (p.coming.take size) =
        (framing.split (p.session.pending ++ p.coming.take size)).1.map frameMessage := by
      rw [lost,tail,if_pos (Nat.le_of_not_lt short),grown,List.drop_left]
    have decoded : whole (p.data ++ p.coming.take size) = (p.passed ++ p.lost (p.coming.take size)) ++ [] := by
      rw [before,dropped,grown,List.append_nil]
    refine ⟨⟨flow.live,identity.trans flow.identity,intact,sent,pending,⟨_,decoded⟩,?_,flow.waiting,flow.bound⟩,?_,rfl⟩
    · exact fun _ member => (List.not_mem_nil member).elim
    · exact passed_front decoded

theorem whole_asks (requests : Requests frames) (flow : p.Flow sessionId frames) :
    ∀ msg ∈ whole p.data, (IsLogin msg ∨ IsRoom msg) ∧ msg.payload ≠ [] := by
  obtain ⟨rest,parts,-⟩ := Framing.split_prefix requests.expected.valid flow.sent
  intro msg member
  obtain ⟨frame,inside,rfl⟩ := List.mem_map.mp member
  exact requests.asks frame (parts ▸ List.mem_append_left _ inside)

-- One message taken up: a login request is posted, and a room request under the user
-- of the last login run.
theorem route_flow (requests : Requests frames) (flow : p.Flow sessionId frames) {pack : MsgPack} {rest : List MsgPack}
    (first : p.decoded = pack :: rest) {server : Server} {stamps : List UserId}
    (stepped : Server.step library p.server (.receive pack.senderSessionId pack.msg) = some server) :
    ({ p with server := server, decoded := rest, stamps := stamps } : Pipeline).Flow sessionId frames ∧
      ({ p with server := server, decoded := rest, stamps := stamps } : Pipeline).passed = p.passed ++ [pack.msg] ∧
      ({ p with server := server, decoded := rest, stamps := stamps } : Pipeline).posted = p.posted ++
        if IsRoom pack.msg then [⟨(lastUser p.logins).getD 0,sessionId,0,pack.msg⟩] else [] := by
  obtain ⟨front,split⟩ := flow.decoded
  have before := passed_front split
  have packed := flow.packs pack (first ▸ List.mem_cons_self ..)
  have session : pack.senderSessionId = sessionId := by rw [packed]; rfl
  have asks := whole_asks requests flow pack.msg (by rw [split,first]; simp)
  have live := step_live flow.live stepped
  have moved : whole p.data = (front ++ [pack.msg]) ++ rest.map (·.msg) := by
    rw [split,first,List.map_cons,List.append_assoc]
    rfl
  have packs : ∀ other ∈ rest, other = ClientSession.pack sessionId other.msg :=
    fun other member => flow.packs other (first ▸ List.mem_cons_of_mem _ member)
  rw [session] at stepped
  rcases asks.1 with login | room
  · have after := receive_login login stepped
    have waiting : ∀ other ∈ server.loginStrand, other.senderSessionId = sessionId ∧ IsLogin other.msg ∧
        other.msg.payload ≠ [] := by
      rw [after]
      intro other member
      rcases List.mem_append.mp member with old | new
      · exact flow.waiting other old
      · rw [List.mem_singleton.mp new]
        exact ⟨rfl,login,asks.2⟩
    have users : server.users = p.server.users := by rw [after]
    have rooms : server.roomStrand = p.server.roomStrand := by rw [after]
    refine ⟨⟨live,flow.identity,flow.intact,flow.sent,flow.pending,⟨_,moved⟩,packs,waiting,?_⟩,?_,?_⟩
    · rw [users]
      exact flow.bound
    · rw [before]
      exact passed_front moved
    · rw [if_neg (login_not_room login),List.append_nil,posted,posted,rooms]
  · have after := receive_room room stepped
    have waiting : server.loginStrand = p.server.loginStrand := by rw [after]
    have users : server.users = p.server.users := by rw [after]
    have rooms : server.roomStrand = p.server.roomStrand ++ [⟨(lastUser p.logins).getD 0,sessionId,0,pack.msg⟩] := by
      rw [after,flow.bound]
    refine ⟨⟨live,flow.identity,flow.intact,flow.sent,flow.pending,⟨_,moved⟩,packs,?_,?_⟩,?_,?_⟩
    · rw [waiting]
      exact flow.waiting
    · rw [users]
      exact flow.bound
    · rw [before]
      exact passed_front moved
    · rw [if_pos room,posted,posted,rooms,List.append_assoc]

theorem login_named (turn : Turn) {pack : MsgPack} (filled : pack.msg.payload ≠ []) :
    loginUser turn pack = namedUser pack.msg := by
  have size (past : Nat → UInt8) : (RequestPayload.readPair past pack.msg.payload).first.length =
      (pack.msg.payload.getD 0 0).toNat := by
    rw [RequestPayload.readPair]
    dsimp only
    rw [RequestPayload.copied,List.length_map,List.length_range,RequestPayload.byteAt_inside (List.length_pos_of_ne_nil filled)]
  unfold namedUser loginUser validateLogin ClientSession.pack
  dsimp only
  rw [size,size]

theorem lastUser_snoc (logins : List MsgPack) (pack : MsgPack) : lastUser (logins ++ [pack]) = some (namedUser pack.msg) := by
  rw [lastUser,List.getLast?_concat,Option.map_some]

theorem runLogin_flow (flow : p.Flow sessionId frames) (real : sessionId ≠ 0) {turn : Turn} {server : Server}
    (stepped : Server.step library p.server (.runLogin turn) = some server) :
    ({ p with server := server, logins := p.logins ++ p.server.loginStrand.head?.toList } : Pipeline).Flow sessionId frames ∧
      server.roomStrand = p.server.roomStrand := by
  obtain ⟨pack,strand,rooms⟩ := runLogin_strands stepped
  obtain ⟨other,_,queue,users⟩ := runLogin_users stepped
  have same : other = pack := (List.cons.inj (queue.symm.trans strand)).1
  subst same
  obtain ⟨session,login,filled⟩ := flow.waiting other (strand ▸ List.mem_cons_self ..)
  have logins : p.logins ++ p.server.loginStrand.head?.toList = p.logins ++ [other] := by rw [strand]; rfl
  refine ⟨⟨step_live flow.live stepped,flow.identity,flow.intact,flow.sent,flow.pending,flow.decoded,flow.packs,?_,?_⟩,rooms⟩
  · exact fun waits member => flow.waiting waits (strand ▸ List.mem_cons_of_mem _ member)
  · dsimp only
    have accepted : ¬ (LoginResult.success ≠ LoginResult.success ∨ loginUser turn other = 0 ∨ other.senderSessionId = 0) := by
      rintro (failed | nobody | nowhere)
      · exact failed rfl
      · exact loginUser_real turn other nobody
      · exact real (session ▸ nowhere)
    rw [users,if_pos ⟨login.2,filled⟩,UserSessionMap.onUserLogin,if_neg accepted,UserSessionMap.getUserId,UserSessionMap.bind_session,
      if_pos session.symm,logins,lastUser_snoc,login_named turn filled]

theorem runRoom_flow (flow : p.Flow sessionId frames) {turn : Turn} {server : Server}
    (stepped : Server.step library p.server (.runRoom turn) = some server) :
    ({ p with server := server, handled := p.handled ++ p.server.roomStrand.head?.toList } : Pipeline).Flow sessionId frames ∧
      (p.handled ++ p.server.roomStrand.head?.toList) ++ server.roomStrand = p.posted := by
  obtain ⟨pack,strand,logins⟩ := runRoom_strands flow.live stepped
  have users := step_users flow.live stepped nofun
  refine ⟨⟨step_live flow.live stepped,flow.identity,flow.intact,flow.sent,flow.pending,flow.decoded,flow.packs,?_,?_⟩,?_⟩
  · dsimp only
    rw [logins]
    exact flow.waiting
  · dsimp only
    rw [users]
    exact flow.bound
  · rw [posted,strand,List.append_assoc]
    rfl

-- All a step does to what is compared with the stream: it drops what a read loses,
-- posts what the router takes up, or moves a request from waiting to run.
inductive Moves (p next : Pipeline) : Event → Prop where
  | reads {size : Nat} {heap : Nat → UInt8} (passed : next.passed = p.passed ++ p.lost (p.coming.take size))
      (posted : next.posted = p.posted) (stamps : next.stamps = p.stamps) : Moves p next (.read size heap)
  | routes {pack : MsgPack} {rest : List MsgPack} {sessionId : SessionId} (first : p.decoded = pack :: rest)
      (passed : next.passed = p.passed ++ [pack.msg])
      (posted : next.posted = p.posted ++ if IsRoom pack.msg then [⟨(lastUser p.logins).getD 0,sessionId,0,pack.msg⟩] else [])
      (stamps : next.stamps = p.stamps ++ if IsRoom pack.msg then [(lastUser p.logins).getD 0] else []) : Moves p next .route
  | runs {event : Event} (handler : (∃ turn, event = .runLogin turn) ∨ ∃ turn, event = .runRoom turn)
      (passed : next.passed = p.passed) (posted : next.posted = p.posted) (stamps : next.stamps = p.stamps) :
      Moves p next event

theorem step_moves (requests : Requests frames) (real : sessionId ≠ 0) (flow : p.Flow sessionId frames) {event : Event}
    (stepped : step library p event = some next) : next.Flow sessionId frames ∧ Moves p next event := by
  cases event with
  | read size heap =>
    unfold step at stepped
    dsimp only at stepped
    split at stepped
    · rename_i bounds
      obtain ⟨-,idle,positive,small,inside⟩ := bounds
      obtain ⟨flows,passed,posted⟩ := read_flow requests flow idle positive small inside stepped
      obtain ⟨result,-,rfl⟩ := Option.map_eq_some_iff.mp stepped
      exact ⟨flows,.reads passed posted rfl⟩
    · cases stepped
  | route =>
    unfold step at stepped
    dsimp only at stepped
    split at stepped
    · cases stepped
    · rename_i pack rest first
      obtain ⟨server,received,rfl⟩ := Option.map_eq_some_iff.mp stepped
      obtain ⟨flows,passed,posted⟩ := route_flow requests flow first received
      exact ⟨flows,.routes first passed posted rfl⟩
  | runLogin turn =>
    obtain ⟨server,ran,rfl⟩ := Option.map_eq_some_iff.mp stepped
    obtain ⟨flows,rooms⟩ := runLogin_flow flow real ran
    exact ⟨flows,.runs (.inl ⟨turn,rfl⟩) rfl (congrArg (p.handled ++ ·) rooms) rfl⟩
  | runRoom turn =>
    obtain ⟨server,ran,rfl⟩ := Option.map_eq_some_iff.mp stepped
    obtain ⟨flows,posted⟩ := runRoom_flow flow ran
    exact ⟨flows,.runs (.inr ⟨turn,rfl⟩) rfl posted rfl⟩

theorem moves_stamped {event : Event} (moves : Moves p next event) (stamped : p.Stamped) : next.Stamped := by
  unfold Stamped at *
  cases moves with
  | reads passed posted stamps => rw [posted,stamps,stamped]
  | routes first passed posted stamps =>
    rw [posted,stamps,List.map_append,stamped]
    split <;> rfl
  | runs handler passed posted stamps => rw [posted,stamps,stamped]

theorem heard_real {last : Option UserId} {msgs : List DecodedMessage} {user : UserId}
    (before : ∀ user, last = some user → user ≠ 0) (named : heard last msgs = some user) : user ≠ 0 := by
  induction msgs generalizing last with
  | nil => exact before user named
  | cons msg rest ih =>
    refine ih ?_ named
    intro other same
    dsimp only at same
    split at same
    · cases same
      exact loginUser_real _ _
    · exact before other same

theorem stamp_exact {logins : List MsgPack} {msgs : List DecodedMessage} {user : UserId} (named : heard none msgs = some user) :
    (lastUser logins).getD 0 = user ↔ lastUser logins = some user := by
  have before : ∀ user, (none : Option UserId) = some user → user ≠ 0 := nofun
  have someone := heard_real before named
  cases lastUser logins with
  | none => exact iff_of_false (fun same => someone same.symm) nofun
  | some other => rw [Option.getD_some,Option.some.injEq]

theorem forall₂_snoc {α β : Type} {related : α → β → Prop} {xs : List α} {ys : List β} (holds : List.Forall₂ related xs ys)
    (x : α) (y : β) : List.Forall₂ related (xs ++ [x]) (ys ++ [y]) ↔ related x y := by
  induction holds with
  | nil => simp
  | cons head tail ih => simp [head,ih]

theorem forall₂_more {α β : Type} {related : α → β → Prop} {xs more : List α} {ys : List β}
    (holds : List.Forall₂ related xs ys) : List.Forall₂ related (xs ++ more) ys ↔ more = [] := by
  refine ⟨?_,?_⟩
  · intro longer
    have one := holds.length_eq
    have other := longer.length_eq
    rw [List.length_append] at other
    exact List.eq_nil_of_length_eq_zero (by omega)
  · rintro rfl
    rwa [List.append_nil]

theorem moves_identified {event : Event} (moves : Moves p next event) (identified : p.Identified) :
    next.Identified ↔ p.Timely event next := by
  unfold Identified
  cases moves with
  | reads passed posted stamps =>
    rw [passed,posted,awaited_append,forall₂_more identified]
    exact ⟨roomless_awaited,awaited_none⟩
  | @routes pack rest sessionId first passed posted stamps =>
    rw [passed,posted,awaited_append]
    by_cases room : IsRoom pack.msg
    · rw [if_pos room,awaited_room room,forall₂_snoc identified]
      refine ⟨?_,?_⟩
      · intro carries other others user same _ named
        cases first.symm.trans same
        exact (stamp_exact named).mp (carries.2 user named)
      · intro timely
        exact ⟨rfl,fun user named => (stamp_exact named).mpr (timely pack rest user first room named)⟩
    · have unposted : awaited (heard none p.passed) [pack.msg] = [] :=
        awaited_none fun msg member => List.mem_singleton.mp member ▸ room
      rw [if_neg room,unposted,List.append_nil,List.append_nil]
      refine iff_of_true identified ?_
      intro other others user same asks
      cases first.symm.trans same
      exact absurd asks room
  | runs handler passed posted stamps =>
    rw [passed,posted]
    rcases handler with ⟨turn,rfl⟩ | ⟨turn,rfl⟩ <;> exact iff_of_true identified True.intro

theorem opened_flow {s : Server} {msgs : List EncodeMessage} (accepted : Accepted s sessionId)
    (asked : ∀ msg ∈ msgs, IsRequest msg) : (opened s sessionId msgs).Flow sessionId (msgs.flatMap MTcpCodec.frames) := by
  have nothing : framing.split [] = ([],[]) := Framing.split_none Framing.size_nil
  refine ⟨accepted.live,rfl,ClientSession.create_intact sessionId,?_,?_,⟨[],?_⟩,?_,?_,accepted.nobody⟩
  · exact stream_frames fun msg member => (asked msg member).encodable
  · dsimp only [opened]
    rw [ClientSession.create_pending,nothing]
  · dsimp only [opened]
    rw [whole,nothing]
    rfl
  · exact fun _ member => (List.not_mem_nil member).elim
  · dsimp only [opened]
    rw [accepted.loginsDone]
    exact fun _ member => (List.not_mem_nil member).elim

theorem asked_requests {msgs : List EncodeMessage} (asked : ∀ msg ∈ msgs, IsRequest msg) :
    Requests (msgs.flatMap MTcpCodec.frames) := by
  refine ⟨ClientSession.frames_expected msgs,?_⟩
  intro frame member
  obtain ⟨msg,listed,inside⟩ := List.mem_flatMap.mp member
  obtain ⟨seq,range,rfl⟩ := List.mem_map.mp inside
  obtain ⟨encodable,kind⟩ := asked msg listed
  rw [encodeFrame_message]
  refine ⟨kind,?_⟩
  have filled := encodable.nonempty
  have below := List.mem_range.mp range
  dsimp only
  rw [totalFrames,chunkSize] at below
  rw [← List.length_pos_iff,fragment,List.length_take,List.length_drop,chunkSize]
  omega

end Steps

-- However the stream is cut and the strands run, each room request is under the user
-- of the last login that ran before the router took it up, and the requests of the
-- stream all come to their strand under the user of the last login request before
-- them exactly when the reads and the logins are in time.
theorem pipelined_identity (library : JsonLibrary) (s : Server) (sessionId : SessionId) (accepted : Accepted s sessionId)
    (msgs : List EncodeMessage) (asked : ∀ msg ∈ msgs, IsRequest msg) (events : List Event) :
    Machine.Always (step library) Stamped (opened s sessionId msgs) events ∧
      (Machine.Always (step library) Identified (opened s sessionId msgs) events ↔
        Machine.Every (step library) Timely (opened s sessionId msgs) events) := by
  have requests := asked_requests asked
  have flow := opened_flow accepted asked
  obtain ⟨session,found⟩ := UnorderedMap.mem_iff_lookup.mp accepted.present
  have real := (accepted.live.sessions _ _ found).1
  have posted : (opened s sessionId msgs).posted = [] := accepted.roomsDone
  have passed : (opened s sessionId msgs).passed = [] := by
    obtain ⟨front,split⟩ := flow.decoded
    rw [passed_front split]
    have nothing : whole [] = [] := by rw [whole,Framing.split_none Framing.size_nil]; rfl
    exact (List.append_eq_nil_iff.mp (split.symm.trans nothing)).1
  have stamped : (opened s sessionId msgs).Stamped := by
    rw [Stamped,posted]
    rfl
  have identified : (opened s sessionId msgs).Identified := by
    rw [Identified,posted,passed]
    exact .nil
  refine ⟨?_,?_⟩
  · intro earlier later reached _ path
    have kept : ∀ (p : Pipeline) event next, p.Flow sessionId (msgs.flatMap MTcpCodec.frames) ∧ p.Stamped →
        step library p event = some next → next.Flow sessionId (msgs.flatMap MTcpCodec.frames) ∧ next.Stamped :=
      fun p event next holds stepped =>
        have moves := step_moves requests real holds.1 stepped
        ⟨moves.1,moves_stamped moves.2 holds.2⟩
    exact (Machine.run_preserves kept ⟨flow,stamped⟩ path).2
  · exact Machine.always_iff_guarded (fun p event next flow _ stepped _ => (step_moves requests real flow stepped).1)
      (fun p event next flow identified stepped => moves_identified (step_moves requests real flow stepped).2 identified)
      flow identified

theorem step_unread {library : JsonLibrary} (p : Pipeline) (session : ClientSession) {event : Event}
    (unread : ∀ size heap, event ≠ .read size heap) : step library { p with session := session } event =
      (step library p event).map fun next => { next with session := session } := by
  cases event with
  | read size heap => exact (unread size heap rfl).elim
  | route =>
    unfold step
    dsimp only
    split
    · rfl
    · rw [Option.map_map]
      rfl
  | runLogin turn =>
    unfold step
    rw [Option.map_map]
    rfl
  | runRoom turn =>
    unfold step
    rw [Option.map_map]
    rfl

theorem run_unread {library : JsonLibrary} (p : Pipeline) (session : ClientSession) {events : List Event}
    (unread : ∀ event ∈ events, ∀ size heap, event ≠ .read size heap) :
    Machine.run (step library) { p with session := session } events =
      (Machine.run (step library) p events).map fun next => { next with session := session } := by
  induction events generalizing p with
  | nil => rfl
  | cons event rest ih =>
    have first : step library { p with session := session } event = _ :=
      step_unread p session (unread event (List.mem_cons_self ..))
    have later := fun next => ih next fun other member => unread other (List.mem_cons_of_mem _ member)
    rw [Machine.run_cons,first,Machine.run_cons]
    cases step library p event with
    | none => rfl
    | some next => exact later next

def loginRequest : EncodeMessage := ⟨1,ProtoType.data,MsgType.loginReq,0,RequestPayload.spelled [65] []⟩
def listRequest : EncodeMessage := ⟨2,ProtoType.data,MsgType.roomReq,RoomReqType.listRooms,[0]⟩
def pair : List EncodeMessage := [loginRequest,listRequest]

theorem pair_requests : ∀ msg ∈ pair, IsRequest msg := by
  intro msg member
  simp only [pair,List.mem_cons,List.not_mem_nil,or_false] at member
  rcases member with rfl | rfl
  · exact ⟨⟨by decide,by decide,by decide⟩,.inl ⟨rfl,rfl⟩⟩
  · exact ⟨⟨by decide,by decide,by decide⟩,.inr ⟨rfl,by decide,by decide⟩⟩

theorem firstSession_accepted : Accepted firstSession 1 :=
  ⟨createSession_live (start_live _),by decide +kernel,by decide +kernel,by decide +kernel,by decide +kernel⟩

def pairRead : Pipeline := { opened firstSession 1 [] with
  decoded := (pair.flatMap decodedFragments).map (ClientSession.pack 1)
  data := stream pair }

theorem pair_read : ∃ session, ∀ later, (∀ event ∈ later, ∀ size heap, event ≠ .read size heap) →
    Machine.run (step Json.compact) (opened firstSession 1 pair) (.read 60 (fun _ => 0) :: later) =
      (Machine.run (step Json.compact) pairRead later).map fun p => { p with session := session } := by
  have length : (stream pair).length = 60 := by decide +kernel
  have all : (stream pair).take 60 = stream pair := List.take_of_length_le (Nat.le_of_eq length)
  have encodable : ∀ msg ∈ pair, MTcpCodec.Encodable msg := fun msg member => (pair_requests msg member).encodable
  have filled : (⟨stream pair,fun _ => 0⟩ : ClientSession.Read).data ≠ [] := List.ne_nil_of_length_pos (by rw [length]; omega)
  have fits : (ClientSession.create 1).bufferUsed + (stream pair).length ≤ ClientSession.readBufferSize := by
    rw [length]
    decide
  obtain ⟨session,received,-⟩ := ClientSession.onSocketRecv_pending (ClientSession.create_intact 1) filled fits
  rw [ClientSession.decoded_pending (ClientSession.create_intact 1),ClientSession.create_pending,List.nil_append,
    decode_stream encodable (List.cons_ne_nil _ _)] at received
  refine ⟨session,?_⟩
  intro later unread
  have first : step Json.compact (opened firstSession 1 pair) (.read 60 (fun _ => 0)) =
      some { pairRead with session := session } := by
    have admitted : firstSession.ended = false ∧ ([] : List MsgPack) = [] ∧ 0 < 60 ∧ 60 ≤ 4096 ∧ 60 ≤ (stream pair).length :=
      ⟨rfl,rfl,by omega,by omega,Nat.le_of_eq length.symm⟩
    have left : (stream pair).drop 60 = [] := List.drop_of_length_le (Nat.le_of_eq length)
    unfold step opened onRead
    dsimp only
    rw [if_pos admitted,all,received,left]
    rfl
  rw [Machine.run_cons,first]
  exact run_unread pairRead session unread

def loginRunsFirst : List Event := [.route,.runLogin blankTurn,.route,.runRoom blankTurn]

theorem late_request_stamped :
    Machine.Always (step Json.compact) Stamped (opened firstSession 1 pair) (.read 60 (fun _ => 0) :: loginRunsFirst) ∧
      (Machine.run (step Json.compact) (opened firstSession 1 pair) (.read 60 (fun _ => 0) :: loginRunsFirst)).map (·.stamps) =
        some [124] := by
  refine ⟨(pipelined_identity Json.compact firstSession 1 firstSession_accepted pair pair_requests _).1,?_⟩
  obtain ⟨session,path⟩ := pair_read
  have stamps : (Machine.run (step Json.compact) pairRead loginRunsFirst).map (·.stamps) = some [124] := by decide +kernel
  rw [path loginRunsFirst (by simp [loginRunsFirst]),Option.map_map]
  exact stamps

-- The router takes up both before the login runs, and the request comes from nobody.
theorem request_overtakes_login : ¬ ∀ (s : Server) (sessionId : SessionId), Accepted s sessionId →
    ∀ msgs, (∀ msg ∈ msgs, IsRequest msg) → ∀ events,
      Machine.Always (step Json.compact) Identified (opened s sessionId msgs) events := by
  intro identified
  have seen : (Machine.run (step Json.compact) pairRead [.route,.route,.runLogin blankTurn,.runRoom blankTurn]).map
      (fun p => ((awaited none p.passed).map (·.1),p.posted.map (·.senderId))) = some ([some 124],[0]) := by decide +kernel
  obtain ⟨p,run,looked⟩ := Option.map_eq_some_iff.mp seen
  obtain ⟨due,ids⟩ := Prod.mk.inj looked
  obtain ⟨session,path⟩ := pair_read
  have reached := path [.route,.route,.runLogin blankTurn,.runRoom blankTurn] (by simp)
  rw [run] at reached
  have carried := identified firstSession 1 firstSession_accepted pair pair_requests _ _ [] _ (List.append_nil _).symm reached
  have forgets : ({ p with session := session } : Pipeline).Identified ↔ p.Identified := Iff.rfl
  rw [forgets,Identified] at carried
  generalize awaited none p.passed = dues at carried due
  generalize p.posted = packs at carried ids
  cases carried with
  | nil => cases due
  | cons first others =>
    obtain ⟨named,-⟩ := List.cons.inj due
    obtain ⟨stamp,-⟩ := List.cons.inj ids
    cases stamp.symm.trans (first.2 124 named)

end Pipeline
end GameServer
