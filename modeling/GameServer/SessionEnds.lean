import GameServer.Presence
import GameServer.ServerRuns

namespace GameServer.Server
open Foundation RequestPayload

-- The server together with what its past asks of it: the sessions that were closed
-- and not created anew, those that logged out and not in again, and the users they
-- spoke for that have not logged in since.
structure Watch where
  server : Server
  closed : List SessionId := []
  loggedOut : List SessionId := []
  departed : List UserId := []

def loginUser (turn : Turn) (pack : MsgPack) : UserId := (validateLogin (readPair turn.past pack.msg.payload).first).1

def boundTo (s : Server) (sessionId : SessionId) : List UserId :=
  (s.users.userToSession.keys.filter fun id => s.users.userToSession.lookup id = some sessionId) ++
    (if s.users.getUserId sessionId = 0 then [] else [s.users.getUserId sessionId])

namespace Watch

def ends (w : Watch) (sessionId : SessionId) (next : Server) : Watch :=
  { w with server := next, departed := w.server.boundTo sessionId ++ w.departed }

def note (w : Watch) (next : Server) : Event → Watch
  | .connect => { w with server := next, closed := w.closed.filter (· ∉ next.sessions) }
  | .close sessionId =>
    if sessionId ∈ w.server.sessions then { w.ends sessionId next with closed := sessionId :: w.closed }
    else { w with server := next }
  | .runLogin turn => match w.server.loginStrand with
    | [] => { w with server := next }
    | pack :: _ =>
      if LogsIn pack then { w with
        server := next
        loggedOut := w.loggedOut.filter (· ≠ pack.senderSessionId)
        departed := w.departed.filter (· ≠ loginUser turn pack) }
      else if pack.msg.subType = 1 ∧ w.server.users.getUserId pack.senderSessionId ≠ 0 then
        { w.ends pack.senderSessionId next with loggedOut := pack.senderSessionId :: w.loggedOut }
      else { w with server := next }
  | _ => { w with server := next }

def step (library : JsonLibrary) (w : Watch) (event : Event) : Option Watch :=
  (Server.step library w.server event).map fun next => w.note next event

end Watch

-- The session map knows nothing of the session.
structure Unnamed (s : Server) (sessionId : SessionId) : Prop where
  user : s.users.getUserId sessionId = 0
  nobody : ∀ id, s.users.userToSession.lookup id ≠ some sessionId

-- An ended session stands for nobody, and who it stood for is no online player.
structure Ended (w : Watch) : Prop where
  silent : ∀ sessionId ∈ w.closed ++ w.loggedOut, w.server.Unnamed sessionId
  offline : ∀ id ∈ w.departed, w.server.lobby.presence id = none

-- No session ends that the session map knows, and no login is handled for a session
-- closed in the meantime.
def Uninvolved (w : Watch) : Event → Watch → Prop
  | .close sessionId,_ => sessionId ∈ w.server.sessions → w.server.Unnamed sessionId
  | .runLogin _,_ => ∀ pack rest, w.server.loginStrand = pack :: rest →
      (LogsIn pack → pack.senderSessionId ∉ w.closed) ∧
        (pack.msg.subType = 1 → w.server.users.getUserId pack.senderSessionId = 0)
  | _,_ => True

structure Watched (w : Watch) : Prop where
  live : w.server.Live
  real : ∀ sessionId ∈ w.closed, sessionId ≠ 0
  nobody : w.departed = []

section Ending
variable {library : JsonLibrary} {s next : Server} {w : Watch} {event : Event}

theorem loginUser_real (turn : Turn) (pack : MsgPack) : loginUser turn pack ≠ 0 := by
  have short := (readPair_short turn.past pack.msg.payload).1
  unfold loginUser validateLogin
  intro zero
  have value := congrArg UInt32.toNat zero
  have small : (readPair turn.past pack.msg.payload).first.length < UInt32.size :=
    Nat.lt_of_le_of_lt short (by decide)
  simp only [UInt32.toNat_add,UInt32.toNat_ofNat_of_lt' small,UInt32.reduceToNat] at value
  omega

theorem handleLogin_users (turn : Turn) (pack : MsgPack) : (s.handleLogin turn pack).after.users =
    if LogsIn pack then s.users.onUserLogin ⟨.success,loginUser turn pack,pack.senderSessionId,[]⟩
    else s.users := by
  unfold handleLogin
  split
  · rename_i login
    unfold handleLoginRequest
    split
    · rename_i empty
      rw [if_neg fun logs : LogsIn pack => logs.2 empty]
      rfl
    rename_i filled
    rw [if_pos (show LogsIn pack from ⟨login,filled⟩)]
    unfold replyToSession Outcome.after
    dsimp only
    generalize (⟨pack.msg.msgId,_,_,_,_⟩ : EncodeMessage) = msg
    obtain ⟨n,sent⟩ := sendMessageToSession_server { s with
      users := s.users.onUserLogin ⟨.success,loginUser turn pack,pack.senderSessionId,[]⟩
      lobby := s.lobby.onUserLogin ⟨.success,loginUser turn pack,pack.senderSessionId,[]⟩ } pack.senderSessionId msg
    exact congrArg users sent
  · rename_i other
    rw [if_neg fun logs : LogsIn pack => other logs.1]
    rfl

theorem roomRun_users {turn : Turn} {pack : MsgPack} {out : Outcome} (run : RoomRun library s turn pack out) :
    out.after.users = s.users := by
  cases run with
  | user kind speaks served replies small reports aside => rfl
  | session kind speaks replies text =>
    obtain ⟨n,sent⟩ := sendMessageToSession_server s pack.senderSessionId _
    have kept := congrArg users sent
    exact kept
  | idle kind => rfl
  | throws mute served => rfl
  | crashes reads empty => rfl

theorem step_users (live : s.Live) (stepped : Server.step library s event = some next)
    (quiet : ∀ turn, event ≠ .runLogin turn) : next.users = s.users := by
  cases step_stepped stepped with
  | connect connected => cases connected <;> rfl
  | close => rfl
  | receive present heard =>
    cases heard with
    | answered =>
      obtain ⟨n,sent⟩ := sendMessageToSession_server s _ _
      rw [sent]
    | login => rfl
    | room known => rfl
    | unknown => rfl
  | @runLogin turn pack rest first => exact (quiet turn rfl).elim
  | runRoom first =>
    obtain ⟨living,run⟩ := first_runs live first
    have kept := roomRun_users run
    exact kept

theorem runLogin_users {turn : Turn} (stepped : Server.step library s (.runLogin turn) = some next) :
    ∃ pack rest, s.loginStrand = pack :: rest ∧ next.users = if LogsIn pack
      then s.users.onUserLogin ⟨.success,loginUser turn pack,pack.senderSessionId,[]⟩ else s.users := by
  cases step_stepped stepped with
  | @runLogin turn pack rest first => exact ⟨pack,rest,first,handleLogin_users turn pack⟩

theorem unnamed_congr (same : next.users = s.users) {sessionId : SessionId} : next.Unnamed sessionId ↔ s.Unnamed sessionId := by
  refine ⟨?_,?_⟩
  · rintro ⟨user,nobody⟩
    exact ⟨same ▸ user,same ▸ nobody⟩
  · rintro ⟨user,nobody⟩
    exact ⟨same ▸ user,same ▸ nobody⟩

theorem boundTo_unnamed {sessionId : SessionId} (unnamed : s.Unnamed sessionId) : s.boundTo sessionId = [] := by
  unfold boundTo
  rw [if_pos unnamed.user,List.append_nil,List.filter_eq_nil_iff]
  intro id _ bound
  exact unnamed.nobody id (of_decide_eq_true bound)

theorem login_unnamed {user : UserId} {sessionId other : SessionId} (different : other ≠ sessionId)
    (same : next.users = s.users.onUserLogin ⟨.success,user,sessionId,[]⟩) (unnamed : s.Unnamed other) :
    next.Unnamed other := by
  unfold UserSessionMap.onUserLogin at same
  split at same
  · exact (unnamed_congr same).mpr unnamed
  · refine ⟨?_,?_⟩
    · have user_ := unnamed.user
      unfold UserSessionMap.getUserId at user_ ⊢
      rw [same,UserSessionMap.bind_session,if_neg different]
      split
      · rfl
      · exact user_
    · intro id
      rw [same,UserSessionMap.bind_user]
      split
      · exact fun here => different (Option.some.inj here).symm
      · exact unnamed.nobody id

theorem ended_kept {after : Watch} (silent : ∀ sessionId ∈ after.closed ++ after.loggedOut, after.server.Unnamed sessionId)
    (nobody : after.departed = []) : Ended after := by
  refine ⟨silent,?_⟩
  intro id gone
  rw [nobody] at gone
  cases gone

theorem quiet_ended (watched : Watched w) (ended : Ended w) (same : next.users = w.server.users) :
    Ended { w with server := next } :=
  ended_kept (fun sessionId gone => (unnamed_congr same).mpr (ended.silent sessionId gone)) watched.nobody

theorem close_ended (watched : Watched w) (ended : Ended w) {sessionId : SessionId} (same : next.users = w.server.users) :
    Ended (w.note next (.close sessionId)) ↔ (sessionId ∈ w.server.sessions → w.server.Unnamed sessionId) := by
  unfold Watch.note
  dsimp only
  split
  · rename_i live
    refine ⟨?_,?_⟩
    · intro after _
      exact (unnamed_congr same).mp (after.silent sessionId (List.mem_cons_self ..))
    · intro unnamed
      apply ended_kept
      · intro other gone
        rcases List.mem_cons.mp gone with rfl | before
        · exact (unnamed_congr same).mpr (unnamed live)
        · exact (unnamed_congr same).mpr (ended.silent other before)
      · dsimp only [Watch.ends]
        rw [boundTo_unnamed (unnamed live),watched.nobody,List.append_nil]
  · rename_i dead
    exact iff_of_true (quiet_ended watched ended same) fun live => (dead live).elim

theorem login_ended (watched : Watched w) (ended : Ended w) {turn : Turn} {pack : MsgPack} {rest : List MsgPack}
    (strand : w.server.loginStrand = pack :: rest) (login : LogsIn pack)
    (same : next.users = w.server.users.onUserLogin ⟨.success,loginUser turn pack,pack.senderSessionId,[]⟩) :
    Ended (w.note next (.runLogin turn)) ↔ pack.senderSessionId ∉ w.closed := by
  unfold Watch.note
  dsimp only
  rw [strand]
  dsimp only
  rw [if_pos login]
  refine ⟨?_,?_⟩
  · intro after gone
    have passes : ¬ ((LoginResult.success) ≠ .success ∨ loginUser turn pack = 0 ∨ pack.senderSessionId = 0) :=
      fun refused => refused.elim (· rfl) fun zero => zero.elim (loginUser_real turn pack) (watched.real _ gone)
    apply (after.silent _ (List.mem_append_left _ gone)).nobody (loginUser turn pack)
    rw [same,UserSessionMap.onUserLogin,if_neg passes,UserSessionMap.bind_user,if_pos rfl]
  · intro open_
    apply ended_kept
    · intro other gone
      rcases List.mem_append.mp gone with closed | out
      · have different : other ≠ pack.senderSessionId := fun here => open_ (here ▸ closed)
        exact login_unnamed different same (ended.silent other (List.mem_append_left _ closed))
      · obtain ⟨before,different⟩ := List.mem_filter.mp out
        exact login_unnamed (of_decide_eq_true different) same (ended.silent other (List.mem_append_right _ before))
    · dsimp only
      rw [watched.nobody]
      rfl

theorem logout_ended (watched : Watched w) (ended : Ended w) {turn : Turn} {pack : MsgPack} {rest : List MsgPack}
    (strand : w.server.loginStrand = pack :: rest) (other : ¬ LogsIn pack) (same : next.users = w.server.users) :
    Ended (w.note next (.runLogin turn)) ↔
      (pack.msg.subType = 1 → w.server.users.getUserId pack.senderSessionId = 0) := by
  unfold Watch.note
  dsimp only
  rw [strand]
  dsimp only
  rw [if_neg other]
  split
  · rename_i logout
    refine iff_of_false ?_ (fun unnamed => logout.2 (unnamed logout.1))
    intro after
    have gone := after.silent pack.senderSessionId (List.mem_append_right _ (List.mem_cons_self ..))
    exact logout.2 ((unnamed_congr same).mp gone).user
  · rename_i stays
    refine iff_of_true (quiet_ended watched ended same) ?_
    intro logout
    by_contra user
    exact stays ⟨logout,user⟩

theorem note_ended (watched : Watched w) (ended : Ended w) (stepped : Server.step library w.server event = some next) :
    Ended (w.note next event) ↔ Uninvolved w event (w.note next event) := by
  cases event with
  | connect =>
    have same := step_users watched.live stepped nofun
    refine iff_of_true (ended_kept ?_ watched.nobody) trivial
    intro sessionId gone
    apply (unnamed_congr same).mpr
    rcases List.mem_append.mp gone with closed | out
    · exact ended.silent sessionId (List.mem_append_left _ (List.mem_filter.mp closed).1)
    · exact ended.silent sessionId (List.mem_append_right _ out)
  | close sessionId => exact close_ended watched ended (step_users watched.live stepped nofun)
  | receive sessionId msg =>
    exact iff_of_true (quiet_ended watched ended (step_users watched.live stepped nofun)) trivial
  | runRoom turn => exact iff_of_true (quiet_ended watched ended (step_users watched.live stepped nofun)) trivial
  | runLogin turn =>
    obtain ⟨pack,rest,strand,same⟩ := runLogin_users stepped
    have spelled : Uninvolved w (.runLogin turn) (w.note next (.runLogin turn)) ↔
        (LogsIn pack → pack.senderSessionId ∉ w.closed) ∧
        (pack.msg.subType = 1 → w.server.users.getUserId pack.senderSessionId = 0) := by
      refine ⟨fun all => all pack rest strand,?_⟩
      intro one other others strand_
      cases strand.symm.trans strand_
      exact one
    rw [spelled]
    by_cases login : LogsIn pack
    · rw [if_pos login] at same
      rw [login_ended watched ended strand login same]
      have single : pack.msg.subType ≠ 1 := by rw [login.1]; decide
      exact ⟨fun open_ => ⟨fun _ => open_,fun logout => (single logout).elim⟩,fun both => both.1 login⟩
    · rw [if_neg login] at same
      rw [logout_ended watched ended strand login same]
      exact ⟨fun silent => ⟨fun zero => (login zero).elim,silent⟩,fun both => both.2⟩

theorem note_server : (w.note next event).server = next := by
  unfold Watch.note
  split <;> try rfl
  · split <;> rfl
  · split
    · rfl
    · split
      · rfl
      · split <;> rfl

theorem note_watched (watched : Watched w) (stepped : Server.step library w.server event = some next)
    (uninvolved : Uninvolved w event (w.note next event)) : Watched (w.note next event) := by
  have live : (w.note next event).server.Live := note_server ▸ step_live watched.live stepped
  refine ⟨live,?_,?_⟩
  · intro sessionId gone
    unfold Watch.note at gone
    cases event with
    | connect => exact watched.real sessionId (List.mem_filter.mp gone).1
    | close closing =>
      dsimp only at gone
      split at gone
      · rename_i present
        rcases List.mem_cons.mp gone with rfl | before
        · obtain ⟨session,found⟩ := UnorderedMap.mem_iff_lookup.mp present
          exact (watched.live.sessions _ _ found).1
        · exact watched.real sessionId before
      · exact watched.real sessionId gone
    | runLogin turn =>
      dsimp only at gone
      apply watched.real sessionId
      split at gone
      · exact gone
      · split at gone
        · exact gone
        · split at gone <;> exact gone
    | _ => exact watched.real sessionId gone
  · unfold Watch.note
    cases event with
    | close closing =>
      dsimp only
      split
      · rename_i present
        dsimp only [Watch.ends]
        rw [boundTo_unnamed (uninvolved present),watched.nobody,List.append_nil]
      · exact watched.nobody
    | runLogin turn =>
      dsimp only
      split
      · exact watched.nobody
      · rename_i pack rest strand
        split
        · dsimp only
          rw [watched.nobody]
          rfl
        · split
          · rename_i logout
            exact (logout.2 ((uninvolved pack rest strand).2 logout.1)).elim
          · exact watched.nobody
    | _ => exact watched.nobody

end Ending

theorem start_ended (heap : Heap) : Ended { server := start heap } :=
  ⟨fun _ gone => (List.not_mem_nil gone).elim,fun _ gone => (List.not_mem_nil gone).elim⟩

theorem start_watched (heap : Heap) : Watched { server := start heap } :=
  ⟨start_live heap,fun _ gone => (List.not_mem_nil gone).elim,rfl⟩

theorem identity_ends_exact (library : JsonLibrary) (heap : Heap) (events : List Event) :
    Machine.Always (Watch.step library) Ended { server := start heap } events ↔
      Machine.Every (Watch.step library) Uninvolved { server := start heap } events := by
  refine Machine.always_iff_guarded ?_ ?_ (start_watched heap) (start_ended heap)
  · intro w event after watched ended stepped goes
    obtain ⟨next,taken,rfl⟩ := Option.map_eq_some_iff.mp stepped
    exact note_watched watched taken ((note_ended watched ended taken).mp goes)
  · intro w event after watched ended stepped
    obtain ⟨next,taken,rfl⟩ := Option.map_eq_some_iff.mp stepped
    exact note_ended watched ended taken

def logoutMsg : DecodedMessage := ⟨3,ProtoType.data,MsgType.loginReq,1,[0]⟩

def logsOut : List Event := [.connect,.receive 1 loginMsg,.runLogin blankTurn,.receive 1 logoutMsg,.runLogin blankTurn]

-- User 124 has logged out, and session 1 still speaks for it.
theorem logout_leaves_identity :
    ¬ Machine.Always (Watch.step Json.compact) Ended { server := start Lobby.noInfos } logsOut := by
  intro always
  have seen : ((Machine.run (Watch.step Json.compact) { server := start Lobby.noInfos } logsOut).map fun w =>
      (w.loggedOut,w.server.users.getUserId 1)) = some ([1],124) := by decide +kernel
  obtain ⟨w,path,shown⟩ := Option.map_eq_some_iff.mp seen
  obtain ⟨out,user⟩ := Prod.mk.inj shown
  have gone : (1 : SessionId) ∈ w.closed ++ w.loggedOut := by
    rw [out]
    exact List.mem_append_right _ (List.mem_singleton.mpr rfl)
  have silent := ((always _ [] w (List.append_nil _).symm path).silent 1 gone).user
  rw [user] at silent
  exact absurd silent (by decide)

end GameServer.Server
