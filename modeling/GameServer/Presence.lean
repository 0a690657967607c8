import GameServer.LobbySteps
import GameServer.UserSessionMap

namespace GameServer
open Foundation

namespace Lobby

def getPlayerInfo (w : Lobby) (playerId : UserId) : Option GamePlayerInfo :=
  (w.getPlayer playerId).map fun player => player.getInfo w.heap

def presence (w : Lobby) (playerId : UserId) : Option SessionId :=
  (w.getPlayerInfo playerId).bind fun info => if info.bInfo.isOnline then some info.bInfo.sessionId else none

end Lobby

-- The two stores main registers for the same callbacks.
structure Stores where
  users : UserSessionMap := .empty
  lobby : Lobby

namespace Stores

inductive Event where
  | userLogin (info : UserLoginInfo)
  | userLogout (info : UserLoginInfo)

def step (s : Stores) : Event → Option Stores
  | .userLogin info => some ⟨s.users.onUserLogin info,s.lobby.onUserLogin info⟩
  | .userLogout info => some ⟨s.users.onUserLogout info,s.lobby.onUserLogout info⟩

def start (heap : Heap) : Stores := { lobby := Lobby.opened heap }

-- A user is bound exactly where its player is online, and to the session on record.
def Agree (s : Stores) : Prop := ∀ id, s.users.userToSession.lookup id = s.lobby.presence id

-- The events the two stores take alike.
def Alike (s : Stores) : Event → Stores → Prop
  | .userLogin info,_ => info.result = .success → info.userId ≠ 0 → info.sessionId ≠ 0
  | .userLogout info,_ => info.userId = 0 → info.sessionId ≠ 0 → s.users.sessionToUser.lookup info.sessionId = none

-- What a session knows of its user is what the user is bound to, and nobody is
-- bound to session 0.
structure Traced (s : Stores) : Prop where
  registry : s.lobby.Registry
  back : ∀ session user, s.users.sessionToUser.lookup session = some user → s.users.userToSession.lookup user = some session
  real : ∀ user, s.users.userToSession.lookup user ≠ some 0

end Stores

namespace Lobby
variable {w : Lobby}

theorem getInfo_elsewhere {player another : GamePlayer} (elsewhere : another.object ≠ player.object) (heap : Heap)
    (change : GamePlayerInfo → GamePlayerInfo) : another.getInfo (player.update heap change) = another.getInfo heap := by
  simp [GamePlayer.getInfo,GamePlayer.update,Function.update_of_ne elsewhere]

theorem getInfo_online (player : GamePlayer) (heap : Heap) (sessionId : SessionId) :
    (player.getInfo (player.setOnline (player.setSession heap sessionId) true)).bInfo.isOnline = true ∧
      (player.getInfo (player.setOnline (player.setSession heap sessionId) true)).bInfo.sessionId = sessionId := by
  simp [GamePlayer.getInfo,GamePlayer.setOnline,GamePlayer.setSession,GamePlayer.update]

theorem presence_signed {next : Lobby} (registry : next.Registry) {id : UserId} {player : GamePlayer}
    (found : next.getPlayer id = some player) {heap : Heap} {sessionId : SessionId}
    (written : next.heap = player.setOnline (player.setSession heap sessionId) true) (other : UserId) :
    next.presence other = if other = id then some sessionId else { next with heap := heap }.presence other := by
  unfold presence getPlayerInfo
  rw [written]
  split
  · rename_i same
    obtain ⟨online,session⟩ := getInfo_online player heap sessionId
    rw [same,found,Option.map_some,Option.bind_some,if_pos online,session]
  · rename_i different
    have same : { next with heap := heap }.getPlayer other = next.getPlayer other := rfl
    rw [same]
    cases known : next.getPlayer other with
    | none => rfl
    | some another =>
      have elsewhere : another.object ≠ player.object :=
        fun equal => different (registry.apart other id another player known found equal)
      have kept : another.getInfo (player.setOnline (player.setSession heap sessionId) true) = another.getInfo heap :=
        (getInfo_elsewhere elsewhere _ _).trans (getInfo_elsewhere elsewhere _ _)
      rw [Option.map_some,kept]
      rfl

theorem createPlayer_presence {playerId : UserId} (registry : w.Registry) {other : UserId} (different : other ≠ playerId) :
    (w.createPlayer playerId).2.presence other = w.presence other := by
  cases known : w.getPlayer playerId with
  | some player => rw [createPlayer_known known]
  | none =>
    unfold presence getPlayerInfo
    rw [createPlayer_getPlayer playerId other known,if_neg different,createPlayer_fresh known]
    cases found : w.getPlayer other with
    | none => rfl
    | some another =>
      have below := Nat.ne_of_lt (registry.made other another found)
      simp [GamePlayer.getInfo,Function.update_of_ne below]

theorem createPlayer_found (playerId : UserId) :
    (w.createPlayer playerId).2.getPlayer playerId = some (w.createPlayer playerId).1 := by
  cases known : w.getPlayer playerId with
  | some player => rw [createPlayer_known known]; exact known
  | none =>
    rw [createPlayer_getPlayer playerId playerId known,if_pos rfl,createPlayer_fresh known]

theorem userLogin_presence (registry : w.Registry) {info : UserLoginInfo} (success : info.result = .success)
    (real : info.userId ≠ 0) (other : UserId) :
    (w.onUserLogin info).presence other = if other = info.userId then some info.sessionId else w.presence other := by
  have passes : ¬ (info.result ≠ .success ∨ info.userId = 0) := fun refused => refused.elim (· success) real
  have made := (userLogin_moves info registry).1
  unfold onUserLogin at made ⊢
  rw [if_neg passes] at made ⊢
  have before (different : other ≠ info.userId) := createPlayer_presence registry different
  have found := createPlayer_found (w := w) info.userId
  generalize w.createPlayer info.userId = created at made before found ⊢
  obtain ⟨player,after⟩ := created
  have signed : { after with heap := player.setOnline (player.setSession after.heap info.sessionId) true }.presence other =
      if other = info.userId then some info.sessionId else after.presence other := presence_signed made found rfl other
  dsimp only
  rw [signed]
  split
  · rfl
  · rename_i different
    exact before different

theorem removePlayer_presence (playerId other : UserId) : (w.removePlayer playerId).presence other =
    if other = playerId then none else w.presence other := by
  have entries : (w.removePlayer playerId).getPlayer other = if other = playerId then none else w.getPlayer other :=
    UnorderedMap.lookup_erase_eq _ _ _
  unfold presence getPlayerInfo
  rw [entries]
  split <;> rfl

theorem userLogout_presence (registry : w.Registry) {info : UserLoginInfo} (real : info.userId ≠ 0) (other : UserId) :
    (w.onUserLogout info).presence other = if other = info.userId then none else w.presence other := by
  unfold onUserLogout
  rw [if_neg real]
  dsimp only
  rw [removePlayer_presence]
  split
  · rfl
  · rename_i different
    cases known : w.getPlayer info.userId with
    | none => rfl
    | some player =>
      unfold presence getPlayerInfo
      have same : { w with heap := player.setOnline w.heap false }.getPlayer other = w.getPlayer other := rfl
      dsimp only
      rw [same]
      cases found : w.getPlayer other with
      | none => rfl
      | some another =>
        have elsewhere : another.object ≠ player.object :=
          fun equal => different (registry.apart other info.userId another player found known equal)
        rw [Option.map_some,Option.map_some,GamePlayer.setOnline,getInfo_elsewhere elsewhere]

end Lobby

namespace UserSessionMap
variable {m : UserSessionMap}

structure Backed (m : UserSessionMap) : Prop where
  back : ∀ session user, m.sessionToUser.lookup session = some user → m.userToSession.lookup user = some session
  real : ∀ user, m.userToSession.lookup user ≠ some 0

theorem bind_backed (backed : m.Backed) (user : UserId) {session : SessionId} (live : session ≠ 0) :
    (m.bind user session).Backed := by
  refine ⟨?_,?_⟩
  · intro other id held
    rw [bind_session] at held
    rw [bind_user]
    split at held
    · rename_i here
      cases held
      rw [if_pos rfl,here]
    · split at held
      · cases held
      · rename_i stays
        have bound := backed.back other id held
        have different : id ≠ user := fun same => stays (same ▸ bound)
        rw [if_neg different]
        exact bound
  · intro id
    rw [bind_user]
    split
    · exact fun same => live (Option.some.inj same)
    · exact backed.real id

theorem unbind_backed (backed : m.Backed) (user : UserId) : (m.unbind user).2.Backed := by
  refine ⟨?_,?_⟩
  · intro session id held
    rw [unbind_session] at held
    rw [unbind_user]
    split at held
    · cases held
    · rename_i stays
      have bound := backed.back session id held
      have different : id ≠ user := fun same => stays (same ▸ bound)
      rw [if_neg different]
      exact bound
  · intro id
    rw [unbind_user]
    split
    · nofun
    · exact backed.real id

theorem unbindBySessionId_backed (backed : m.Backed) (session : SessionId) : (m.unbindBySessionId session).2.Backed := by
  refine ⟨?_,?_⟩
  · intro other id held
    rw [unbindBySessionId_session] at held
    rw [unbindBySessionId_user]
    split at held
    · cases held
    · rename_i elsewhere
      have bound := backed.back other id held
      have different : m.sessionToUser.lookup session ≠ some id := by
        intro shared
        have there := backed.back session id shared
        rw [bound] at there
        exact elsewhere (Option.some.inj there)
      rw [if_neg different]
      exact bound
  · intro id
    rw [unbindBySessionId_user]
    split
    · nofun
    · exact backed.real id

theorem onUserLogin_backed (backed : m.Backed) (info : UserLoginInfo) : (m.onUserLogin info).Backed := by
  unfold onUserLogin
  split
  · exact backed
  · rename_i passes
    exact bind_backed backed info.userId fun nowhere => passes (.inr (.inr nowhere))

theorem onUserLogout_backed (backed : m.Backed) (info : UserLoginInfo) : (m.onUserLogout info).Backed := by
  unfold onUserLogout
  split
  · exact unbind_backed backed info.userId
  · split
    · exact unbindBySessionId_backed backed info.sessionId
    · exact backed

end UserSessionMap

namespace Stores
variable {s next : Stores}

theorem start_traced (heap : Heap) : (start heap).Traced := ⟨(Lobby.opened_sound heap).registry,nofun,nofun⟩

theorem start_agree (heap : Heap) : (start heap).Agree := fun _ => rfl

theorem step_traced {event : Event} (traced : s.Traced) (stepped : step s event = some next) : next.Traced := by
  have backed : s.users.Backed := ⟨traced.back,traced.real⟩
  cases event with
  | userLogin info =>
    cases stepped
    obtain ⟨back,real⟩ := UserSessionMap.onUserLogin_backed backed info
    exact ⟨(Lobby.userLogin_moves info traced.registry).1,back,real⟩
  | userLogout info =>
    cases stepped
    obtain ⟨back,real⟩ := UserSessionMap.onUserLogout_backed backed info
    exact ⟨(Lobby.userLogout_moves info traced.registry).1,back,real⟩

theorem step_agree {event : Event} (traced : s.Traced) (agree : s.Agree) (stepped : step s event = some next) :
    next.Agree ↔ s.Alike event next := by
  cases event with
  | userLogin info =>
    cases stepped
    dsimp only [Agree,Alike]
    by_cases success : info.result = .success
    · by_cases real : info.userId = 0
      · have refused : info.result ≠ .success ∨ info.userId = 0 ∨ info.sessionId = 0 := Or.inr (Or.inl real)
        have unseen : info.result ≠ .success ∨ info.userId = 0 := Or.inr real
        simp only [UserSessionMap.onUserLogin,Lobby.onUserLogin,if_pos refused,if_pos unseen]
        exact iff_of_true agree fun _ known => (known real).elim
      · have presence := Lobby.userLogin_presence traced.registry success real
        by_cases nowhere : info.sessionId = 0
        · refine iff_of_false ?_ (fun alike => alike success real nowhere)
          intro after
          have refused : info.result ≠ .success ∨ info.userId = 0 ∨ info.sessionId = 0 := Or.inr (Or.inr nowhere)
          have told := after info.userId
          rw [presence,if_pos rfl,UserSessionMap.onUserLogin,if_pos refused,nowhere] at told
          exact traced.real info.userId told
        · refine iff_of_true ?_ (fun _ _ => nowhere)
          intro other
          have passes : ¬ (info.result ≠ .success ∨ info.userId = 0 ∨ info.sessionId = 0) :=
            fun refused => refused.elim (· success) fun zero => zero.elim real nowhere
          rw [presence,UserSessionMap.onUserLogin,if_neg passes,UserSessionMap.bind_user,agree other]
    · have refused : info.result ≠ .success ∨ info.userId = 0 ∨ info.sessionId = 0 := Or.inl success
      have unseen : info.result ≠ .success ∨ info.userId = 0 := Or.inl success
      simp only [UserSessionMap.onUserLogin,Lobby.onUserLogin,if_pos refused,if_pos unseen]
      exact iff_of_true agree fun succeeded => (success succeeded).elim
  | userLogout info =>
    cases stepped
    dsimp only [Agree,Alike]
    by_cases real : info.userId = 0
    · have unmoved : s.lobby.onUserLogout info = s.lobby := by
        unfold Lobby.onUserLogout
        rw [if_pos real]
      rw [unmoved,UserSessionMap.onUserLogout,if_neg (not_not.mpr real)]
      by_cases nowhere : info.sessionId = 0
      · rw [if_neg (not_not.mpr nowhere)]
        exact iff_of_true agree fun _ known => (known nowhere).elim
      · rw [if_pos nowhere]
        refine ⟨?_,?_⟩
        · intro after _ _
          cases held : s.users.sessionToUser.lookup info.sessionId with
          | none => rfl
          | some user =>
            have told := after user
            rw [UserSessionMap.unbindBySessionId_user,if_pos held,← agree user,traced.back _ _ held] at told
            cases told
        · intro alike other
          rw [UserSessionMap.unbindBySessionId_user,alike real nowhere,if_neg (Option.some_ne_none other).symm]
          exact agree other
    · refine iff_of_true ?_ (fun zero => (real zero).elim)
      intro other
      rw [Lobby.userLogout_presence traced.registry real,UserSessionMap.onUserLogout,if_pos real,
        UserSessionMap.unbind_user,agree other]

theorem presence_exact (heap : Heap) (events : List Event) :
    Machine.Always step Agree (start heap) events ↔ Machine.Every step Alike (start heap) events :=
  Machine.always_iff_guarded (fun _ _ _ traced _ stepped _ => step_traced traced stepped)
    (fun _ _ _ traced agree stepped => step_agree traced agree stepped) (start_traced heap) (start_agree heap)

-- A logout that names the session alone unbinds the user, whose player stays online.
theorem session_logout_divides : ¬ Machine.Always step Agree (start fun _ => ⟨⟨0,0,[],0,false⟩,0,0,0,false⟩)
    [.userLogin ⟨.success,7,1,[]⟩,.userLogout ⟨.success,0,1,[]⟩] := by
  intro always
  have seen : ((Machine.run step (start fun _ => ⟨⟨0,0,[],0,false⟩,0,0,0,false⟩)
      [.userLogin ⟨.success,7,1,[]⟩,.userLogout ⟨.success,0,1,[]⟩]).map fun s =>
        (s.users.userToSession.lookup 7,s.lobby.presence 7)) = some (none,some 1) := by decide +kernel
  obtain ⟨s,path,shown⟩ := Option.map_eq_some_iff.mp seen
  obtain ⟨unbound,online⟩ := Prod.mk.inj shown
  have told := always _ [] s (List.append_nil _).symm path 7
  rw [unbound,online] at told
  cases told

end Stores
end GameServer
