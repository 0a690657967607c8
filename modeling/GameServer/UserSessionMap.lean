import GameServer.Foundation.Machine
import GameServer.Foundation.UnorderedMap
import GameServer.MessageProto

namespace GameServer
open Foundation

structure UserSessionMap where
  userToSession : UnorderedMap UserId SessionId
  sessionToUser : UnorderedMap SessionId UserId

namespace UserSessionMap

def empty : UserSessionMap := ⟨∅,∅⟩

def bind (m : UserSessionMap) (user : UserId) (session : SessionId) : UserSessionMap :=
  let kept := match m.userToSession.lookup user with
    | some old => m.sessionToUser.erase old
    | none => m.sessionToUser
  ⟨m.userToSession.insert user session,kept.insert session user⟩

def unbind (m : UserSessionMap) (user : UserId) : Bool × UserSessionMap :=
  match m.userToSession.lookup user with
  | none => (false,m)
  | some session => (true,⟨m.userToSession.erase user,m.sessionToUser.erase session⟩)

def unbindBySessionId (m : UserSessionMap) (session : SessionId) : Bool × UserSessionMap :=
  match m.sessionToUser.lookup session with
  | none => (false,m)
  | some user => (true,⟨m.userToSession.erase user,m.sessionToUser.erase session⟩)

def getSessionId (m : UserSessionMap) (user : UserId) : SessionId := (m.userToSession.lookup user).getD 0
def getUserId (m : UserSessionMap) (session : SessionId) : UserId := (m.sessionToUser.lookup session).getD 0

def onUserLogin (m : UserSessionMap) (info : UserLoginInfo) : UserSessionMap :=
  if info.result ≠ .success ∨ info.userId = 0 ∨ info.sessionId = 0 then m
  else m.bind info.userId info.sessionId

def onUserLogout (m : UserSessionMap) (info : UserLoginInfo) : UserSessionMap :=
  if info.userId ≠ 0 then (m.unbind info.userId).2
  else if info.sessionId ≠ 0 then (m.unbindBySessionId info.sessionId).2
  else m

def sendTarget (m : UserSessionMap) (user : UserId) : Option SessionId :=
  let session := m.getSessionId user
  if session = 0 then none else some session

inductive Event where
  | userLogin (info : UserLoginInfo)
  | userLogout (info : UserLoginInfo)
  | bind (user : UserId) (session : SessionId)
  | unbind (user : UserId)
  | unbindBySessionId (session : SessionId)

def apply (m : UserSessionMap) : Event → UserSessionMap
  | .userLogin info => m.onUserLogin info
  | .userLogout info => m.onUserLogout info
  | .bind user session => m.bind user session
  | .unbind user => (m.unbind user).2
  | .unbindBySessionId session => (m.unbindBySessionId session).2

def step (m : UserSessionMap) (event : Event) : Option UserSessionMap := some (m.apply event)

def Event.binding : Event → Option (UserId × SessionId)
  | .userLogin info =>
    if info.result ≠ .success ∨ info.userId = 0 ∨ info.sessionId = 0 then none
    else some (info.userId,info.sessionId)
  | .bind user session => some (user,session)
  | _ => none

section Lookups
variable (m : UserSessionMap) (user other : UserId) (session at_ : SessionId)

theorem bind_user : (m.bind user session).userToSession.lookup other =
    if other = user then some session else m.userToSession.lookup other :=
  UnorderedMap.lookup_insert_eq _ _ _ _

theorem bind_session : (m.bind user session).sessionToUser.lookup at_ =
    if at_ = session then some user
    else if m.userToSession.lookup user = some at_ then none else m.sessionToUser.lookup at_ := by
  unfold bind
  cases old : m.userToSession.lookup user with
  | none => simp [UnorderedMap.lookup_insert_eq]
  | some stale => simp [UnorderedMap.lookup_insert_eq,UnorderedMap.lookup_erase_eq,eq_comm]

theorem unbind_user : (m.unbind user).2.userToSession.lookup other =
    if other = user then none else m.userToSession.lookup other := by
  unfold unbind
  cases old : m.userToSession.lookup user with
  | none => grind
  | some stale => simp [UnorderedMap.lookup_erase_eq]

theorem unbind_session : (m.unbind user).2.sessionToUser.lookup at_ =
    if m.userToSession.lookup user = some at_ then none else m.sessionToUser.lookup at_ := by
  unfold unbind
  cases old : m.userToSession.lookup user with
  | none => simp
  | some stale => simp [UnorderedMap.lookup_erase_eq,eq_comm]

theorem unbindBySessionId_user : (m.unbindBySessionId session).2.userToSession.lookup other =
    if m.sessionToUser.lookup session = some other then none else m.userToSession.lookup other := by
  unfold unbindBySessionId
  cases held : m.sessionToUser.lookup session with
  | none => simp
  | some holder => simp [UnorderedMap.lookup_erase_eq,eq_comm]

theorem unbindBySessionId_session : (m.unbindBySessionId session).2.sessionToUser.lookup at_ =
    if at_ = session then none else m.sessionToUser.lookup at_ := by
  unfold unbindBySessionId
  cases held : m.sessionToUser.lookup session with
  | none => grind
  | some holder => simp [UnorderedMap.lookup_erase_eq]

end Lookups

def Inverse (m : UserSessionMap) : Prop :=
  ∀ user session, m.userToSession.lookup user = some session ↔ m.sessionToUser.lookup session = some user

theorem bind_inverse {m : UserSessionMap} (inverse : m.Inverse) (user : UserId) (session : SessionId) :
    (m.bind user session).Inverse ↔ ∀ holder, m.sessionToUser.lookup session = some holder → holder = user := by
  refine ⟨?_,?_⟩
  · intro after holder held
    by_cases same : holder = user
    · exact same
    · have kept := (after holder session).mp
        (by rw [bind_user,if_neg same]; exact (inverse holder session).mpr held)
      rw [bind_session,if_pos rfl] at kept
      exact (Option.some.inj kept).symm
  · intro free other at_
    rw [bind_user,bind_session]
    by_cases moved : other = user
    · subst moved
      by_cases here : at_ = session
      · simp [here]
      · have back := inverse other at_
        by_cases old : m.userToSession.lookup other = some at_
        · simp [here,old,Ne.symm here]
        · simp [here,old,Ne.symm here,← back]
    · rw [if_neg moved]
      have back := inverse other at_
      by_cases here : at_ = session
      · subst here
        have notHeld : m.sessionToUser.lookup at_ ≠ some other := fun held => moved (free other held)
        simp [back,notHeld,Ne.symm moved]
      · by_cases old : m.userToSession.lookup user = some at_
        · have holder := (inverse user at_).mp old
          simp [here,old,back,holder,Ne.symm moved]
        · simp [here,old,back]

theorem unbind_inverse {m : UserSessionMap} (inverse : m.Inverse) (user : UserId) : (m.unbind user).2.Inverse := by
  intro other at_
  rw [unbind_user,unbind_session]
  have back := inverse other at_
  by_cases gone : other = user
  · subst gone
    by_cases old : m.userToSession.lookup other = some at_
    · simp [old]
    · simp [old,← back]
  · by_cases old : m.userToSession.lookup user = some at_
    · have holder := (inverse user at_).mp old
      simp [gone,old,back,holder,Ne.symm gone]
    · simp [gone,old,back]

theorem unbindBySessionId_eq {m : UserSessionMap} (inverse : m.Inverse) {user : UserId} {session : SessionId}
    (held : m.sessionToUser.lookup session = some user) : m.unbindBySessionId session = m.unbind user := by
  have bound := (inverse user session).mpr held
  simp [unbindBySessionId,unbind,held,bound]

theorem unbindBySessionId_inverse {m : UserSessionMap} (inverse : m.Inverse) (session : SessionId) :
    (m.unbindBySessionId session).2.Inverse := by
  cases held : m.sessionToUser.lookup session with
  | none => simpa [unbindBySessionId,held] using inverse
  | some user =>
    rw [unbindBySessionId_eq inverse held]
    exact unbind_inverse inverse user

-- What the server relies on: the two tables invert each other, and so no
-- session is shared, routing to a user ends at a session identified as that
-- user, and removing one binding leaves every other one.
structure PartialBijection (m : UserSessionMap) : Prop where
  inverse : m.Inverse
  unshared : ∀ user other session, m.userToSession.lookup user = some session →
    m.userToSession.lookup other = some session → user = other
  routed : ∀ user session, m.sendTarget user = some session → m.getUserId session = user
  unbinds : ∀ user other session, other ≠ user → m.userToSession.lookup other = some session →
    (m.unbind user).2.userToSession.lookup other = some session ∧
      (m.unbind user).2.sessionToUser.lookup session = some other
  unbindsSession : ∀ removed other session, session ≠ removed → m.userToSession.lookup other = some session →
    (m.unbindBySessionId removed).2.userToSession.lookup other = some session ∧
      (m.unbindBySessionId removed).2.sessionToUser.lookup session = some other

theorem inverse_unbinds {m : UserSessionMap} (inverse : m.Inverse) {user other : UserId} {session : SessionId}
    (different : other ≠ user) (bound : m.userToSession.lookup other = some session) :
    (m.unbind user).2.userToSession.lookup other = some session ∧
      (m.unbind user).2.sessionToUser.lookup session = some other := by
  have kept : (m.unbind user).2.userToSession.lookup other = some session := by
    rw [unbind_user,if_neg different]; exact bound
  exact ⟨kept,(unbind_inverse inverse user other session).mp kept⟩

theorem partialBijection_iff {m : UserSessionMap} : m.PartialBijection ↔ m.Inverse := by
  refine ⟨PartialBijection.inverse,fun inverse => ⟨inverse,?_,?_,?_,?_⟩⟩
  · intro user other session one two
    have held := (inverse user session).mp one
    rw [(inverse other session).mp two] at held
    exact (Option.some.inj held).symm
  · intro user session sent
    unfold sendTarget getSessionId at sent
    cases bound : m.userToSession.lookup user with
    | none => simp [bound] at sent
    | some found =>
      simp only [bound,Option.getD_some] at sent
      split at sent
      · cases sent
      · cases sent
        simp [getUserId,(inverse user session).mp bound]
  · intro user other session different bound
    exact inverse_unbinds inverse different bound
  · intro removed other session different bound
    cases held : m.sessionToUser.lookup removed with
    | none =>
      have same : m.unbindBySessionId removed = (false,m) := by simp [unbindBySessionId,held]
      rw [same]
      exact ⟨bound,(inverse other session).mp bound⟩
    | some user =>
      rw [unbindBySessionId_eq inverse held]
      refine inverse_unbinds inverse ?_ bound
      intro same
      subst same
      have back := (inverse other removed).mpr held
      rw [bound] at back
      exact different (Option.some.inj back)

-- Bind forgets the user's old session but not the session's old user, so it is
-- the one entry that can break the pairing.
def BindsFree (m : UserSessionMap) (event : Event) : Prop :=
  ∀ user session, event.binding = some (user,session) →
    ∀ holder, m.sessionToUser.lookup session = some holder → holder = user

theorem apply_bound {event : Event} {user : UserId} {session : SessionId}
    (binding : event.binding = some (user,session)) (m : UserSessionMap) : m.apply event = m.bind user session := by
  cases event with
  | userLogin info =>
    simp only [Event.binding] at binding
    split at binding
    · cases binding
    · rename_i accepted
      cases binding
      simp only [apply,onUserLogin,if_neg accepted]
  | bind u s => cases binding; rfl
  | userLogout info => cases binding
  | unbind u => cases binding
  | unbindBySessionId s => cases binding

theorem apply_unbound {event : Event} (binding : event.binding = none) {m : UserSessionMap}
    (inverse : m.Inverse) : (m.apply event).Inverse := by
  cases event with
  | userLogin info =>
    simp only [Event.binding] at binding
    split at binding
    · rename_i refused
      simpa only [apply,onUserLogin,if_pos refused] using inverse
    · cases binding
  | bind u s => cases binding
  | unbind u => exact unbind_inverse inverse u
  | unbindBySessionId s => exact unbindBySessionId_inverse inverse s
  | userLogout info =>
    simp only [apply,onUserLogout]
    split
    · exact unbind_inverse inverse _
    · split
      · exact unbindBySessionId_inverse inverse _
      · exact inverse

theorem apply_inverse {m : UserSessionMap} (inverse : m.Inverse) (event : Event) :
    (m.apply event).Inverse ↔ m.BindsFree event := by
  unfold BindsFree
  cases binding : event.binding with
  | none => simp [apply_unbound binding inverse]
  | some pair =>
    obtain ⟨user,session⟩ := pair
    rw [apply_bound binding,bind_inverse inverse]
    simp

theorem empty_inverse : empty.Inverse := by
  intro user session
  simp [empty]

theorem bijective_exact (events : List Event) :
    Machine.Always step PartialBijection empty events ↔
      Machine.Every step (fun m event _ => m.BindsFree event) empty events := by
  have start : empty.PartialBijection := partialBijection_iff.mpr empty_inverse
  refine Machine.always_iff_guarded (fun _ _ _ _ _ _ _ => True.intro) ?_ True.intro start
  intro m event next _ valid taken
  cases taken
  rw [partialBijection_iff]
  exact apply_inverse valid.inverse event

-- Two successful logins on one session: the second user takes the session over
-- while the first still maps to it.
theorem second_login_breaks : ¬ Machine.Always step PartialBijection empty
    [.userLogin ⟨.success,124,1,[]⟩,.userLogin ⟨.success,125,1,[]⟩] := by
  intro holds
  have reached := (holds _ [] _ (List.append_nil _).symm rfl).inverse 124 1
  revert reached
  decide

end UserSessionMap
end GameServer
