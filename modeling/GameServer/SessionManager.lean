import GameServer.Foundation.TaskPool
import GameServer.Foundation.UnorderedMap
import GameServer.MessageProto

namespace GameServer
open Foundation

-- A point of the steady clock, in nanoseconds.
abbrev TimePoint := Int

-- A ClientSession and the TcpConnection it owns. The serial tells two of them
-- apart that have had the same id.
structure SessionRef where
  serial : Nat
  id : SessionId
deriving DecidableEq, Repr

structure SessionManager where
  sessions : UnorderedMap SessionId SessionRef := ∅
  lastHeartbeatAt : UnorderedMap SessionId TimePoint := ∅
  nextSessionId : SessionId := 1
  heartbeatSweepRunning : Bool := false
  -- whether on_session_close_ holds a function
  onSessionClose : Bool := false

namespace SessionManager

def maxConnectionNum : Nat := 1000
def heartbeatTimeout : TimePoint := 30000000000

def allocateSessionId (m : SessionManager) : SessionId × SessionManager :=
  (m.nextSessionId,{ m with nextSessionId := m.nextSessionId + 1 })

def emplace (m : SessionManager) (session : SessionRef) (now : TimePoint) : Option SessionManager :=
  if m.sessions.keys.length ≥ maxConnectionNum then none
  else if session.id ∈ m.sessions then none
  else some { m with
    sessions := AList.insert session.id session m.sessions
    lastHeartbeatAt := AList.insert session.id now m.lastHeartbeatAt }

def forget (m : SessionManager) (id : SessionId) : SessionManager :=
  { m with sessions := AList.erase id m.sessions, lastHeartbeatAt := AList.erase id m.lastHeartbeatAt }

def remove (m : SessionManager) (id : SessionId) : Option (SessionRef × SessionManager) :=
  (m.sessions.lookup id).map fun removed => (removed,m.forget id)

def onSessionHeartbeat (m : SessionManager) (id : SessionId) (now : TimePoint) : SessionManager :=
  if id ∈ m.sessions then { m with lastHeartbeatAt := AList.insert id now m.lastHeartbeatAt } else m

-- Whether the sweep is to be started.
def ensureHeartbeatSweepStarted (m : SessionManager) : Bool × SessionManager :=
  if m.heartbeatSweepRunning then (false,m) else (true,{ m with heartbeatSweepRunning := true })

-- The sweep meets the keys of last_heartbeat_at_ in the order given.
def expiredSessions (m : SessionManager) (now : TimePoint) (order : List SessionId) : List SessionId :=
  order.filter fun sid => decide (sid ∈ m.sessions) &&
    ((m.lastHeartbeatAt.lookup sid).any fun heartbeatAt => decide (now - heartbeatAt > heartbeatTimeout))

def endSweep (m : SessionManager) : SessionManager :=
  if m.sessions.keys = [] then { m with heartbeatSweepRunning := false } else m

section Sections
variable {m next : SessionManager} {session : SessionRef} {now : TimePoint} {id : SessionId}

theorem emplace_cases (emplaced : m.emplace session now = some next) :
    m.sessions.keys.length < maxConnectionNum ∧ session.id ∉ m.sessions ∧ next = { m with
      sessions := AList.insert session.id session m.sessions
      lastHeartbeatAt := AList.insert session.id now m.lastHeartbeatAt } := by
  unfold emplace at emplaced
  split at emplaced
  · cases emplaced
  · rename_i room
    split at emplaced
    · cases emplaced
    · rename_i fresh
      cases emplaced
      exact ⟨Nat.lt_of_not_le room,fresh,rfl⟩

theorem remove_cases (removed : m.remove id = some (session,next)) :
    m.sessions.lookup id = some session ∧ next = m.forget id := by
  obtain ⟨found,listed,same⟩ := Option.map_eq_some_iff.mp removed
  cases same
  exact ⟨listed,rfl⟩

-- What holds of the two maps whenever the mutex is free.
structure Integrity (m : SessionManager) : Prop where
  beats : ∀ id, id ∈ m.sessions ↔ id ∈ m.lastHeartbeatAt
  capacity : m.sessions.keys.length ≤ maxConnectionNum
  nonzero : (0 : SessionId) ∉ m.sessions

theorem integrity_emplace (integrity : m.Integrity) (emplaced : m.emplace session now = some next) (real : session.id ≠ 0) :
    next.Integrity := by
  obtain ⟨room,fresh,rfl⟩ := emplace_cases emplaced
  refine ⟨?_,?_,?_⟩
  · intro id
    simp only [AList.mem_insert,integrity.beats]
  · have absent : session.id ∉ m.sessions.keys := fresh
    simp only [AList.keys_insert,List.erase_of_not_mem absent,List.length_cons]
    exact room
  · simp only [AList.mem_insert,not_or]
    exact ⟨real.symm,integrity.nonzero⟩

theorem integrity_forget (integrity : m.Integrity) (id : SessionId) : (m.forget id).Integrity := by
  refine ⟨?_,?_,?_⟩
  · intro other
    simp only [forget,AList.mem_erase,integrity.beats]
  · simp only [forget,AList.keys_erase]
    exact le_trans List.erase_sublist.length_le integrity.capacity
  · simp only [forget,AList.mem_erase,not_and]
    exact fun _ => integrity.nonzero

theorem integrity_heartbeat (integrity : m.Integrity) (id : SessionId) (now : TimePoint) :
    (m.onSessionHeartbeat id now).Integrity := by
  unfold onSessionHeartbeat
  split
  · rename_i live
    refine ⟨?_,integrity.capacity,integrity.nonzero⟩
    intro other
    simp only [AList.mem_insert,← integrity.beats]
    exact ⟨.inr,fun either => either.elim (fun same => same ▸ live) fun held => held⟩
  · exact integrity

theorem integrity_same (integrity : m.Integrity) (sessions : next.sessions = m.sessions)
    (beats : next.lastHeartbeatAt = m.lastHeartbeatAt) : next.Integrity := by
  refine ⟨?_,sessions ▸ integrity.capacity,sessions ▸ integrity.nonzero⟩
  rw [sessions,beats]
  exact integrity.beats

end Sections

end SessionManager
end GameServer
