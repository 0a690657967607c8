import GameServer.SessionManager

namespace GameServer
open Foundation TaskPool

-- The manager, the connections it has been given, and what its calls have done
-- and answered so far, oldest first.
structure SessionTable where
  manager : SessionManager := {}
  made : Nat := 0
  closed : List SessionRef := []
  created : List SessionRef := []
  answered : List SessionRef := []
  removed : List (SessionRef × Bool) := []
  closedTrue : List SessionRef := []
  hooked : List SessionRef := []

namespace SessionTable

-- What a thread does between two releases of the mutex, or on a connection's strand.
inductive Action where
  | emplace (session : SessionRef)
  | start (session : SessionRef)
  | closeSession (id : SessionId)
  | close (session : SessionRef)
  | callback (session : SessionRef)
  | returnTrue (session : SessionRef)
  | doClose (session : SessionRef)
  | endSweep
deriving DecidableEq, Repr

-- What an action meets: the clock, and whether the call it makes throws.
structure Moment where
  now : TimePoint
  throws : Bool := false

def perform (s : SessionTable) (moment : Moment) : Action → Effect SessionTable Action
  | .emplace session =>
    match s.manager.emplace session moment.now with
    | none => { state := s }
    | some manager => { state := { s with manager := manager, created := s.created ++ [session] }, goesOn := [.start session] }
  | .start session =>
    if moment.throws then { state := { s with manager := s.manager.forget session.id } }
    else { state := { s with answered := s.answered ++ [session] } }
  | .closeSession id =>
    match s.manager.remove id with
    | none => { state := s }
    | some (session,manager) => {
        state := { s with manager := manager, removed := s.removed ++ [(session,s.manager.onSessionClose)] }
        goesOn := .close session :: ((if s.manager.onSessionClose then [.callback session] else []) ++ [.returnTrue session]) }
  -- The close is dispatched to the strand of the connection.
  | .close session => { state := s, spawns := [[.doClose session]] }
  | .callback session => { state := { s with hooked := s.hooked ++ [session] } }
  | .returnTrue session => { state := { s with closedTrue := s.closedTrue ++ [session] } }
  -- The first to find closed_ unset takes the close callback.
  | .doClose session =>
    if session ∈ s.closed then { state := s }
    else { state := { s with closed := s.closed ++ [session] }, goesOn := [.closeSession session.id] }
  | .endSweep => { state := { s with manager := s.manager.endSweep } }

-- CreateSession up to its critical section. The precondition is that there is a
-- gateway and a codec and that the socket is open.
def createSession (s : SessionTable) (precondition : Bool) : Effect SessionTable Action :=
  if !precondition then { state := s }
  else
    let (id,manager) := s.manager.allocateSessionId
    let s := { s with manager := manager }
    if id = 0 then { state := s }
    else { state := { s with made := s.made + 1 }, spawns := [[.emplace ⟨s.made,id⟩]] }

abbrev Pool := SessionTable × List (List Action)

-- A call comes in, a connection ends by itself, or a thread goes on.
inductive Event where
  | create (precondition : Bool)
  | close (id : SessionId)
  | disconnect (session : SessionRef)
  | heartbeat (id : SessionId) (now : TimePoint)
  | sweep (aborted : Bool) (now : TimePoint) (order : List SessionId)
  | ensureSweep
  | setOnSessionClose (handler : Bool)
  | goesOn (index : Nat) (moment : Moment)

def step (pool : Pool) : Event → Option Pool
  | .create precondition =>
    let made := pool.1.createSession precondition
    some (made.state,pool.2 ++ made.spawns)
  | .close id => some (pool.1,pool.2 ++ [[.closeSession id]])
  | .disconnect session => if session ∈ pool.1.created then some (pool.1,pool.2 ++ [[.doClose session]]) else none
  | .heartbeat id now => some ({ pool.1 with manager := pool.1.manager.onSessionHeartbeat id now },pool.2)
  | .sweep aborted now order =>
    if aborted then some pool
    else if order.Perm pool.1.manager.lastHeartbeatAt.keys then
      some (pool.1,pool.2 ++ [(pool.1.manager.expiredSessions now order).map .closeSession ++ [.endSweep]])
    else none
  | .ensureSweep => some ({ pool.1 with manager := pool.1.manager.ensureHeartbeatSweepStarted.2 },pool.2)
  | .setOnSessionClose handler => some ({ pool.1 with manager := { pool.1.manager with onSessionClose := handler } },pool.2)
  | .goesOn index moment => advance perform pool (index,moment)

def fresh : Pool := ({},[])

end SessionTable
end GameServer
