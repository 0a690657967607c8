import GameServer.Foundation.Machine

namespace GameServer

-- One element of writeQ_; the ticket tells buffers of equal content apart.
structure Buffer where
  ticket : Nat
  bytes : List UInt8
deriving DecidableEq, Repr

structure TcpConnection where
  started : Bool
  closed : Bool
  writeQ : List Buffer
  closeCallback : Bool

inductive Outcome where
  | pending
  | success
  | failure
deriving DecidableEq, Repr

structure WriteOp where
  buffer : Buffer
  outcome : Outcome
deriving DecidableEq, Repr

-- What runs on the strand: the connection, the operations asio still owes it a
-- completion for, and the history of the calls made.
structure Strand where
  conn : TcpConnection
  reading : Option Outcome
  writing : List WriteOp
  sent : List (List UInt8)
  handed : List Buffer
  pops : List (Option Buffer × Buffer)
  notified : Nat

inductive Call where
  | send (payload : List UInt8)
  | close

namespace Strand

def fresh : Strand := ⟨⟨false,false,[],true⟩,none,[],[],[],[],0⟩

def doRead (s : Strand) : Strand := if s.conn.closed then s else { s with reading := some .pending }

def start (s : Strand) : Strand :=
  if s.conn.started || s.conn.closed then s
  else doRead { s with conn := { s.conn with started := true } }

def doWrite (s : Strand) : Strand :=
  if s.conn.closed then s
  else match s.conn.writeQ with
    | [] => s
    | data :: _ => { s with writing := s.writing ++ [⟨data,.pending⟩], handed := s.handed ++ [data] }

def push (s : Strand) (payload : List UInt8) : Strand :=
  { s with conn := { s.conn with writeQ := s.conn.writeQ ++ [⟨s.sent.length,payload⟩] }, sent := s.sent ++ [payload] }

def send (s : Strand) (payload : List UInt8) : Strand :=
  if s.conn.closed then { s with sent := s.sent ++ [payload] }
  else
    let writeInProgress := !s.conn.writeQ.isEmpty
    if !writeInProgress then (s.push payload).doWrite else s.push payload

-- Closing the socket aborts what the kernel has not completed; a completion
-- that is already queued keeps its result.
def aborted : Outcome → Outcome
  | .pending => .failure
  | other => other

def doClose (s : Strand) (notifyCloseCb : Bool) : Strand :=
  if s.conn.closed then s
  else
    let notify := notifyCloseCb && s.conn.closeCallback
    { s with
      conn := { s.conn with closed := true, writeQ := [], closeCallback := s.conn.closeCallback && !notify }
      reading := s.reading.map aborted
      writing := s.writing.map fun op => { op with outcome := aborted op.outcome }
      notified := if notify then s.notified + 1 else s.notified }

def call (s : Strand) : Call → Strand
  | .send payload => s.send payload
  | .close => s.doClose true

-- writeQ_.pop(), with the front it removes; popping an empty queue is undefined.
def pop (s : Strand) (written : Buffer) : Strand :=
  { s with conn := { s.conn with writeQ := s.conn.writeQ.tail }, pops := s.pops ++ [(s.conn.writeQ.head?,written)] }

def readHandler (s : Strand) (calls : List Call) : Outcome → Option Strand
  | .pending => none
  | .failure => some ({ s with reading := none }.doClose true)
  | .success => some (calls.foldl call { s with reading := none }).doRead

def writeHandler (s : Strand) (place : Nat) (op : WriteOp) : Option Strand :=
  let rest := { s with writing := s.writing.eraseIdx place }
  match op.outcome with
  | .pending => none
  | .failure => some (rest.doClose true)
  | .success =>
    let popped := rest.pop op.buffer
    some (if popped.conn.writeQ ≠ [] then popped.doWrite else popped)

inductive Event where
  | start
  | call (call : Call)
  | readCompletes (success : Bool)
  | readHandler (calls : List Call)
  | writeCompletes (place : Nat) (success : Bool)
  | writeHandler (place : Nat)

def completed (success : Bool) : Outcome := if success then .success else .failure

def step (s : Strand) : Event → Option Strand
  | .start => some s.start
  | .call call => some (s.call call)
  | .readCompletes success =>
    if s.reading = some .pending then some { s with reading := some (completed success) } else none
  | .readHandler calls => s.reading.bind (s.readHandler calls)
  | .writeCompletes place success => s.writing[place]?.bind fun op =>
    if op.outcome = .pending
    then some { s with writing := s.writing.set place { op with outcome := completed success } } else none
  | .writeHandler place => s.writing[place]?.bind (s.writeHandler place)

def popped (s : Strand) : List Buffer := s.pops.map (·.2)

def outstanding (s : Strand) : List Buffer := s.writing.map (·.buffer)

-- While the connection is open, the outstanding write is the front of the
-- queue, and popped and queued buffers together are the payloads sent.
structure Open (s : Strand) : Prop where
  front : s.outstanding = s.conn.writeQ.head?.toList
  ledger : (s.popped ++ s.conn.writeQ).map (·.bytes) = s.sent
  handed : s.handed = s.popped ++ s.outstanding

structure Flow (s : Strand) : Prop where
  opened : s.conn.closed = false → s.Open
  emptied : s.conn.closed = true → s.conn.writeQ = []

structure SameQueue (s next : Strand) : Prop where
  closed : next.conn.closed = s.conn.closed
  writeQ : next.conn.writeQ = s.conn.writeQ
  outstanding : next.outstanding = s.outstanding
  sent : next.sent = s.sent
  handed : next.handed = s.handed
  pops : next.pops = s.pops

theorem sameQueue_flow {s next : Strand} (same : SameQueue s next) (flow : s.Flow) : next.Flow := by
  refine ⟨?_,?_⟩
  · intro opened
    obtain ⟨front,ledger,handed⟩ := flow.opened (same.closed ▸ opened)
    refine ⟨?_,?_,?_⟩
    · rw [same.outstanding,same.writeQ,front]
    · rw [popped,same.pops,same.writeQ,same.sent]; exact ledger
    · rw [popped,same.handed,same.pops,same.outstanding]; exact handed
  · intro closed
    rw [same.writeQ]
    exact flow.emptied (same.closed ▸ closed)

theorem doRead_same (s : Strand) : SameQueue s s.doRead := by
  unfold doRead
  split <;> exact ⟨rfl,rfl,rfl,rfl,rfl,rfl⟩

theorem start_same (s : Strand) : SameQueue s s.start := by
  unfold start
  split
  · exact ⟨rfl,rfl,rfl,rfl,rfl,rfl⟩
  · obtain ⟨closed,writeQ,outstanding,sent,handed,pops⟩ := doRead_same { s with conn := { s.conn with started := true } }
    exact ⟨closed,writeQ,outstanding,sent,handed,pops⟩

theorem doClose_closed (s : Strand) (notify : Bool) : (s.doClose notify).conn.closed = true := by
  unfold doClose
  split
  · assumption
  · rfl

theorem doClose_pops (s : Strand) (notify : Bool) : (s.doClose notify).pops = s.pops := by
  unfold doClose
  split <;> rfl

theorem doClose_flow {s : Strand} (emptied : s.conn.closed = true → s.conn.writeQ = []) (notify : Bool) :
    (s.doClose notify).Flow := by
  refine ⟨?_,?_⟩
  · intro opened
    rw [doClose_closed] at opened
    cases opened
  · intro _
    unfold doClose
    split
    · rename_i closed; exact emptied closed
    · rfl

theorem doWrite_idle {s : Strand} (open_ : s.conn.closed = false) (idle : s.outstanding = [])
    (ledger : (s.popped ++ s.conn.writeQ).map (·.bytes) = s.sent) (handed : s.handed = s.popped) : s.doWrite.Open := by
  have none_ : s.writing = [] := List.map_eq_nil_iff.mp idle
  unfold doWrite
  rw [open_]
  cases queued : s.conn.writeQ with
  | nil =>
    refine ⟨?_,ledger,?_⟩
    · simp [idle,queued]
    · simp [idle,handed]
  | cons data rest =>
    rw [queued] at ledger
    refine ⟨?_,?_,?_⟩
    · simp [outstanding,none_,queued]
    · simpa [popped,queued] using ledger
    · simp [outstanding,popped,none_,handed]

theorem doWrite_pops (s : Strand) : s.doWrite.pops = s.pops ∧ s.doWrite.conn = s.conn := by
  unfold doWrite
  split
  · exact ⟨rfl,rfl⟩
  · split <;> exact ⟨rfl,rfl⟩

theorem send_pops (s : Strand) (payload : List UInt8) : (s.send payload).pops = s.pops := by
  unfold send
  split
  · rfl
  · dsimp only
    split
    · exact (doWrite_pops _).1
    · rfl

theorem send_closed (s : Strand) (payload : List UInt8) : (s.send payload).conn.closed = s.conn.closed := by
  unfold send
  split
  · rfl
  · dsimp only
    split
    · rw [(doWrite_pops _).2]; rfl
    · rfl

theorem send_flow {s : Strand} (flow : s.Flow) (payload : List UInt8) : (s.send payload).Flow := by
  cases state : s.conn.closed with
  | true =>
    have same : s.send payload = { s with sent := s.sent ++ [payload] } := by simp [send,state]
    rw [same]
    refine ⟨?_,fun _ => flow.emptied state⟩
    intro opened
    rw [state] at opened
    cases opened
  | false =>
    obtain ⟨front,ledger,handed⟩ := flow.opened state
    have pushed : (s.popped ++ (s.push payload).conn.writeQ).map (·.bytes) = s.sent ++ [payload] := by
      rw [← ledger]; simp [push]
    refine ⟨?_,?_⟩
    · intro _
      cases queued : s.conn.writeQ with
      | nil =>
        have same : s.send payload = (s.push payload).doWrite := by simp [send,state,queued]
        rw [queued] at front
        rw [same]
        refine doWrite_idle state front pushed ?_
        rw [front] at handed
        exact handed.trans (List.append_nil _)
      | cons data rest =>
        have same : s.send payload = s.push payload := by simp [send,state,queued]
        rw [same]
        refine ⟨?_,pushed,handed⟩
        have kept : (s.push payload).outstanding = s.outstanding := rfl
        rw [kept,front]
        simp [push,queued]
    · intro closed
      rw [send_closed,state] at closed
      cases closed

theorem call_flow {s : Strand} (flow : s.Flow) (c : Call) : (s.call c).Flow := by
  cases c with
  | send payload => exact send_flow flow payload
  | close => exact doClose_flow flow.emptied true

theorem call_pops (s : Strand) (c : Call) : (s.call c).pops = s.pops := by
  cases c with
  | send payload => exact send_pops s payload
  | close => exact doClose_pops s true

theorem calls_flow {s : Strand} (flow : s.Flow) (calls : List Call) : (calls.foldl call s).Flow := by
  induction calls generalizing s with
  | nil => exact flow
  | cons c rest ih => exact ih (call_flow flow c)

theorem calls_pops (s : Strand) (calls : List Call) : (calls.foldl call s).pops = s.pops := by
  induction calls generalizing s with
  | nil => rfl
  | cons c rest ih => rw [List.foldl_cons,ih,call_pops]

theorem readHandler_flow {s next : Strand} {calls : List Call} {outcome : Outcome} (flow : s.Flow)
    (taken : s.readHandler calls outcome = some next) : next.Flow ∧ next.pops = s.pops := by
  have consumed : SameQueue s { s with reading := none } := ⟨rfl,rfl,rfl,rfl,rfl,rfl⟩
  have idle := sameQueue_flow consumed flow
  cases outcome with
  | pending => cases taken
  | failure => cases taken; exact ⟨doClose_flow idle.emptied true,doClose_pops _ true⟩
  | success =>
    cases taken
    have same := doRead_same (calls.foldl call { s with reading := none })
    exact ⟨sameQueue_flow same (calls_flow idle calls),same.pops.trans (calls_pops _ calls)⟩

theorem open_front {s : Strand} (open_ : s.Open) {place : Nat} {op : WriteOp} (found : s.writing[place]? = some op) :
    s.writing.eraseIdx place = [] ∧ s.outstanding = [op.buffer] ∧ ∃ rest, s.conn.writeQ = op.buffer :: rest := by
  have front := open_.front
  cases queued : s.conn.writeQ with
  | nil =>
    rw [queued] at front
    have none_ : s.writing = [] := List.map_eq_nil_iff.mp front
    simp [none_] at found
  | cons data rest =>
    rw [queued] at front
    obtain ⟨only,one,same⟩ : ∃ only, s.writing = [only] ∧ only.buffer = data := by
      simpa [outstanding] using List.map_eq_singleton_iff.mp front
    rw [one] at found
    obtain ⟨rfl,rfl⟩ : place = 0 ∧ only = op := by
      cases place with
      | zero => simpa using found
      | succ place => simp at found
    subst same
    simp [one,outstanding]

-- A successful write handler pops the buffer written while the connection is
-- open, and an emptied queue once it is closed.
theorem writeHandler_success {s next : Strand} {place : Nat} {op : WriteOp} (flow : s.Flow)
    (found : s.writing[place]? = some op) (success : op.outcome = .success)
    (taken : s.writeHandler place op = some next) : next.Flow ∧
      next.pops = s.pops ++ [(if s.conn.closed then none else some op.buffer,op.buffer)] := by
  simp only [writeHandler,success,Option.some.injEq] at taken
  have written : next = (pop { s with writing := s.writing.eraseIdx place } op.buffer).doWrite := by
    rw [← taken]
    split
    · rfl
    · rename_i drained
      have empty : s.conn.writeQ.tail = [] := not_not.mp drained
      simp [doWrite,pop,empty]
  rw [written]
  refine ⟨?_,?_⟩
  · cases state : s.conn.closed with
    | true =>
      have same : (pop { s with writing := s.writing.eraseIdx place } op.buffer).doWrite.conn =
          { s.conn with writeQ := s.conn.writeQ.tail } := (doWrite_pops _).2
      refine ⟨?_,?_⟩
      · intro opened
        rw [same] at opened
        exact absurd (state.symm.trans opened) (by decide)
      · intro _
        rw [same,flow.emptied state]
        rfl
    | false =>
      obtain ⟨none_,one,rest,queued⟩ := open_front (flow.opened state) found
      obtain ⟨_,ledger,handed⟩ := flow.opened state
      have open_ : (pop { s with writing := s.writing.eraseIdx place } op.buffer).doWrite.Open := by
        refine doWrite_idle state ?_ ?_ ?_
        · simp [pop,outstanding,none_]
        · rw [← ledger]; simp [pop,popped,queued]
        · rw [one] at handed
          simp [pop,popped,handed]
      refine ⟨fun _ => open_,?_⟩
      intro closed
      rw [(doWrite_pops _).2] at closed
      exact absurd (state.symm.trans closed) (by decide)
  · rw [(doWrite_pops _).1]
    cases state : s.conn.closed with
    | true => simp [pop,flow.emptied state]
    | false =>
      obtain ⟨_,_,rest,queued⟩ := open_front (flow.opened state) found
      simp [pop,queued]

-- The buffer whose successful completion an event runs the handler of.
def finished (s : Strand) : Event → Option Buffer
  | .writeHandler place => s.writing[place]?.bind fun op => if op.outcome = .success then some op.buffer else none
  | _ => none

theorem writeHandler_step {s next : Strand} {place : Nat} {op : WriteOp} (flow : s.Flow)
    (found : s.writing[place]? = some op) (taken : s.writeHandler place op = some next) : next.Flow ∧
      next.pops = s.pops ++ ((s.finished (.writeHandler place)).map fun written =>
        (if s.conn.closed then none else some written,written)).toList := by
  cases outcome : op.outcome with
  | pending => simp [writeHandler,outcome] at taken
  | failure =>
    simp only [writeHandler,outcome,Option.some.injEq] at taken
    subst taken
    have emptied : s.conn.closed = true → s.conn.writeQ = [] := flow.emptied
    have after := doClose_flow (s := { s with writing := s.writing.eraseIdx place }) emptied true
    exact ⟨after,by rw [doClose_pops]; simp [finished,found,outcome]⟩
  | success =>
    obtain ⟨after,pops⟩ := writeHandler_success flow found outcome taken
    exact ⟨after,by simp [pops,finished,found,outcome]⟩

theorem set_outcome {writing : List WriteOp} {place : Nat} {op : WriteOp} (found : writing[place]? = some op)
    (outcome : Outcome) : (writing.set place { op with outcome := outcome }).map (·.buffer) = writing.map (·.buffer) := by
  obtain ⟨inside,rfl⟩ := List.getElem?_eq_some_iff.mp found
  have same : (writing.map (·.buffer)).set place writing[place].buffer = writing.map (·.buffer) := by
    rw [← List.map_set,List.set_getElem_self]
  rw [List.map_set]
  exact same

theorem step_flow {s next : Strand} {event : Event} (flow : s.Flow) (taken : s.step event = some next) :
    next.Flow ∧ next.pops = s.pops ++ ((s.finished event).map fun written =>
      (if s.conn.closed then none else some written,written)).toList := by
  cases event with
  | start =>
    cases taken
    have same := start_same s
    exact ⟨sameQueue_flow same flow,by simp [finished,same.pops]⟩
  | call c =>
    cases taken
    exact ⟨call_flow flow c,by simp [finished,call_pops]⟩
  | readCompletes success =>
    simp only [step] at taken
    split at taken
    · cases taken
      have same : SameQueue s { s with reading := some (completed success) } := ⟨rfl,rfl,rfl,rfl,rfl,rfl⟩
      exact ⟨sameQueue_flow same flow,by simp [finished]⟩
    · cases taken
  | readHandler calls =>
    obtain ⟨outcome,_,handled⟩ := Option.bind_eq_some_iff.mp taken
    obtain ⟨after,pops⟩ := readHandler_flow flow handled
    exact ⟨after,by simp [finished,pops]⟩
  | writeCompletes place success =>
    obtain ⟨op,found,completes⟩ := Option.bind_eq_some_iff.mp taken
    split at completes
    · cases completes
      have same : SameQueue s { s with writing := s.writing.set place { op with outcome := completed success } } :=
        ⟨rfl,rfl,set_outcome found _,rfl,rfl,rfl⟩
      exact ⟨sameQueue_flow same flow,by simp [finished]⟩
    · cases completes
  | writeHandler place =>
    obtain ⟨op,found,handled⟩ := Option.bind_eq_some_iff.mp taken
    exact writeHandler_step flow found handled

theorem fresh_flow : fresh.Flow := ⟨fun _ => ⟨rfl,rfl,rfl⟩,fun _ => rfl⟩

end Strand
end GameServer
