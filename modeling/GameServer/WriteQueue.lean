import GameServer.ClientSession
import GameServer.TcpConnection

namespace GameServer.Strand
open Foundation

def PopsWritten (s : Strand) : Prop := ∀ pop ∈ s.pops, pop.1 = some pop.2

def FinishesOpen (s : Strand) (event : Event) : Prop := s.finished event ≠ none → s.conn.closed = false

theorem step_pops_written {s next : Strand} {event : Event} (flow : s.Flow) (before : s.PopsWritten)
    (taken : s.step event = some next) : next.PopsWritten ↔ s.FinishesOpen event := by
  have pops := (step_flow flow taken).2
  unfold PopsWritten FinishesOpen
  rw [pops]
  cases finished : s.finished event with
  | none =>
    rw [Option.map_none,Option.toList_none,List.append_nil]
    exact iff_of_true before (fun some_ => absurd rfl some_)
  | some written =>
    refine ⟨?_,?_⟩
    · intro after _
      have last := after (if s.conn.closed then none else some written,written) (by simp)
      cases state : s.conn.closed with
      | true => simp [state] at last
      | false => rfl
    · intro open_ pop member
      have state := open_ (by simp)
      rcases List.mem_append.mp member with old | new
      · exact before pop old
      · simp only [state,Option.map_some,Option.toList_some,List.mem_singleton] at new
        rw [new]
        rfl

theorem pops_written_exact (events : List Event) : Machine.Always step PopsWritten fresh events ↔
    Machine.Every step (fun s event _ => s.FinishesOpen event) fresh events := by
  refine Machine.always_iff_guarded (fun s event next flow _ taken _ => (step_flow flow taken).1)
    (fun s event next flow before taken => step_pops_written flow before taken) fresh_flow ?_
  intro pop member
  cases member

-- The kernel has written the buffer, Close runs, and then the write handler.
theorem late_completion_pops : ¬ Machine.Always step PopsWritten fresh
    [.start,.call (.send [1]),.writeCompletes 0 true,.call .close,.writeHandler 0] := by
  intro holds
  have reached := holds _ [] _ (List.append_nil _).symm rfl (none,⟨0,[1]⟩) (by decide)
  cases reached

-- The bytes handed to the socket, in the order of the async_write calls.
def wire (s : Strand) : List UInt8 := s.handed.flatMap (·.bytes)

structure OutboundOrdered (s : Strand) : Prop where
  single : s.writing.length ≤ 1
  busy : s.writing ≠ [] ↔ s.conn.writeQ ≠ []
  ordered : s.handed.map (·.bytes) <+: s.sent
  contiguous : ∀ (session : ClientSession) nextMsgId msg payload,
    (session.sendMessage nextMsgId msg).payload = some payload →
    ∀ place, s.sent[place]? = some payload → place < s.handed.length → ∃ after,
      s.wire = (s.sent.take place).flatten ++
        ((MTcpCodec.frames (session.sendMessage nextMsgId msg).msg).flatten ++ after)

theorem run_flow {events : List Event} {s : Strand} (path : Machine.run step fresh events = some s) : s.Flow :=
  Machine.run_preserves (fun _ _ _ flow taken => (step_flow flow taken).1) fresh_flow path

theorem open_ordered {s : Strand} (open_ : s.Open) : s.handed.map (·.bytes) <+: s.sent := by
  obtain ⟨front,ledger,handed⟩ := open_
  rw [handed,← ledger,front]
  cases s.conn.writeQ <;> simp

theorem open_contiguous {s : Strand} (ordered : s.handed.map (·.bytes) <+: s.sent) {place : Nat} {payload : List UInt8}
    (sent : s.sent[place]? = some payload) (handed : place < s.handed.length) :
    ∃ after, s.wire = (s.sent.take place).flatten ++ (payload ++ after) := by
  obtain ⟨rest,whole⟩ := ordered
  have inside : place < (s.handed.map (·.bytes)).length := by simpa using handed
  rw [← whole] at sent
  rw [List.getElem?_append_left inside,List.getElem?_eq_getElem inside,Option.some.injEq] at sent
  have parts := List.take_append_drop place (s.handed.map (·.bytes))
  rw [List.drop_eq_getElem_cons inside,sent] at parts
  refine ⟨((s.handed.map (·.bytes)).drop (place + 1)).flatten,?_⟩
  have flat : s.wire = (s.handed.map (·.bytes)).flatten := List.flatMap_def
  rw [flat,← whole,List.take_append_of_le_length (Nat.le_of_lt inside)]
  nth_rewrite 1 [← parts]
  rw [List.flatten_append,List.flatten_cons]

-- No lost wake-up and no second write: in every open state the socket is busy
-- exactly while the queue holds something, and carries the payloads in order.
theorem outbound_ordered (events : List Event) (s : Strand) (path : Machine.run step fresh events = some s)
    (open_ : s.conn.closed = false) : s.OutboundOrdered := by
  have flow := (run_flow path).opened open_
  have front := flow.front
  have ordered := open_ordered flow
  refine ⟨?_,?_,ordered,?_⟩
  · have size := congrArg List.length front
    rw [outstanding,List.length_map] at size
    cases queued : s.conn.writeQ <;> simp [size,queued]
  · have empty : s.writing = [] ↔ s.outstanding = [] := List.map_eq_nil_iff.symm
    rw [ne_eq,empty,front]
    cases queued : s.conn.writeQ <;> simp
  · intro session nextMsgId msg payload taken place sent handed
    obtain ⟨_,same⟩ := ClientSession.sendMessage_frames taken
    rw [← same]
    exact open_contiguous ordered sent handed

def twoSends : List Event :=
  [.start,.call (.send [1]),.call (.send [2]),.writeCompletes 0 true,.writeHandler 0]

theorem outbound_two_sends : ∃ s, Machine.run step fresh twoSends = some s ∧
    s.handed.map (·.bytes) = [[1],[2]] ∧ s.OutboundOrdered :=
  ⟨_,rfl,rfl,outbound_ordered twoSends _ rfl rfl⟩

end GameServer.Strand
