import GameServer.Incremental
import GameServer.Segmentation
import GameServer.WriteQueue

namespace GameServer.MTcpCodec
open Foundation

-- What is made of the start of a stream of frames: the bytes used up are some of the
-- frames, each taken for what it is, and what is held on to is a start of the others
-- in which the next one is not complete.
def ReadsFront (frames : List (List UInt8)) (received : List UInt8) (result : DecodeResult) : Prop :=
  ∃ whole rest, frames = whole ++ rest ∧ result.messages = whole.map frameMessage ∧
    received.take result.costOffset = whole.flatten ∧ received.drop result.costOffset <+: rest.flatten ∧
    ∀ frame ∈ rest.head?, ¬ frame <+: received.drop result.costOffset

theorem expected_reads {frames : List (List UInt8)} (expected : ClientSession.Expected frames) {received : List UInt8}
    (arrived : received <+: frames.flatten) (past : Nat → UInt8) : ReadsFront frames received (decodeSync past received) := by
  obtain ⟨more,arriving⟩ := arrived
  obtain ⟨rest,parts,start⟩ := Framing.split_prefix expected.valid arriving
  have expected' : ClientSession.Expected rest := ClientSession.expected_rest (parts ▸ expected)
  have left : received.drop (decodeSync past received).costOffset = (framing.split received).2 := by
    rw [(decode_leftover past received).2,ClientSession.leftover_start (ClientSession.start_magic expected' start)]
  refine ⟨(framing.split received).1,rest,parts,?_,?_,?_,?_⟩
  · have whole : ∀ frame ∈ (framing.split received).1, SelfContained frame := by
      intro frame member
      exact expected.whole frame (by rw [parts]; simp [member])
    by_cases long : protoHeaderSize ≤ received.length
    · have messages := messagesAt_frames (Framing.split_isFrame received) whole past [] (framing.split received).2
      rw [List.nil_append,List.length_nil,Framing.split_flatten] at messages
      rw [decodeSync_split past long,finish_messages,messages]
    · rw [Framing.split_none (short_unfinished (Nat.lt_of_not_le long)),decodeSync,if_pos (Nat.lt_of_not_le long)]
      rfl
  · have used := List.take_append_drop (decodeSync past received).costOffset received
    rw [left] at used
    exact List.append_cancel_right (used.trans (Framing.split_flatten received).symm)
  · rw [left]
    exact ⟨more,start⟩
  · rw [left]
    intro frame next complete
    cases rest with
    | nil => cases next
    | cons head others =>
      cases next
      have short := Framing.unfinished_short (Framing.split_unfinished received) (expected'.valid frame (by simp)) start
      exact Nat.not_lt_of_le complete.length_le short

end GameServer.MTcpCodec

namespace GameServer.Strand
open Foundation MTcpCodec

-- What has been handed to the socket is the front of what the strand was given to
-- send, also when it goes on being given more after it has closed.
def InOrder (s : Strand) : Prop := s.handed.map (·.bytes) <+: s.sent

section Order
variable {s next : Strand}

theorem flow_inOrder (flow : s.Flow) (closed : s.conn.closed = true → s.InOrder) : s.InOrder := by
  cases state : s.conn.closed with
  | false => exact open_ordered (flow.opened state)
  | true => exact closed state

theorem sameQueue_inOrder (same : SameQueue s next) (ordered : s.InOrder) : next.InOrder := by
  rw [InOrder,same.handed,same.sent]
  exact ordered

theorem doClose_inOrder (ordered : s.InOrder) (notify : Bool) : (s.doClose notify).InOrder := by
  unfold doClose
  split <;> exact ordered

theorem send_inOrder (flow : s.Flow) (ordered : s.InOrder) (payload : List UInt8) : (s.send payload).InOrder := by
  refine flow_inOrder (send_flow flow payload) ?_
  intro closed
  rw [send_closed] at closed
  have same : s.send payload = { s with sent := s.sent ++ [payload] } := by simp [send,closed]
  rw [same]
  exact ordered.trans (List.prefix_append _ _)

theorem call_inOrder (flow : s.Flow) (ordered : s.InOrder) (c : Call) : (s.call c).InOrder := by
  cases c with
  | send payload => exact send_inOrder flow ordered payload
  | close => exact doClose_inOrder ordered true

theorem calls_inOrder (flow : s.Flow) (ordered : s.InOrder) (calls : List Call) : (calls.foldl call s).InOrder := by
  induction calls generalizing s with
  | nil => exact ordered
  | cons c rest ih => exact ih (call_flow flow c) (call_inOrder flow ordered c)

theorem writeHandler_inOrder {place : Nat} {op : WriteOp} (flow : s.Flow) (ordered : s.InOrder)
    (found : s.writing[place]? = some op) (taken : s.writeHandler place op = some next) : next.InOrder := by
  refine flow_inOrder (writeHandler_step flow found taken).1 ?_
  intro closed
  unfold writeHandler at taken
  cases outcome : op.outcome with
  | pending => simp [outcome] at taken
  | failure =>
    simp only [outcome,Option.some.injEq] at taken
    have aside : ({ s with writing := s.writing.eraseIdx place } : Strand).InOrder := ordered
    rw [← taken]
    exact doClose_inOrder aside true
  | success =>
    simp only [outcome,Option.some.injEq] at taken
    -- A connection that is closed here was so before, and writes nothing more.
    split at taken
    · rw [← taken,(doWrite_pops _).2] at closed
      rw [← taken,doWrite,if_pos closed]
      exact ordered
    · rw [← taken]
      exact ordered

theorem step_inOrder {event : Event} (flow : s.Flow) (ordered : s.InOrder) (taken : s.step event = some next) :
    next.InOrder := by
  cases event with
  | start => cases taken; exact sameQueue_inOrder (start_same s) ordered
  | call c => cases taken; exact call_inOrder flow ordered c
  | readCompletes success =>
    simp only [step] at taken
    split at taken
    · cases taken; exact ordered
    · cases taken
  | readHandler calls =>
    obtain ⟨outcome,_,handled⟩ := Option.bind_eq_some_iff.mp taken
    have consumed : SameQueue s { s with reading := none } := ⟨rfl,rfl,rfl,rfl,rfl,rfl⟩
    cases outcome with
    | pending => cases handled
    | failure =>
      have aside : ({ s with reading := none } : Strand).InOrder := ordered
      cases handled
      exact doClose_inOrder aside true
    | success =>
      cases handled
      exact sameQueue_inOrder (doRead_same _) (calls_inOrder (sameQueue_flow consumed flow) ordered calls)
  | writeCompletes place success =>
    obtain ⟨op,found,completes⟩ := Option.bind_eq_some_iff.mp taken
    split at completes
    · cases completes; exact ordered
    · cases completes
  | writeHandler place =>
    obtain ⟨op,found,handled⟩ := Option.bind_eq_some_iff.mp taken
    exact writeHandler_inOrder flow ordered found handled

theorem run_inOrder {events : List Event} (path : Machine.run step fresh events = some s) : s.Flow ∧ s.InOrder := by
  have kept : ∀ (s : Strand) event next, s.Flow ∧ s.InOrder → step s event = some next → next.Flow ∧ next.InOrder :=
    fun _ _ _ both taken => ⟨(step_flow both.1 taken).1,step_inOrder both.1 both.2 taken⟩
  exact Machine.run_preserves kept ⟨fresh_flow,List.nil_prefix⟩ path

theorem wire_taken (ordered : s.InOrder) {msgs : List EncodeMessage}
    (sent : s.sent = msgs.map fun msg => (encodeSync msg).encodedMessage) : s.wire = stream (msgs.take s.handed.length) := by
  have handed := List.prefix_iff_eq_take.mp ordered
  rw [List.length_map,sent,← List.map_take] at handed
  rw [wire,List.flatMap_def,handed,stream,List.flatMap_def]

theorem drained (open_ : s.Open) (empty : s.conn.writeQ = []) : s.handed.map (·.bytes) = s.sent := by
  obtain ⟨front,ledger,handed⟩ := open_
  rw [empty] at front ledger
  rw [handed,front,List.head?_nil,Option.toList_none,← ledger]

end Order

-- However the connection fares, and wherever the bytes of it stop that reach the
-- peer, what is decoded there are the fragments of a front of the messages sent, all
-- that have come in whole; while the connection is open and idle, nothing is lost.
theorem outbound_decodes (events : List Event) (s : Strand) (path : Machine.run step fresh events = some s)
    (msgs : List EncodeMessage) (encodable : ∀ msg ∈ msgs, Encodable msg)
    (sent : s.sent = msgs.map fun msg => (encodeSync msg).encodedMessage) :
    s.wire = stream (msgs.take s.handed.length) ∧
      (s.conn.closed = false → s.conn.writeQ = [] → s.wire = stream msgs) ∧
      ∀ past received, received <+: s.wire →
        ReadsFront ((msgs.take s.handed.length).flatMap frames) received (decodeSync past received) := by
  obtain ⟨flow,ordered⟩ := run_inOrder path
  have wire := wire_taken ordered sent
  refine ⟨wire,?_,?_⟩
  · intro open_ empty
    rw [Strand.wire,List.flatMap_def,drained (flow.opened open_) empty,sent,stream,List.flatMap_def]
  · intro past received arrived
    have encodable' : ∀ msg ∈ msgs.take s.handed.length, Encodable msg := fun msg member =>
      encodable msg (List.mem_of_mem_take member)
    rw [wire,stream_frames encodable'] at arrived
    exact expected_reads (ClientSession.frames_expected _) arrived past

def letter (msgId : MsgId) : EncodeMessage := ⟨msgId,ProtoType.data,4,1,[65]⟩

def twoLetters : List Event :=
  [.start,.call (.send (encodeSync (letter 1)).encodedMessage),.call .close,.call (.send (encodeSync (letter 2)).encodedMessage)]

theorem letters_decoded : ∃ s, Machine.run step fresh twoLetters = some s ∧ s.wire = stream [letter 1] ∧
    ∀ past received, received <+: s.wire → ReadsFront (frames (letter 1)) received (decodeSync past received) := by
  obtain ⟨s,path,sent,handed⟩ : ∃ s, Machine.run step fresh twoLetters = some s ∧
      s.sent = [letter 1,letter 2].map (fun msg => (encodeSync msg).encodedMessage) ∧ s.handed.length = 1 := ⟨_,rfl,rfl,rfl⟩
  have encodable : ∀ msg ∈ [letter 1,letter 2], Encodable msg := by
    intro msg member
    simp only [List.mem_cons,List.not_mem_nil,or_false] at member
    rcases member with rfl | rfl <;> exact ⟨by decide,by decide,by decide⟩
  obtain ⟨wire,_,reads⟩ := outbound_decodes twoLetters s path _ encodable sent
  rw [handed] at wire reads
  exact ⟨s,path,wire,reads⟩

end GameServer.Strand
