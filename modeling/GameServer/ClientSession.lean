import GameServer.Foundation.Machine
import GameServer.CodecRoundTrip

namespace GameServer
open Foundation MTcpCodec

structure MsgPack where
  senderId : UserId
  senderSessionId : SessionId
  roomId : RoomId
  msg : DecodedMessage
deriving DecidableEq, Repr

structure ClientSession where
  sessionId : SessionId
  hasConnection : Bool
  readBuffer : List UInt8
  bufferUsed : Nat

namespace ClientSession

def readBufferSize : Nat := 64 * 1024

def create (sessionId : SessionId) : ClientSession := ⟨sessionId,true,List.replicate readBufferSize 0,0⟩

-- One read completion: the bytes, and whatever lies in memory behind read_buffer_.
structure Read where
  data : List UInt8
  heap : Nat → UInt8

-- std::copy of the new bytes behind the used ones.
def copied (s : ClientSession) (data : List UInt8) : List UInt8 :=
  s.readBuffer.take s.bufferUsed ++ (data ++ s.readBuffer.drop (s.bufferUsed + data.length))

def past (s : ClientSession) (read : Read) (k : Nat) : UInt8 :=
  let place := s.bufferUsed + read.data.length + k
  (s.copied read.data).getD place (read.heap (place - s.readBuffer.length))

def decoded (s : ClientSession) (read : Read) : DecodeResult :=
  decodeSync (s.past read) ((s.copied read.data).take (s.bufferUsed + read.data.length))

-- memmove of what follows the discarded bytes to the front.
def discarded (s : ClientSession) (buffer : List UInt8) (used cost : Nat) : ClientSession :=
  if cost > 0 then
    let left := used - cost
    { s with readBuffer := (buffer.drop cost).take left ++ buffer.drop left, bufferUsed := left }
  else { s with readBuffer := buffer, bufferUsed := used }

def pack (sessionId : SessionId) (msg : DecodedMessage) : MsgPack := ⟨0,sessionId,0,msg⟩

-- The packs are the calls of onMsgReceive. `none` is undefined behaviour: a copy
-- past the end of read_buffer_, or a cost larger than what is used.
def onSocketRecv (s : ClientSession) (read : Read) : Option (ClientSession × List MsgPack) :=
  if read.data.isEmpty then some (s,[])
  else
    let used := s.bufferUsed + read.data.length
    if used > s.readBuffer.length then none
    else
      let result := s.decoded read
      if result.costOffset > used then none
      else
        let next := s.discarded (s.copied read.data) used result.costOffset
        if !result.success then some (next,[])
        else some (next,result.messages.map (pack s.sessionId))

-- What SendMessage leaves: its answer, the message with the id it was given,
-- the shared counter, and the payload of the one Send it makes, if any.
structure SendResult where
  sent : Bool
  msg : EncodeMessage
  nextMsgId : MsgId
  payload : Option (List UInt8)

def writeEncodedPayload (s : ClientSession) (encodedMessage : List UInt8) : Option (List UInt8) :=
  if !s.hasConnection || encodedMessage.isEmpty then none else some encodedMessage

def sendMessage (s : ClientSession) (nextMsgId : MsgId) (msg : EncodeMessage) : SendResult :=
  let fresh := msg.msgId = 0
  let msg := if fresh then { msg with msgId := nextMsgId } else msg
  let nextMsgId := if fresh then nextMsgId + 1 else nextMsgId
  let result := encodeSync msg
  if !result.success then ⟨false,msg,nextMsgId,none⟩
  else
    let payload := s.writeEncodedPayload result.encodedMessage
    ⟨payload.isSome,msg,nextMsgId,payload⟩

def pending (s : ClientSession) : List UInt8 := s.readBuffer.take s.bufferUsed

structure Intact (s : ClientSession) : Prop where
  size : s.readBuffer.length = readBufferSize
  used : s.bufferUsed ≤ readBufferSize

theorem create_intact (sessionId : SessionId) : (create sessionId).Intact :=
  ⟨List.length_replicate,Nat.zero_le _⟩

theorem create_pending (sessionId : SessionId) : (create sessionId).pending = [] := List.take_zero

theorem pending_length {s : ClientSession} (intact : s.Intact) : s.pending.length = s.bufferUsed := by
  rw [pending,List.length_take,intact.size]
  exact Nat.min_eq_left intact.used

theorem copied_take {s : ClientSession} (intact : s.Intact) (data : List UInt8) :
    (s.copied data).take (s.bufferUsed + data.length) = s.pending ++ data := by
  have length : (s.pending ++ data).length = s.bufferUsed + data.length := by
    rw [List.length_append,pending_length intact]
  rw [copied,← List.append_assoc,← length]
  exact List.take_left

theorem copied_length {s : ClientSession} (intact : s.Intact) {data : List UInt8}
    (fits : s.bufferUsed + data.length ≤ readBufferSize) : (s.copied data).length = readBufferSize := by
  rw [copied,List.length_append,List.length_append,List.length_drop,intact.size]
  have used := pending_length intact
  rw [pending] at used
  omega

theorem decoded_pending {s : ClientSession} (intact : s.Intact) (read : Read) :
    s.decoded read = decodeSync (s.past read) (s.pending ++ read.data) := by
  rw [decoded,copied_take intact]

theorem discarded_pending (s : ClientSession) {buffer : List UInt8} {used cost : Nat}
    (size : buffer.length = readBufferSize) (fits : used ≤ readBufferSize) (covered : cost ≤ used) :
    (s.discarded buffer used cost).pending = (buffer.take used).drop cost ∧
      (s.discarded buffer used cost).Intact ∧ (s.discarded buffer used cost).sessionId = s.sessionId := by
  unfold discarded
  split
  · have left : ((buffer.drop cost).take (used - cost)).length = used - cost := by
      rw [List.length_take,List.length_drop]; omega
    refine ⟨?_,⟨?_,?_⟩,rfl⟩
    · rw [pending,List.take_append_of_le_length (Nat.le_of_eq left.symm),List.take_of_length_le (Nat.le_of_eq left),
        List.drop_take]
    · rw [List.length_append,left,List.length_drop]; omega
    · dsimp only; omega
  · have none_ : cost = 0 := by omega
    subst none_
    exact ⟨rfl,⟨size,fits⟩,rfl⟩

theorem onSocketRecv_pending {s : ClientSession} (intact : s.Intact) {read : Read} (some_ : read.data ≠ [])
    (fits : s.bufferUsed + read.data.length ≤ readBufferSize) :
    ∃ next, s.onSocketRecv read = some (next,if (s.decoded read).success
        then (s.decoded read).messages.map (pack s.sessionId) else []) ∧
      next.Intact ∧ next.sessionId = s.sessionId ∧ next.pending = leftover (s.pending ++ read.data) := by
  obtain ⟨inside,left⟩ := decode_leftover (s.past read) (s.pending ++ read.data)
  rw [← decoded_pending intact] at inside left
  rw [List.length_append,pending_length intact] at inside
  have notEmpty : read.data.isEmpty = false := by simpa using some_
  have room : ¬ s.bufferUsed + read.data.length > s.readBuffer.length := by
    rw [intact.size]; omega
  have covered : ¬ (s.decoded read).costOffset > s.bufferUsed + read.data.length := Nat.not_lt.mpr inside
  obtain ⟨kept,after,same⟩ := s.discarded_pending (copied_length intact fits) fits inside
  refine ⟨_,?_,after,same,?_⟩
  · simp only [onSocketRecv,notEmpty,room,covered,if_false,Bool.false_eq_true]
    cases (s.decoded read).success <;> simp
  · rw [kept,copied_take intact,left]

theorem onSocketRecv_overflow {s : ClientSession} {read : Read} (some_ : read.data ≠ [])
    (overflow : s.readBuffer.length < s.bufferUsed + read.data.length) : s.onSocketRecv read = none := by
  have notEmpty : read.data.isEmpty = false := by simpa using some_
  simp [onSocketRecv,notEmpty,overflow]

theorem sendMessage_frames {s : ClientSession} {nextMsgId : MsgId} {msg : EncodeMessage} {payload : List UInt8}
    (sent : (s.sendMessage nextMsgId msg).payload = some payload) :
    Encodable (s.sendMessage nextMsgId msg).msg ∧ payload = (frames (s.sendMessage nextMsgId msg).msg).flatten := by
  simp only [sendMessage] at sent ⊢
  generalize (if msg.msgId = 0 then { msg with msgId := nextMsgId } else msg) = numbered at sent ⊢
  cases accepted : (encodeSync numbered).success with
  | false => simp [accepted] at sent
  | true =>
    have encodable := encodeSync_success.mp accepted
    simp only [accepted,Bool.not_true,Bool.false_eq_true,if_false,writeEncodedPayload] at sent ⊢
    split at sent
    · cases sent
    · cases sent
      exact ⟨encodable,by rw [encodeSync_encodable encodable]⟩

end ClientSession
end GameServer
