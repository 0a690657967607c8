import GameServer.CodecStream

namespace GameServer.MTcpCodec
open Foundation

-- A frame that carries its own type bytes, so that no byte behind it is read for its message.
def SelfContained (frame : List UInt8) : Prop :=
  (ProtoHeader.ofBytes frame).protoType = ProtoType.heartBeat ∨ 2 ≤ (ProtoHeader.ofBytes frame).payloadLen.toNat

def frameMessage (frame : List UInt8) : DecodedMessage := decodeFrame (fun _ => 0) frame 0

theorem decodeFrame_inside {frame : List UInt8} (valid : framing.IsFrame frame) (whole : SelfContained frame)
    (past : Nat → UInt8) (before more : List UInt8) :
    decodeFrame past (before ++ (frame ++ more)) before.length = frameMessage frame := by
  obtain ⟨header,magic,size⟩ := isFrame_iff.mp valid
  have here : ProtoHeader.ofBytes ((before ++ (frame ++ more)).drop before.length) = ProtoHeader.ofBytes frame := by
    rw [List.drop_left,ProtoHeader.ofBytes_append header]
  rw [frameMessage,decodeFrame,decodeFrame,here,List.drop_zero]
  by_cases beat : (ProtoHeader.ofBytes frame).protoType = ProtoType.heartBeat
  · simp only [beat,if_true]
  · have prefixed : 2 ≤ (ProtoHeader.ofBytes frame).payloadLen.toNat := whole.resolve_left beat
    rw [announced] at size
    have byte (place : Nat) (inside : place < frame.length) :
        byteAt past (before ++ (frame ++ more)) (before.length + place) = byteAt (fun _ => 0) frame place := by
      have shift : before.length ≤ before.length + place := Nat.le_add_right _ _
      simp [byteAt,List.getElem?_append_right shift,List.getElem?_append_left inside,
        List.getElem?_eq_getElem inside]
    have body : (before ++ (frame ++ more)).drop (before.length + protoHeaderSize + 2) =
        frame.drop (protoHeaderSize + 2) ++ more := by
      rw [Nat.add_assoc,List.drop_append,List.drop_of_length_le (by omega),List.nil_append,
        Nat.add_sub_cancel_left,List.drop_append_of_le_length (by omega)]
    simp only [beat,if_false,Nat.zero_add]
    congr 1
    · exact byte protoHeaderSize (by omega)
    · rw [Nat.add_assoc]
      exact byte (protoHeaderSize + 1) (by omega)
    · rw [body,List.take_append_of_le_length (by rw [List.length_drop]; omega)]

theorem messagesAt_frames {frames : List (List UInt8)} (valid : ∀ frame ∈ frames, framing.IsFrame frame)
    (whole : ∀ frame ∈ frames, SelfContained frame) (past : Nat → UInt8) (before more : List UInt8) :
    messagesAt past (before ++ (frames.flatten ++ more)) before.length frames = frames.map frameMessage := by
  induction frames generalizing before with
  | nil => rfl
  | cons frame rest ih =>
    have later := ih (fun other member => valid other (by simp [member]))
      (fun other member => whole other (by simp [member])) (before ++ frame)
    have first := decodeFrame_inside (valid frame (by simp)) (whole frame (by simp)) past before (rest.flatten ++ more)
    rw [List.append_assoc,List.length_append] at later
    rw [List.flatten_cons,List.append_assoc,messagesAt,first,later,List.map_cons]

theorem decodeSync_frames {frames : List (List UInt8)} (valid : ∀ frame ∈ frames, framing.IsFrame frame)
    (whole : ∀ frame ∈ frames, SelfContained frame) {tail : List UInt8} (unfinished : frameSize tail = none)
    (long : protoHeaderSize ≤ (frames.flatten ++ tail).length) (past : Nat → UInt8) :
    decodeSync past (frames.flatten ++ tail) =
      finish (frames.flatten ++ tail) (frames.map frameMessage) frames.flatten.length tail := by
  have messages := messagesAt_frames valid whole past [] tail
  rw [List.nil_append,List.length_nil] at messages
  rw [decodeSync_split past long,Framing.split_unique valid unfinished,messages]

theorem fragment_length (payload : List UInt8) (seq : Nat) : (fragment payload seq).length ≤ chunkSize := by
  rw [fragment,List.length_take]
  omega

theorem body_short (payload : List UInt8) (seq : Nat) : (fragment payload seq).length + 2 < 65536 := by
  have bound := fragment_length payload seq
  rw [chunkSize] at bound
  omega

section EncodedFrames
variable (msg : EncodeMessage) (total seq : Nat)

theorem encodeFrame_header :
    ∃ hdr : ProtoHeader, ∃ body : List UInt8, encodeFrame msg total seq = hdr.toBytes ++ body ∧
      body = msg.mainType :: msg.subType :: fragment msg.payload seq ∧
      hdr.header = protoMagic ∧ hdr.protoType = ProtoType.data ∧ hdr.payloadLen.toNat = body.length ∧
      joinId hdr.msgIdHigh hdr.msgIdLow = msg.msgId := by
  have short := body_short msg.payload seq
  refine ⟨_,_,rfl,rfl,rfl,rfl,?_,join_halves _⟩
  simp only [List.length_cons]
  rw [UInt16.toNat_ofNat_of_lt' (by simp only [UInt16.size]; omega)]

theorem encodeFrame_isFrame : framing.IsFrame (encodeFrame msg total seq) := by
  obtain ⟨hdr,body,bytes,_,magic,_,size,_⟩ := encodeFrame_header msg total seq
  rw [bytes]
  refine isFrame_iff.mpr ⟨?_,?_,?_⟩
  · rw [List.length_append,ProtoHeader.toBytes_length]; omega
  · rw [BeginsMagic,ProtoHeader.ofBytes_toBytes]; exact magic
  · rw [announced,ProtoHeader.ofBytes_toBytes,size,List.length_append,ProtoHeader.toBytes_length]

theorem encodeFrame_selfContained : SelfContained (encodeFrame msg total seq) := by
  obtain ⟨hdr,body,bytes,same,_,_,size,_⟩ := encodeFrame_header msg total seq
  apply Or.inr
  rw [bytes,ProtoHeader.ofBytes_toBytes,size,same]
  simp

theorem encodeFrame_message : frameMessage (encodeFrame msg total seq) =
    ⟨msg.msgId,0,msg.mainType,msg.subType,fragment msg.payload seq⟩ := by
  obtain ⟨hdr,body,bytes,same,_,data,size,id⟩ := encodeFrame_header msg total seq
  have notBeat : hdr.protoType ≠ ProtoType.heartBeat := by rw [data]; decide
  have typeByte (place : Nat) :
      byteAt (fun _ => 0) (hdr.toBytes ++ body) (protoHeaderSize + place) = body.getD place 0 := by
    rw [byteAt,List.getD_append_right _ _ _ _ (by rw [ProtoHeader.toBytes_length]; omega),
      ProtoHeader.toBytes_length,Nat.add_sub_cancel_left]
  have rest : (hdr.toBytes ++ body).drop (protoHeaderSize + 2) = body.drop 2 := by
    rw [← ProtoHeader.toBytes_length hdr,List.drop_append,Nat.add_sub_cancel_left,
      List.drop_of_length_le (Nat.le_add_right _ _),List.nil_append]
  have main := typeByte 0
  have sub := typeByte 1
  rw [Nat.add_zero] at main
  rw [bytes,frameMessage,decodeFrame,List.drop_zero,ProtoHeader.ofBytes_toBytes,if_neg notBeat]
  simp only [Nat.zero_add,main,sub,rest,size,id]
  simp [same]

end EncodedFrames

def frames (msg : EncodeMessage) : List (List UInt8) :=
  (List.range (totalFrames msg.payload.length)).map (encodeFrame msg (totalFrames msg.payload.length))

theorem frames_valid (msg : EncodeMessage) : ∀ frame ∈ frames msg, framing.IsFrame frame ∧ SelfContained frame := by
  intro frame member
  obtain ⟨seq,_,rfl⟩ := List.mem_map.mp member
  exact ⟨encodeFrame_isFrame msg _ seq,encodeFrame_selfContained msg _ seq⟩

-- The domain of business messages: the codec takes any of these and no others.
structure Encodable (msg : EncodeMessage) : Prop where
  business : msg.protoType ≠ ProtoType.heartBeat
  nonempty : 1 ≤ msg.payload.length
  bounded : msg.payload.length ≤ maxDataSize

theorem totalFrames_pos {size : Nat} (nonempty : 1 ≤ size) : 0 < totalFrames size := by
  rw [totalFrames,chunkSize]
  omega

theorem encodeSync_encodable {msg : EncodeMessage} (encodable : Encodable msg) :
    encodeSync msg = ⟨true,"",(frames msg).flatten⟩ := by
  obtain ⟨business,nonempty,bounded⟩ := encodable
  have filled : msg.payload ≠ [] := List.ne_nil_of_length_pos nonempty
  have few : ¬ totalFrames msg.payload.length > 65535 := by
    simp only [totalFrames,chunkSize,maxDataSize] at bounded ⊢
    omega
  have fits : ¬ msg.payload.length > maxDataSize := Nat.not_lt.mpr bounded
  simp [encodeSync,filled,fits,few,business,totalFrames_pos nonempty,frames,List.flatMap_def]

theorem encodeSync_success {msg : EncodeMessage} : (encodeSync msg).success = true ↔ Encodable msg := by
  refine ⟨?_,fun encodable => by rw [encodeSync_encodable encodable]⟩
  intro accepted
  unfold encodeSync at accepted
  split at accepted
  · cases accepted
  · rename_i sized
    simp only [Bool.or_eq_true,List.isEmpty_iff,decide_eq_true_eq,not_or] at sized
    have filled : 1 ≤ msg.payload.length := List.length_pos_of_ne_nil sized.1
    dsimp only at accepted
    split at accepted
    · cases accepted
    · split at accepted
      · simp [sized.1] at accepted
      · rename_i business
        exact ⟨business,filled,Nat.le_of_not_lt sized.2⟩

def bytesBetween (payload : List UInt8) (first last : Nat) : List UInt8 := (payload.take last).drop first

theorem fragment_eq (payload : List UInt8) (seq : Nat) : fragment payload seq =
    bytesBetween payload (chunkSize * seq) (min (chunkSize * (seq + 1)) payload.length) := by
  rw [fragment,bytesBetween,List.drop_take,Nat.mul_comm seq]
  congr 1
  rw [Nat.mul_add]
  omega

theorem fragments_take (payload : List UInt8) (count : Nat) :
    (List.range count).flatMap (fragment payload) = payload.take (chunkSize * count) := by
  induction count with
  | zero => simp
  | succ count ih =>
    have last : fragment payload count = (payload.drop (chunkSize * count)).take chunkSize := by
      rw [fragment,Nat.mul_comm count,← List.length_drop,← List.take_eq_take_min]
    rw [List.range_succ,List.flatMap_append,ih,List.flatMap_singleton,last,Nat.mul_add,Nat.mul_one,List.take_add]

theorem fragments_payload (payload : List UInt8) :
    (List.range (totalFrames payload.length)).flatMap (fragment payload) = payload := by
  rw [fragments_take,List.take_of_length_le]
  rw [totalFrames,chunkSize]
  omega

-- What a receiver is to see of one message: one decoded message a fragment.
def decodedFragments (msg : EncodeMessage) : List DecodedMessage :=
  (List.range (totalFrames msg.payload.length)).map fun k =>
    ⟨msg.msgId,0,msg.mainType,msg.subType,
      bytesBetween msg.payload (chunkSize * k) (min (chunkSize * (k + 1)) msg.payload.length)⟩

theorem frames_messages (msg : EncodeMessage) : (frames msg).map frameMessage = decodedFragments msg := by
  rw [frames,decodedFragments,List.map_map]
  apply List.map_congr_left
  intro k _
  rw [Function.comp_apply,encodeFrame_message,fragment_eq]

theorem decodedFragments_payload (msg : EncodeMessage) :
    (decodedFragments msg).flatMap (·.payload) = msg.payload := by
  rw [decodedFragments,List.flatMap_map]
  simpa only [← fragment_eq] using fragments_payload msg.payload

def stream (msgs : List EncodeMessage) : List UInt8 := msgs.flatMap fun msg => (encodeSync msg).encodedMessage

theorem stream_frames {msgs : List EncodeMessage} (encodable : ∀ msg ∈ msgs, Encodable msg) :
    stream msgs = (msgs.flatMap frames).flatten := by
  induction msgs with
  | nil => rfl
  | cons msg rest ih =>
    have later := ih (fun other member => encodable other (by simp [member]))
    have first := encodeSync_encodable (encodable msg (by simp))
    rw [stream] at later
    rw [stream,List.flatMap_cons,List.flatMap_cons,List.flatten_append,later,first]

theorem stream_messages (msgs : List EncodeMessage) :
    (msgs.flatMap frames).map frameMessage = msgs.flatMap decodedFragments := by
  rw [List.map_flatMap]
  simp only [frames_messages]

theorem stream_valid (msgs : List EncodeMessage) :
    ∀ frame ∈ msgs.flatMap frames, framing.IsFrame frame ∧ SelfContained frame := by
  intro frame member
  obtain ⟨msg,_,inside⟩ := List.mem_flatMap.mp member
  exact frames_valid msg frame inside

theorem stream_long {msgs : List EncodeMessage} (encodable : ∀ msg ∈ msgs, Encodable msg) (some_ : msgs ≠ []) :
    protoHeaderSize ≤ (stream msgs).length := by
  obtain ⟨msg,rest,rfl⟩ := List.exists_cons_of_ne_nil some_
  have positive := totalFrames_pos (encodable msg (by simp)).nonempty
  have first : encodeFrame msg (totalFrames msg.payload.length) 0 ∈ (msg :: rest).flatMap frames := by
    rw [List.flatMap_cons,List.mem_append]
    exact Or.inl (List.mem_map.mpr ⟨0,List.mem_range.mpr positive,rfl⟩)
  have header := (isFrame_iff.mp (stream_valid _ _ first).1).1
  rw [stream_frames encodable]
  exact Nat.le_trans header (List.sublist_flatten_of_mem first).length_le

-- The whole law for one list of messages, success flag included.
structure RoundTrips (msgs : List EncodeMessage) (past : Nat → UInt8) : Prop where
  encodes : ∀ msg ∈ msgs, (encodeSync msg).success = true
  success : (decodeSync past (stream msgs)).success = true
  consumes : (decodeSync past (stream msgs)).costOffset = (stream msgs).length
  messages : (decodeSync past (stream msgs)).messages = msgs.flatMap decodedFragments
  counts : ∀ msg ∈ msgs, (decodedFragments msg).length = (msg.payload.length + 4095) / 4096
  payloads : ∀ msg ∈ msgs, (decodedFragments msg).flatMap (·.payload) = msg.payload

theorem frameSize_nil : frameSize [] = none := rfl

theorem decode_stream {msgs : List EncodeMessage} (encodable : ∀ msg ∈ msgs, Encodable msg) (some_ : msgs ≠ [])
    (past : Nat → UInt8) : decodeSync past (stream msgs) =
      ⟨true,"",msgs.flatMap decodedFragments,(stream msgs).length⟩ := by
  have long := stream_long encodable some_
  have whole := stream_frames encodable
  rw [whole] at long ⊢
  have decoded := decodeSync_frames (fun frame member => (stream_valid msgs frame member).1)
    (fun frame member => (stream_valid msgs frame member).2) frameSize_nil
    (by rw [List.append_nil]; exact long) past
  rw [List.append_nil,stream_messages] at decoded
  rw [decoded]
  rfl

theorem decode_messages {msgs : List EncodeMessage} (encodable : ∀ msg ∈ msgs, Encodable msg) (past : Nat → UInt8) :
    (decodeSync past (stream msgs)).messages = msgs.flatMap decodedFragments := by
  cases msgs with
  | nil => rfl
  | cons msg rest => rw [decode_stream encodable (List.cons_ne_nil _ _)]

theorem roundTrips {msgs : List EncodeMessage} (encodable : ∀ msg ∈ msgs, Encodable msg) (some_ : msgs ≠ [])
    (past : Nat → UInt8) : RoundTrips msgs past := by
  have decoded := decode_stream encodable some_ past
  refine ⟨?_,?_,?_,?_,?_,?_⟩
  · intro msg member
    exact encodeSync_success.mpr (encodable msg member)
  · rw [decoded]
  · rw [decoded]
  · exact decode_messages encodable past
  · intro msg _
    simp [decodedFragments,totalFrames,chunkSize]
  · intro msg _
    exact decodedFragments_payload msg

-- The empty stream is shorter than a header, which the decoder reports as a failure.
theorem stream_round_trip (msgs : List EncodeMessage) (encodable : ∀ msg ∈ msgs, Encodable msg)
    (past : Nat → UInt8) : (msgs ≠ [] → RoundTrips msgs past) ∧
      (msgs = [] → decodeSync past (stream msgs) = ⟨false,"TcpCodec Decode Input Too Short",[],0⟩) := by
  refine ⟨fun some_ => roundTrips encodable some_ past,?_⟩
  intro none_
  subst none_
  rfl

theorem stream_round_trip_split : RoundTrips [⟨7,ProtoType.data,4,1,List.replicate 4097 65⟩] (fun _ => 0) := by
  refine (stream_round_trip [⟨7,ProtoType.data,4,1,List.replicate 4097 65⟩] ?_ _).1 (List.cons_ne_nil _ _)
  intro msg member
  rw [List.mem_singleton.mp member]
  exact ⟨by decide,by rw [List.length_replicate]; decide,by rw [List.length_replicate]; decide⟩

theorem empty_stream_refused : ¬ RoundTrips [] (fun _ => 0) := by
  intro law
  have success := law.success
  revert success
  decide

end GameServer.MTcpCodec
