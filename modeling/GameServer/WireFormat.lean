import GameServer.CodecRoundTrip
import GameServer.Foundation.Reassembly

namespace GameServer.MTcpCodec
open Foundation

def chunk (msg : EncodeMessage) (k : Nat) : List UInt8 :=
  bytesBetween msg.payload (chunkSize * k) (min (chunkSize * (k + 1)) msg.payload.length)

structure OnWire (msg : EncodeMessage) (number k : Nat) (frame : List UInt8) : Prop where
  magic : (ProtoHeader.ofBytes frame).header = protoMagic
  version : (ProtoHeader.ofBytes frame).version = 1
  type : (ProtoHeader.ofBytes frame).protoType = ProtoType.data
  payloadLen : (ProtoHeader.ofBytes frame).payloadLen.toNat = 2 + (chunk msg k).length
  seq : (ProtoHeader.ofBytes frame).seq.toNat = k
  total : (ProtoHeader.ofBytes frame).total.toNat = number
  msgIdHigh : (ProtoHeader.ofBytes frame).msgIdHigh.toNat = msg.msgId.toNat / 2 ^ 32
  msgIdLow : (ProtoHeader.ofBytes frame).msgIdLow.toNat = msg.msgId.toNat % 2 ^ 32
  checksum : (ProtoHeader.ofBytes frame).checksum = crc32C (frame.drop protoHeaderSize)
  single : number = 1 → (ProtoHeader.ofBytes frame).flags = ProtoFlags.checksum
  part : number > 1 → k + 1 ≠ number → (ProtoHeader.ofBytes frame).flags = ProtoFlags.checksum ||| ProtoFlags.fragmented
  last : number > 1 → k + 1 = number →
    (ProtoHeader.ofBytes frame).flags = ProtoFlags.checksum ||| ProtoFlags.fragmented ||| ProtoFlags.endPart
  payload : frame.drop protoHeaderSize = msg.mainType :: msg.subType :: chunk msg k

-- The output is frames 0 to total - 1 and nothing else.
structure WireFormat (msg : EncodeMessage) (output : List UInt8) : Prop where
  whole : output = (frames msg).flatten
  count : (frames msg).length = (msg.payload.length + 4095) / 4096
  each : ∀ k frame, (frames msg)[k]? = some frame → OnWire msg (frames msg).length k frame
  filled : ∀ k < (frames msg).length, chunk msg k ≠ []
  full : ∀ k, k + 1 < (frames msg).length → (chunk msg k).length = 4096

def receiver : Numbering MsgId (List UInt8) where
  stream frame := joinId (ProtoHeader.ofBytes frame).msgIdHigh (ProtoHeader.ofBytes frame).msgIdLow
  place frame := (ProtoHeader.ofBytes frame).seq.toNat

def reassembled (received : List (List UInt8)) (msgId : MsgId) : List UInt8 :=
  (receiver.gathered received msgId).flatMap (·.drop (protoHeaderSize + 2))

section Frames
variable {msg : EncodeMessage} {total k : Nat}

def frameHeader (msg : EncodeMessage) (total seq : Nat) : ProtoHeader where
  header := protoMagic
  version := ProtoFlags.version
  protoType := ProtoType.data
  payloadLen := UInt16.ofNat (msg.mainType :: msg.subType :: fragment msg.payload seq).length
  flags := frameFlags total seq
  msgIdHigh := idHigh msg.msgId
  msgIdLow := idLow msg.msgId
  seq := UInt16.ofNat seq
  total := UInt16.ofNat total
  checksum := crc32C (msg.mainType :: msg.subType :: fragment msg.payload seq)

theorem encodeFrame_ofBytes (msg : EncodeMessage) (total seq : Nat) :
    ProtoHeader.ofBytes (encodeFrame msg total seq) = frameHeader msg total seq :=
  ProtoHeader.ofBytes_toBytes (frameHeader msg total seq) _

theorem encodeFrame_drop (msg : EncodeMessage) (total seq : Nat) :
    (encodeFrame msg total seq).drop protoHeaderSize = msg.mainType :: msg.subType :: fragment msg.payload seq := by
  have parts : encodeFrame msg total seq =
      (frameHeader msg total seq).toBytes ++ (msg.mainType :: msg.subType :: fragment msg.payload seq) := rfl
  rw [parts,← ProtoHeader.toBytes_length (frameHeader msg total seq),List.drop_left]

theorem idHigh_toNat (id : MsgId) : (idHigh id).toNat = id.toNat / 2 ^ 32 := by
  have bound := id.toNat_lt
  have high : id.toNat >>> (UInt64.toNat 32 % 64) = id.toNat / 2 ^ 32 := Nat.shiftRight_eq_div_pow id.toNat 32
  rw [idHigh,UInt64.toNat_toUInt32,UInt64.toNat_shiftRight,high]
  omega

theorem idLow_toNat (id : MsgId) : (idLow id).toNat = id.toNat % 2 ^ 32 := by
  have low : id.toNat &&& (0xFFFFFFFF : UInt64).toNat = id.toNat % 2 ^ 32 := Nat.and_two_pow_sub_one_eq_mod id.toNat 32
  rw [idLow,UInt64.toNat_toUInt32,UInt64.toNat_and,low,Nat.mod_mod]

theorem chunk_fragment (msg : EncodeMessage) (k : Nat) : chunk msg k = fragment msg.payload k := (fragment_eq _ _).symm

theorem chunk_length (msg : EncodeMessage) (k : Nat) :
    (chunk msg k).length = min 4096 (msg.payload.length - 4096 * k) := by
  rw [chunk_fragment,fragment,chunkSize,List.length_take,List.length_drop]
  omega

theorem encodeFrame_onWire (few : total < 65536) (inside : k < total) : OnWire msg total k (encodeFrame msg total k) := by
  have header := encodeFrame_ofBytes msg total k
  have body := encodeFrame_drop msg total k
  refine ⟨?_,?_,?_,?_,?_,?_,?_,?_,?_,?_,?_,?_,?_⟩
  · rw [header]; rfl
  · rw [header]; rfl
  · rw [header]; rfl
  · have short := body_short msg.payload k
    have length : (frameHeader msg total k).payloadLen.toNat = (fragment msg.payload k).length + 2 :=
      UInt16.toNat_ofNat_of_lt' short
    rw [header,length,chunk_fragment,Nat.add_comm]
  · rw [header]
    exact UInt16.toNat_ofNat_of_lt' (Nat.lt_trans inside few)
  · rw [header]
    exact UInt16.toNat_ofNat_of_lt' few
  · rw [header]
    exact idHigh_toNat msg.msgId
  · rw [header]
    exact idLow_toNat msg.msgId
  · rw [header,body]
    rfl
  · intro one
    rw [header]
    exact if_pos one
  · intro several more
    rw [header]
    exact (if_neg (Nat.ne_of_gt several)).trans (if_neg more)
  · intro several last
    rw [header]
    exact (if_neg (Nat.ne_of_gt several)).trans (if_pos last)
  · rw [body,chunk_fragment]

theorem frames_length (msg : EncodeMessage) : (frames msg).length = totalFrames msg.payload.length := by
  rw [frames,List.length_map,List.length_range]

theorem totalFrames_few {size : Nat} (bounded : size ≤ maxDataSize) : totalFrames size < 65536 := by
  simp only [totalFrames,chunkSize,maxDataSize] at bounded ⊢
  omega

theorem frames_onWire (bounded : msg.payload.length ≤ maxDataSize) {frame : List UInt8} (found : (frames msg)[k]? = some frame) :
    OnWire msg (frames msg).length k frame := by
  obtain ⟨inside,same⟩ := List.getElem?_eq_some_iff.mp found
  rw [frames_length] at inside
  rw [frames_length,← same]
  simp only [frames,List.getElem_map,List.getElem_range]
  exact encodeFrame_onWire (totalFrames_few bounded) inside

theorem encoded_wireFormat (accepted : (encodeSync msg).success = true) : WireFormat msg (encodeSync msg).encodedMessage := by
  have encodable := encodeSync_success.mp accepted
  have count : totalFrames msg.payload.length = (msg.payload.length + 4095) / 4096 := rfl
  have length := (frames_length msg).trans count
  refine ⟨?_,length,?_,?_,?_⟩
  · rw [encodeSync_encodable encodable]
  · intro k frame found
    exact frames_onWire encodable.bounded found
  · intro k inside
    have size := chunk_length msg k
    rw [length] at inside
    apply List.ne_nil_of_length_pos
    omega
  · intro k inside
    rw [chunk_length]
    rw [length] at inside
    omega

theorem frames_labelled : ∀ frame ∈ frames msg, receiver.stream frame = msg.msgId := by
  intro frame member
  obtain ⟨seq,_,rfl⟩ := List.mem_map.mp member
  have header := encodeFrame_ofBytes msg (totalFrames msg.payload.length) seq
  have own : receiver.stream (encodeFrame msg (totalFrames msg.payload.length) seq) =
      joinId (idHigh msg.msgId) (idLow msg.msgId) := by
    simp only [receiver,header,frameHeader]
  exact own.trans (join_halves msg.msgId)

theorem frames_inOrder (bounded : msg.payload.length ≤ maxDataSize) : receiver.InOrder (frames msg) := by
  unfold Numbering.InOrder
  rw [List.pairwise_iff_getElem]
  intro i j first second before
  have one := (frames_onWire bounded (List.getElem?_eq_getElem first)).seq
  have two := (frames_onWire bounded (List.getElem?_eq_getElem second)).seq
  simp only [receiver,one,two]
  exact before

theorem frames_payload (msg : EncodeMessage) : (frames msg).flatMap (·.drop (protoHeaderSize + 2)) = msg.payload := by
  have body (seq : Nat) : (encodeFrame msg (totalFrames msg.payload.length) seq).drop (protoHeaderSize + 2) =
      fragment msg.payload seq := by
    rw [← List.drop_drop,encodeFrame_drop]
    rfl
  rw [frames,List.flatMap_map]
  simp only [body]
  exact fragments_payload msg.payload

end Frames

-- What EncodeSync puts out, and what may be made of it in whatever order its frames come in.
theorem wire_format (msgs : List EncodeMessage) (accepted : ∀ msg ∈ msgs, (encodeSync msg).success = true) :
    (∀ msg ∈ msgs, WireFormat msg (encodeSync msg).encodedMessage) ∧
      ((msgs.map (·.msgId)).Nodup → ∀ received : List (List UInt8), received.Perm (msgs.flatMap frames) →
        ∀ msg ∈ msgs, reassembled received msg.msgId = msg.payload) := by
  have bounded : ∀ msg ∈ msgs, msg.payload.length ≤ maxDataSize := fun msg member =>
    (encodeSync_success.mp (accepted msg member)).bounded
  refine ⟨fun msg member => encoded_wireFormat (accepted msg member),?_⟩
  intro distinct received perm msg member
  have gathered := Numbering.gathered_streams (fun _ _ => frames_labelled) distinct
    (fun msg member => frames_inOrder (bounded msg member)) perm member
  rw [reassembled,gathered,frames_payload]

def longMsg : EncodeMessage := ⟨7,ProtoType.data,4,1,List.replicate 4097 65⟩
def shortMsg : EncodeMessage := ⟨9,ProtoType.data,4,2,[66]⟩

-- Their frames come in backwards.
theorem frames_backwards : reassembled ([longMsg,shortMsg].flatMap frames).reverse longMsg.msgId = longMsg.payload := by
  have accepted : ∀ msg ∈ [longMsg,shortMsg], (encodeSync msg).success = true := by
    intro msg member
    apply encodeSync_success.mpr
    rcases List.mem_cons.mp member with rfl | other
    · have size : longMsg.payload.length = 4097 := List.length_replicate
      exact ⟨(by decide : ProtoType.data ≠ ProtoType.heartBeat),by rw [size]; decide,by rw [size]; decide⟩
    · rw [List.mem_singleton.mp other]
      exact ⟨by decide,by decide,by decide⟩
  have distinct : ([longMsg,shortMsg].map (·.msgId)).Nodup := by decide
  exact (wire_format _ accepted).2 distinct _ (List.reverse_perm _) longMsg (List.mem_cons_self ..)

end GameServer.MTcpCodec
