import GameServer.CodecRoundTrip

namespace GameServer.MTcpCodec
open Foundation

-- The wire grammar, for headers of a given length. The payload length stands in
-- the header's seventh and eighth byte.
structure WireFrame (header : Nat) (frame : List UInt8) : Prop where
  magic : frame.take 4 = [0x48,0x12,0x31,0x23]
  size : frame.length = header + BigEndian.field frame 6 2

structure Tiling (header : Nat) (input : List UInt8) (frames : List (List UInt8)) (tail : List UInt8) : Prop where
  cut : input = frames.flatten ++ tail
  wire : ∀ frame ∈ frames, WireFrame header frame
  short : tail.length < header

-- The message of a frame. A frame of another type than heartbeat that is too
-- short for its type bytes is not spoken of.
structure Carries (header : Nat) (frame : List UInt8) (msg : DecodedMessage) : Prop where
  msgId : msg.msgId = joinId (ProtoHeader.ofBytes frame).msgIdHigh (ProtoHeader.ofBytes frame).msgIdLow
  beat : (ProtoHeader.ofBytes frame).protoType = ProtoType.heartBeat →
    msg.protoType = ProtoType.heartBeat ∧ msg.payload = []
  typed : (ProtoHeader.ofBytes frame).protoType ≠ ProtoType.heartBeat → 2 ≤ BigEndian.field frame 6 2 →
    frame.drop header = msg.mainType :: msg.subType :: msg.payload

-- The decoder accepts exactly the grammar, says what it found, and never
-- leaves its caller where it was in front of a frame or of junk.
structure DecodesGrammar (header : Nat) (past : Nat → UInt8) (input : List UInt8) : Prop where
  inside : (decodeSync past input).costOffset ≤ input.length
  accepts : (decodeSync past input).success = true ↔
    header ≤ input.length ∧ ∃ frames tail, Tiling header input frames tail
  decoded : ∀ frames tail, header ≤ input.length → Tiling header input frames tail →
    (decodeSync past input).costOffset = frames.flatten.length ∧
      List.Forall₂ (Carries header) frames (decodeSync past input).messages
  progress : (∃ frame rest, WireFrame header frame ∧ input = frame ++ rest) ∨
    (header ≤ input.length ∧ input.take 4 ≠ [0x48,0x12,0x31,0x23]) → 0 < (decodeSync past input).costOffset

theorem nextMagic_bound (input : List UInt8) (start : Nat) :
    min start input.length ≤ findNextMagicOffset input start := by
  unfold findNextMagicOffset
  split
  · exact Nat.min_le_right _ _
  · split
    · exact Nat.le_trans (Nat.min_le_left _ _) (Nat.le_add_right _ _)
    · exact Nat.min_le_right _ _

theorem beginsMagic_iff {bytes : List UInt8} (long : 4 ≤ bytes.length) :
    BeginsMagic bytes ↔ bytes.take 4 = magicBytes := by
  have size : (bytes.take 4).length = 4 := by rw [List.length_take]; omega
  have bound := BigEndian.ofBytes_lt (bytes.take 4)
  have value : BigEndian.ofBytes magicBytes = protoMagic.toNat := by decide
  have unfolded : BeginsMagic bytes ↔ UInt32.ofNat (BigEndian.ofBytes (bytes.take 4)) = protoMagic := Iff.rfl
  rw [size] at bound
  rw [unfolded,← UInt32.toNat_inj,UInt32.toNat_ofNat_of_lt' bound,← value]
  exact ⟨BigEndian.ofBytes_injective size,congrArg BigEndian.ofBytes⟩

theorem announced_field (bytes : List UInt8) : announced bytes = protoHeaderSize + BigEndian.field bytes 6 2 := by
  have bound := BigEndian.ofBytes_lt ((bytes.drop 6).take 2)
  have small : 256 ^ ((bytes.drop 6).take 2).length ≤ 256 ^ 2 :=
    Nat.pow_le_pow_right (by omega) (List.length_take_le _ _)
  have field : BigEndian.field bytes 6 2 < 2 ^ 16 := Nat.lt_of_lt_of_le bound small
  rw [announced]
  exact congrArg (protoHeaderSize + ·) (UInt16.toNat_ofNat_of_lt' field)

theorem wireFrame_iff {frame : List UInt8} : WireFrame protoHeaderSize frame ↔ framing.IsFrame frame := by
  rw [isFrame_iff,announced_field]
  refine ⟨?_,?_⟩
  · intro wire
    have header : protoHeaderSize ≤ frame.length := by rw [wire.size]; exact Nat.le_add_right _ _
    exact ⟨header,(beginsMagic_iff (Nat.le_trans (by decide) header)).mpr wire.magic,wire.size.symm⟩
  · rintro ⟨header,magic,size⟩
    exact ⟨(beginsMagic_iff (Nat.le_trans (by decide) header)).mp magic,size.symm⟩

theorem tiling_split {input tail : List UInt8} {frames : List (List UInt8)}
    (tiling : Tiling protoHeaderSize input frames tail) : framing.split input = (frames,tail) := by
  rw [tiling.cut]
  exact Framing.split_unique (fun frame member => wireFrame_iff.mp (tiling.wire frame member))
    (short_unfinished tiling.short)

theorem split_tiling {input : List UInt8} (short : (framing.split input).2.length < protoHeaderSize) :
    Tiling protoHeaderSize input (framing.split input).1 (framing.split input).2 :=
  ⟨(Framing.split_flatten input).symm,
    fun frame member => wireFrame_iff.mpr (Framing.split_isFrame input frame member),short⟩

theorem decodeFrame_carries {frame : List UInt8} (valid : framing.IsFrame frame) (past : Nat → UInt8)
    (before more : List UInt8) :
    Carries protoHeaderSize frame (decodeFrame past (before ++ (frame ++ more)) before.length) := by
  obtain ⟨header,_,size⟩ := isFrame_iff.mp valid
  have here : ProtoHeader.ofBytes ((before ++ (frame ++ more)).drop before.length) = ProtoHeader.ofBytes frame := by
    rw [List.drop_left,ProtoHeader.ofBytes_append header]
  by_cases beat : (ProtoHeader.ofBytes frame).protoType = ProtoType.heartBeat
  · rw [decodeFrame,here]
    simp only [beat,if_true]
    exact ⟨rfl,fun _ => ⟨rfl,rfl⟩,fun other => (other beat).elim⟩
  · refine ⟨?_,fun same => (beat same).elim,?_⟩
    · rw [decodeFrame,here]
      simp only [beat,if_false]
    · intro _ prefixed
      rw [announced_field] at size
      have length : (ProtoHeader.ofBytes frame).payloadLen.toNat = BigEndian.field frame 6 2 := by
        have same := announced_field frame
        rw [announced] at same
        omega
      rw [decodeFrame_inside valid (Or.inr (length ▸ prefixed)),frameMessage,decodeFrame,List.drop_zero]
      simp only [beat,if_false,Nat.zero_add,byteAt,length]
      rw [List.take_of_length_le (by rw [List.length_drop]; omega)]
      simp only [protoHeaderSize] at size ⊢
      have first : frame.getD 26 (0 : UInt8) = frame.get ⟨26,by omega⟩ := by
        simp [List.getD_eq_getElem?_getD,List.getElem?_eq_getElem (show 26 < frame.length by omega)]
      have second : frame.getD 27 (0 : UInt8) = frame.get ⟨27,by omega⟩ := by
        simp [List.getD_eq_getElem?_getD,List.getElem?_eq_getElem (show 27 < frame.length by omega)]
      rw [first,second,List.drop_eq_getElem_cons (by omega),List.drop_eq_getElem_cons (by omega)]
      rfl

theorem messagesAt_carries {frames : List (List UInt8)} (valid : ∀ frame ∈ frames, framing.IsFrame frame)
    (past : Nat → UInt8) (before tail : List UInt8) :
    List.Forall₂ (Carries protoHeaderSize) frames
      (messagesAt past (before ++ (frames.flatten ++ tail)) before.length frames) := by
  induction frames generalizing before with
  | nil => exact List.Forall₂.nil
  | cons frame rest ih =>
    have first := decodeFrame_carries (valid frame (by simp)) past before (rest.flatten ++ tail)
    have later := ih (fun other member => valid other (by simp [member])) (before ++ frame)
    rw [List.append_assoc,List.length_append] at later
    rw [List.flatten_cons,List.append_assoc]
    exact List.Forall₂.cons first later

theorem decode_accepts (past : Nat → UInt8) (input : List UInt8) : (decodeSync past input).success = true ↔
    protoHeaderSize ≤ input.length ∧ (framing.split input).2.length < protoHeaderSize := by
  by_cases long : protoHeaderSize ≤ input.length
  · rw [decodeSync_split past long,finish]
    by_cases short : (framing.split input).2.length < protoHeaderSize
    · simp [short,long]
    · by_cases magic : BeginsMagic (framing.split input).2 <;> simp [short,magic]
  · simp [decodeSync,Nat.lt_of_not_le long,long]

theorem decode_decoded (past : Nat → UInt8) {input tail : List UInt8} {frames : List (List UInt8)}
    (long : protoHeaderSize ≤ input.length) (tiling : Tiling protoHeaderSize input frames tail) :
    (decodeSync past input).costOffset = frames.flatten.length ∧
      List.Forall₂ (Carries protoHeaderSize) frames (decodeSync past input).messages := by
  have messages := messagesAt_carries
    (fun frame member => wireFrame_iff.mp (tiling.wire frame member)) past [] tail
  rw [List.nil_append,List.length_nil,← tiling.cut] at messages
  rw [decodeSync_split past long,tiling_split tiling,finish,if_pos tiling.short]
  exact ⟨rfl,messages⟩

theorem decode_progress (past : Nat → UInt8) {input : List UInt8}
    (front : (∃ frame rest, WireFrame protoHeaderSize frame ∧ input = frame ++ rest) ∨
      (protoHeaderSize ≤ input.length ∧ input.take 4 ≠ [0x48,0x12,0x31,0x23])) :
    0 < (decodeSync past input).costOffset := by
  rcases front with ⟨frame,rest,wire,cut⟩ | ⟨long,junk⟩
  · have valid := wireFrame_iff.mp wire
    have header := (isFrame_iff.mp valid).1
    have long : protoHeaderSize ≤ input.length := by rw [cut,List.length_append]; omega
    have some_ : 0 < (framing.split input).1.flatten.length := by
      rw [cut,Framing.split_frame valid,List.flatten_cons,List.length_append]
      simp only [protoHeaderSize] at header
      omega
    have later := nextMagic_bound input ((framing.split input).1.flatten.length + 1)
    have size := congrArg List.length (Framing.split_flatten (F := framing) input)
    rw [List.length_append] at size
    rw [decodeSync_split past long,finish]
    split
    · exact some_
    · split
      · exact some_
      · dsimp only
        omega
  · have alone : framing.split input = ([],input) := by
      apply Framing.split_none
      cases found : frameSize input with
      | none => exact found
      | some n =>
        have magic := (beginsMagic_iff (Nat.le_trans (by decide) long)).mp (frameSize_eq_some.mp found).2.1
        exact (junk magic).elim
    have other : ¬ BeginsMagic input := fun magic => junk ((beginsMagic_iff (Nat.le_trans (by decide) long)).mp magic)
    have bound := nextMagic_bound input 1
    rw [decodeSync_split past long,alone,finish,if_neg (Nat.not_lt.mpr long),if_neg other]
    simp only [protoHeaderSize] at long
    simp only [List.flatten_nil,List.length_nil,Nat.zero_add]
    omega

-- DecodeSync is total, and for every input this is what it does, the header
-- being 26 bytes long.
theorem decode_grammar (past : Nat → UInt8) (input : List UInt8) : DecodesGrammar protoHeaderSize past input := by
  refine ⟨(decode_leftover past input).1,?_,fun _ _ => decode_decoded past,decode_progress past⟩
  rw [decode_accepts]
  refine and_congr_right fun _ => ⟨fun short => ⟨_,_,split_tiling short⟩,?_⟩
  rintro ⟨frames,tail,tiling⟩
  rw [tiling_split tiling]
  exact tiling.short

-- A heartbeat is a whole frame of 26 bytes, which headers of 30 would refuse.
theorem short_heartbeat_accepted : ¬ DecodesGrammar 30 (fun _ => 0) (createHeartbeatFrame 1) := by
  intro law
  have success : (decodeSync (fun _ => 0) (createHeartbeatFrame 1)).success = true := by decide +kernel
  have long := (law.accepts.mp success).1
  revert long
  decide

end GameServer.MTcpCodec
