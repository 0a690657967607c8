import GameServer.Foundation.Framing
import GameServer.MTcpCodec

namespace GameServer.MTcpCodec
open Foundation

def announced (bytes : List UInt8) : Nat := protoHeaderSize + (ProtoHeader.ofBytes bytes).payloadLen.toNat

def BeginsMagic (bytes : List UInt8) : Prop := (ProtoHeader.ofBytes bytes).header = protoMagic

instance (bytes : List UInt8) : Decidable (BeginsMagic bytes) := inferInstanceAs (Decidable (_ = _))

def frameSize (bytes : List UInt8) : Option Nat :=
  if protoHeaderSize ≤ bytes.length ∧ BeginsMagic bytes ∧ announced bytes ≤ bytes.length
  then some (announced bytes) else none

theorem frameSize_eq_some {bytes : List UInt8} {n : Nat} : frameSize bytes = some n ↔
    protoHeaderSize ≤ bytes.length ∧ BeginsMagic bytes ∧ announced bytes ≤ bytes.length ∧ announced bytes = n := by
  unfold frameSize
  split
  · rename_i complete
    simp [complete.1,complete.2.1,complete.2.2]
  · rename_i incomplete
    simp only [reduceCtorEq,false_iff]
    intro parts
    exact incomplete ⟨parts.1,parts.2.1,parts.2.2.1⟩

theorem header_le_announced (bytes : List UInt8) : protoHeaderSize ≤ announced bytes := Nat.le_add_right _ _

theorem announced_append {bytes : List UInt8} (whole : protoHeaderSize ≤ bytes.length) (more : List UInt8) :
    announced (bytes ++ more) = announced bytes := by
  rw [announced,ProtoHeader.ofBytes_append whole,announced]

theorem beginsMagic_append {bytes : List UInt8} (whole : protoHeaderSize ≤ bytes.length) (more : List UInt8) :
    BeginsMagic (bytes ++ more) ↔ BeginsMagic bytes := by
  rw [BeginsMagic,ProtoHeader.ofBytes_append whole,BeginsMagic]

theorem frameSize_append {bytes : List UInt8} {n : Nat} (found : frameSize bytes = some n) (more : List UInt8) :
    frameSize (bytes ++ more) = some n := by
  obtain ⟨whole,magic,complete,same⟩ := frameSize_eq_some.mp found
  refine frameSize_eq_some.mpr ⟨?_,(beginsMagic_append whole more).mpr magic,?_,?_⟩
  · rw [List.length_append]; omega
  · rw [announced_append whole,List.length_append]; omega
  · rw [announced_append whole]; exact same

theorem frameSize_take {bytes : List UInt8} {n : Nat} (found : frameSize bytes = some n) :
    frameSize (bytes.take n) = some n := by
  obtain ⟨whole,magic,complete,same⟩ := frameSize_eq_some.mp found
  have header := header_le_announced bytes
  have size : (bytes.take n).length = n := by rw [List.length_take]; omega
  have long : protoHeaderSize ≤ (bytes.take n).length := by omega
  have kept := List.take_append_drop n bytes
  have sameAnnounced := announced_append long (bytes.drop n)
  have sameMagic := beginsMagic_append long (bytes.drop n)
  rw [kept] at sameAnnounced sameMagic
  refine frameSize_eq_some.mpr ⟨long,sameMagic.mp magic,?_,?_⟩ <;> omega

theorem frameSize_positive {stream : List UInt8} {n : Nat} (found : frameSize stream = some n) : 0 < n := by
  obtain ⟨_,_,_,same⟩ := frameSize_eq_some.mp found
  simp only [announced,protoHeaderSize] at same
  omega

theorem frameSize_inside {stream : List UInt8} {n : Nat} (found : frameSize stream = some n) : n ≤ stream.length := by
  obtain ⟨_,_,complete,same⟩ := frameSize_eq_some.mp found
  omega

def framing : Framing UInt8 where
  size := frameSize
  positive := frameSize_positive
  inside := frameSize_inside
  stable := frameSize_append
  contained := frameSize_take

theorem isFrame_iff {frame : List UInt8} : framing.IsFrame frame ↔
    protoHeaderSize ≤ frame.length ∧ BeginsMagic frame ∧ announced frame = frame.length := by
  have unfolded : framing.IsFrame frame ↔ frameSize frame = some frame.length := Iff.rfl
  rw [unfolded,frameSize_eq_some]
  refine ⟨?_,?_⟩
  · intro parts
    exact ⟨parts.1,parts.2.1,parts.2.2.2⟩
  · intro parts
    exact ⟨parts.1,parts.2.1,Nat.le_of_eq parts.2.2,parts.2.2⟩

def messagesAt (past : Nat → UInt8) (input : List UInt8) : Nat → List (List UInt8) → List DecodedMessage
  | _,[] => []
  | offset,frame :: rest => decodeFrame past input offset :: messagesAt past input (offset + frame.length) rest

-- How the loop ends in front of a tail that does not begin with a complete frame.
def finish (input : List UInt8) (messages : List DecodedMessage) (offset : Nat) (tail : List UInt8) : DecodeResult :=
  if tail.length < protoHeaderSize then ⟨true,"",messages,offset⟩
  else if BeginsMagic tail then ⟨false,"TcpCodec Decode Input Too Short For Payload",messages,offset⟩
  else ⟨false,"TcpCodec Decode Invalid Magic",messages,findNextMagicOffset input (offset + 1)⟩

theorem loop_frame (past : Nat → UInt8) (before more : List UInt8) {frame : List UInt8}
    (valid : framing.IsFrame frame) (acc : List DecodedMessage) :
    decodeLoop past (before ++ (frame ++ more)) before.length acc =
      decodeLoop past (before ++ (frame ++ more)) (before.length + frame.length)
        (acc ++ [decodeFrame past (before ++ (frame ++ more)) before.length]) := by
  obtain ⟨header,magic,size⟩ := isFrame_iff.mp valid
  have here : ProtoHeader.ofBytes ((before ++ (frame ++ more)).drop before.length) = ProtoHeader.ofBytes frame := by
    rw [List.drop_left,ProtoHeader.ofBytes_append header]
  have room : before.length + protoHeaderSize ≤ (before ++ (frame ++ more)).length := by
    simp only [List.length_append]; omega
  have fits : ¬ before.length + frame.length > (before ++ (frame ++ more)).length := by
    simp only [List.length_append]; omega
  have length : protoHeaderSize + (ProtoHeader.ofBytes frame).payloadLen.toNat = frame.length := size
  have sameMagic : (ProtoHeader.ofBytes frame).header = protoMagic := magic
  rw [decodeLoop,if_pos room]
  simp only [here,sameMagic,ne_eq,not_true_eq_false,if_false,length,fits]

theorem loop_unfinished (past : Nat → UInt8) (before : List UInt8) {tail : List UInt8}
    (unfinished : frameSize tail = none) (acc : List DecodedMessage) :
    decodeLoop past (before ++ tail) before.length acc = finish (before ++ tail) acc before.length tail := by
  rw [decodeLoop,finish]
  by_cases short : tail.length < protoHeaderSize
  · have room : ¬ before.length + protoHeaderSize ≤ (before ++ tail).length := by
      rw [List.length_append]; omega
    rw [if_neg room,if_pos short]
  · have room : before.length + protoHeaderSize ≤ (before ++ tail).length := by
      rw [List.length_append]; omega
    rw [if_pos room,if_neg short]
    simp only [List.drop_left]
    by_cases magic : BeginsMagic tail
    · have incomplete : before.length + announced tail > (before ++ tail).length := by
        rw [List.length_append]
        by_cases complete : announced tail ≤ tail.length
        · have found := frameSize_eq_some.mpr ⟨Nat.le_of_not_lt short,magic,complete,rfl⟩
          rw [unfinished] at found
          cases found
        · omega
      have sameMagic : (ProtoHeader.ofBytes tail).header = protoMagic := magic
      rw [if_pos magic]
      rw [announced] at incomplete
      simp only [sameMagic,ne_eq,not_true_eq_false,if_false,incomplete,if_true]
    · have otherMagic : (ProtoHeader.ofBytes tail).header ≠ protoMagic := magic
      rw [if_neg magic]
      simp only [ne_eq,otherMagic,not_false_eq_true,if_true]

theorem loop_split (past : Nat → UInt8) (stream : List UInt8) (before : List UInt8) (acc : List DecodedMessage) :
    decodeLoop past (before ++ stream) before.length acc =
      finish (before ++ stream)
        (acc ++ messagesAt past (before ++ stream) before.length (framing.split stream).1)
        (before.length + (framing.split stream).1.flatten.length) (framing.split stream).2 := by
  induction stream using Framing.split_induction (F := framing) generalizing before acc with
  | unfinished stream unfinished =>
    rw [Framing.split_none unfinished,loop_unfinished past before unfinished]
    simp [messagesAt]
  | framed frame more valid ih =>
    have next := ih (before ++ frame) (acc ++ [decodeFrame past (before ++ (frame ++ more)) before.length])
    rw [List.append_assoc,List.length_append] at next
    rw [loop_frame past before more valid,next,Framing.split_frame valid]
    simp [messagesAt,Nat.add_assoc]

theorem decodeSync_split (past : Nat → UInt8) {input : List UInt8} (long : protoHeaderSize ≤ input.length) :
    decodeSync past input = finish input (messagesAt past input 0 (framing.split input).1)
      (framing.split input).1.flatten.length (framing.split input).2 := by
  rw [decodeSync,if_neg (Nat.not_lt.mpr long)]
  simpa using loop_split past input [] []

-- The grammar's account of what stays undecoded: whole frames leave, a short
-- or incomplete one stays, and a wrong magic costs everything before the next.
def resync (tail : List UInt8) : List UInt8 :=
  match scanMagic (tail.drop 1) with
  | some skipped => tail.drop (1 + skipped)
  | none => []

def leftover (input : List UInt8) : List UInt8 :=
  let tail := (framing.split input).2
  if tail.length < protoHeaderSize ∨ BeginsMagic tail then tail else resync tail

theorem short_unfinished {input : List UInt8} (short : input.length < protoHeaderSize) : frameSize input = none := by
  cases found : frameSize input with
  | none => rfl
  | some n =>
    have whole := (frameSize_eq_some.mp found).1
    omega

theorem drop_nextMagic (before tail : List UInt8) (long : protoHeaderSize ≤ tail.length) :
    (before ++ tail).drop (findNextMagicOffset (before ++ tail) (before.length + 1)) = resync tail := by
  simp only [protoHeaderSize] at long
  have some_ : ¬ ((before ++ tail).length < 4 ∨ before.length + 1 ≥ (before ++ tail).length) := by
    rw [List.length_append]; omega
  have start : (before ++ tail).drop (before.length + 1) = tail.drop 1 := by
    rw [List.drop_append,List.drop_of_length_le (by omega),List.nil_append,Nat.add_sub_cancel_left]
  rw [findNextMagicOffset,if_neg some_,start,resync]
  cases scanMagic (tail.drop 1) with
  | none => simp
  | some skipped =>
    have place : before.length + 1 + skipped = before.length + (1 + skipped) := by omega
    simp [place,List.drop_append]

theorem scanMagic_inside {bytes : List UInt8} {skipped : Nat} (found : scanMagic bytes = some skipped) :
    skipped ≤ bytes.length := by
  induction bytes generalizing skipped with
  | nil => cases found
  | cons byte rest ih =>
    rw [scanMagic] at found
    split at found
    · cases found; exact Nat.zero_le _
    · obtain ⟨n,later,rfl⟩ := Option.map_eq_some_iff.mp found
      have bound := ih later
      rw [List.length_cons]
      omega

theorem nextMagic_inside (input : List UInt8) (start : Nat) : findNextMagicOffset input start ≤ input.length := by
  unfold findNextMagicOffset
  split
  · exact Nat.le_refl _
  · rename_i inside
    split
    · rename_i skipped found
      have bound := scanMagic_inside found
      rw [List.length_drop] at bound
      omega
    · exact Nat.le_refl _

theorem decode_leftover (past : Nat → UInt8) (input : List UInt8) :
    (decodeSync past input).costOffset ≤ input.length ∧
      input.drop (decodeSync past input).costOffset = leftover input := by
  by_cases long : protoHeaderSize ≤ input.length
  · have whole := Framing.split_flatten (F := framing) input
    rw [decodeSync_split past long,finish,leftover]
    revert whole
    generalize (framing.split input).1 = decoded
    generalize (framing.split input).2 = tail
    intro whole
    have size := congrArg List.length whole
    rw [List.length_append] at size
    have kept : input.drop decoded.flatten.length = tail := by rw [← whole,List.drop_left]
    by_cases short : tail.length < protoHeaderSize
    · simp only [short,if_true,true_or,kept,and_true]; omega
    · by_cases magic : BeginsMagic tail
      · simp only [short,magic,if_true,if_false,or_true,kept,and_true]; omega
      · simp only [short,magic,if_false,or_self]
        refine ⟨nextMagic_inside _ _,?_⟩
        rw [← whole]
        exact drop_nextMagic _ _ (Nat.le_of_not_lt short)
  · have short : input.length < protoHeaderSize := Nat.lt_of_not_le long
    have alone : framing.split input = ([],input) := Framing.split_none (short_unfinished short)
    rw [decodeSync,if_pos short,leftover,alone]
    simp [short]

end GameServer.MTcpCodec
