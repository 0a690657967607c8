import Mathlib.Data.List.Induction
import GameServer.CodecRoundTrip

namespace GameServer.MTcpCodec
open Foundation

def headerAt (input : List UInt8) (offset : Nat) : ProtoHeader := ProtoHeader.ofBytes (input.drop offset)

def frameLen (input : List UInt8) (offset : Nat) : Nat := protoHeaderSize + (headerAt input offset).payloadLen.toNat

structure FrameAt (input : List UInt8) (offset : Nat) : Prop where
  room : offset + protoHeaderSize ≤ input.length
  magic : (headerAt input offset).header = protoMagic
  complete : offset + frameLen input offset ≤ input.length

-- The offsets the loop comes by: from 0 on, frame after frame.
inductive LoopAt (input : List UInt8) : Nat → Prop
  | start : LoopAt input 0
  | next {offset : Nat} : LoopAt input offset → FrameAt input offset → LoopAt input (offset + frameLen input offset)

structure DecodedAt (input : List UInt8) (offset : Nat) : Prop where
  reached : LoopAt input offset
  frame : FrameAt input offset

structure BadMagicAt (input : List UInt8) (position : Nat) : Prop where
  reached : LoopAt input position
  room : position + protoHeaderSize ≤ input.length
  other : (headerAt input position).header ≠ protoMagic

def Typed (hdr : ProtoHeader) : Prop := hdr.protoType ≠ ProtoType.heartBeat → 2 ≤ hdr.payloadLen.toNat

section Offsets
variable {input : List UInt8} {offset n : Nat}

theorem frameAt_size (frame : FrameAt input offset) : frameSize (input.drop offset) = some (frameLen input offset) := by
  have room := frame.room
  have complete := frame.complete
  refine frameSize_eq_some.mpr ⟨by rw [List.length_drop]; omega,frame.magic,?_,rfl⟩
  have same : announced (input.drop offset) = frameLen input offset := rfl
  rw [List.length_drop,same]
  omega

theorem size_frameAt (found : frameSize (input.drop offset) = some n) : FrameAt input offset ∧ n = frameLen input offset := by
  obtain ⟨room,magic,complete,same⟩ := frameSize_eq_some.mp found
  have length : announced (input.drop offset) = frameLen input offset := rfl
  rw [List.length_drop] at room complete
  rw [length] at complete same
  have positive : protoHeaderSize = 26 := rfl
  exact ⟨⟨by omega,magic,by omega⟩,same.symm⟩

theorem split_behind {before after : List (List UInt8)} (cut : (framing.split input).1 = before ++ after) :
    framing.split (input.drop before.flatten.length) = (after,(framing.split input).2) := by
  have valid : ∀ frame ∈ after, framing.IsFrame frame := fun frame member =>
    Framing.split_isFrame input frame (by rw [cut]; exact List.mem_append_right _ member)
  rw [Framing.split_drop cut]
  exact Framing.split_unique valid (Framing.split_unfinished input)

theorem loopAt_split (reached : LoopAt input offset) :
    ∃ before after, (framing.split input).1 = before ++ after ∧ offset = before.flatten.length := by
  induction reached with
  | start => exact ⟨[],(framing.split input).1,rfl,rfl⟩
  | @next offset _ frame ih =>
    obtain ⟨before,after,cut,rfl⟩ := ih
    have behind := split_behind cut
    have size : framing.size (input.drop before.flatten.length) = some _ := frameAt_size frame
    rw [Framing.split_some size] at behind
    obtain ⟨first,_⟩ := Prod.mk.inj behind
    have complete := frame.complete
    rw [← first,← List.singleton_append,← List.append_assoc] at cut
    refine ⟨_,_,cut,?_⟩
    rw [List.flatten_append,List.length_append,List.flatten_singleton,List.length_take,List.length_drop]
    omega

theorem split_loopAt {before after : List (List UInt8)} (cut : (framing.split input).1 = before ++ after) :
    LoopAt input before.flatten.length := by
  induction before using List.reverseRecOn generalizing after with
  | nil => exact .start
  | append_singleton before frame ih =>
    rw [List.append_assoc] at cut
    have reached := ih cut
    have behind := split_behind cut
    have parts := Framing.split_flatten (F := framing) (input.drop before.flatten.length)
    rw [behind,List.singleton_append,List.flatten_cons,List.append_assoc] at parts
    have valid : framing.IsFrame frame := Framing.split_isFrame input frame (by rw [cut]; simp)
    have found : frameSize (input.drop before.flatten.length) = some frame.length := by
      rw [← parts]
      exact framing.stable valid _
    obtain ⟨here,size⟩ := size_frameAt found
    rw [List.flatten_append,List.length_append,List.flatten_singleton,size]
    exact .next reached here

theorem decodedAt_iff : DecodedAt input offset ↔
    ∃ before frame after, (framing.split input).1 = before ++ frame :: after ∧ offset = before.flatten.length := by
  refine ⟨?_,?_⟩
  · rintro ⟨reached,frame⟩
    obtain ⟨before,after,cut,rfl⟩ := loopAt_split reached
    cases after with
    | cons first rest => exact ⟨before,first,rest,cut,rfl⟩
    | nil =>
      have behind := split_behind cut
      have size : framing.size (input.drop before.flatten.length) = some _ := frameAt_size frame
      rw [Framing.split_some size] at behind
      cases (Prod.mk.inj behind).1
  · rintro ⟨before,frame,after,cut,rfl⟩
    have behind := split_behind cut
    refine ⟨split_loopAt cut,?_⟩
    cases found : frameSize (input.drop before.flatten.length) with
    | none =>
      have alone : framing.split (input.drop before.flatten.length) = ([],_) := Framing.split_none found
      rw [alone] at behind
      cases (Prod.mk.inj behind).1
    | some n => exact (size_frameAt found).1

theorem decodedAt_frame {before after : List (List UInt8)} {frame : List UInt8}
    (cut : (framing.split input).1 = before ++ frame :: after) :
    input.drop before.flatten.length = frame ++ (after.flatten ++ (framing.split input).2) ∧
      headerAt input before.flatten.length = ProtoHeader.ofBytes frame ∧ frameLen input before.flatten.length = frame.length := by
  have parts := Framing.split_flatten (F := framing) (input.drop before.flatten.length)
  rw [split_behind cut,List.flatten_cons,List.append_assoc] at parts
  have valid : framing.IsFrame frame := Framing.split_isFrame input frame (by rw [cut]; simp)
  obtain ⟨header,_,size⟩ := isFrame_iff.mp valid
  have here : headerAt input before.flatten.length = ProtoHeader.ofBytes frame := by
    rw [headerAt,← parts,ProtoHeader.ofBytes_append header]
  refine ⟨parts.symm,here,?_⟩
  rw [frameLen,here]
  exact size

theorem decoded_headers {good : ProtoHeader → Prop} : (∀ offset, DecodedAt input offset → good (headerAt input offset)) ↔
    ∀ frame ∈ (framing.split input).1, good (ProtoHeader.ofBytes frame) := by
  refine ⟨?_,?_⟩
  · intro each frame member
    obtain ⟨before,after,cut⟩ := List.append_of_mem member
    rw [← (decodedAt_frame cut).2.1]
    exact each _ (decodedAt_iff.mpr ⟨before,frame,after,cut,rfl⟩)
  · intro each offset decoded
    obtain ⟨before,frame,after,cut,rfl⟩ := decodedAt_iff.mp decoded
    rw [(decodedAt_frame cut).2.1]
    exact each frame (by rw [cut]; simp)

theorem typed_iff {frame : List UInt8} : Typed (ProtoHeader.ofBytes frame) ↔ SelfContained frame := by
  unfold Typed SelfContained
  exact Decidable.or_iff_not_imp_left.symm

-- The exit is taken behind all complete frames, and nowhere else.
theorem badMagicAt_iff {position : Nat} : BadMagicAt input position ↔
    position = (framing.split input).1.flatten.length ∧ ¬ (framing.split input).2.length < protoHeaderSize ∧
      ¬ BeginsMagic (framing.split input).2 := by
  refine ⟨?_,?_⟩
  · rintro ⟨reached,room,other⟩
    obtain ⟨before,after,cut,rfl⟩ := loopAt_split reached
    have behind := split_behind cut
    have unfinished : frameSize (input.drop before.flatten.length) = none := by
      cases found : frameSize (input.drop before.flatten.length) with
      | none => rfl
      | some n => exact (other (size_frameAt found).1.magic).elim
    have alone : framing.split (input.drop before.flatten.length) = ([],_) := Framing.split_none unfinished
    rw [alone] at behind
    obtain ⟨none_,tail⟩ := Prod.mk.inj behind
    rw [cut,← none_,← tail,List.append_nil,List.length_drop]
    exact ⟨rfl,by omega,other⟩
  · rintro ⟨rfl,long,other⟩
    have cut : (framing.split input).1 = (framing.split input).1 ++ [] := (List.append_nil _).symm
    have behind := Framing.split_flatten (F := framing) input
    have size := congrArg List.length behind
    rw [List.length_append] at size
    refine ⟨split_loopAt cut,by omega,?_⟩
    rw [headerAt,Framing.split_rest]
    exact other

theorem badMagic_exit (past : Nat → UInt8) (input : List UInt8) :
    (decodeSync past input).errorMsg = "TcpCodec Decode Invalid Magic" ↔ ∃ position, BadMagicAt input position := by
  by_cases long : protoHeaderSize ≤ input.length
  · rw [decodeSync_split past long,finish]
    by_cases short : (framing.split input).2.length < protoHeaderSize
    · simp [short,badMagicAt_iff]
    · by_cases magic : BeginsMagic (framing.split input).2
      · simp [short,magic,badMagicAt_iff]
      · simp [short,magic,badMagicAt_iff]
  · have short := Nat.lt_of_not_le long
    rw [decodeSync,if_pos short]
    refine iff_of_false (by simp) ?_
    rintro ⟨position,bad⟩
    have room := bad.room
    omega

theorem badMagic_cost {position : Nat} (bad : BadMagicAt input position) (past : Nat → UInt8) :
    (decodeSync past input).costOffset = findNextMagicOffset input (position + 1) := by
  have room := bad.room
  obtain ⟨rfl,long,other⟩ := badMagicAt_iff.mp bad
  rw [decodeSync_split past (by omega),finish,if_neg long,if_neg other]

end Offsets
end GameServer.MTcpCodec
