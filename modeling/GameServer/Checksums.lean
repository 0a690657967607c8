import GameServer.CodecGrammar
import GameServer.CrcBuilds
import GameServer.OwnBytes
import GameServer.WireFormat

namespace GameServer.MTcpCodec
open Foundation

-- A header that is not a heartbeat's and says that its checksum counts.
def Checksummed (hdr : ProtoHeader) : Prop := hdr.protoType ≠ ProtoType.heartBeat ∧ hdr.flags &&& ProtoFlags.checksum ≠ 0

def payloadAt (input : List UInt8) (offset : Nat) : List UInt8 :=
  (input.drop (offset + protoHeaderSize)).take (headerAt input offset).payloadLen.toNat

-- No complete frame of the input has a wrong checksum.
def SoundInput (input : List UInt8) : Prop := ∀ offset, DecodedAt input offset → Checksummed (headerAt input offset) →
  (headerAt input offset).checksum = crc32C (payloadAt input offset)

def SoundFrame (frame : List UInt8) : Prop := Checksummed (ProtoHeader.ofBytes frame) →
  (ProtoHeader.ofBytes frame).checksum = crc32C (frame.drop protoHeaderSize)

-- Each message comes from a frame that, where it has a checksum, has the right one.
def Verified (past : Nat → UInt8) (input : List UInt8) : Prop :=
  ∀ (i : Nat) msg, (decodeSync past input).messages[i]? = some msg →
    ∃ frame, (framing.split input).1[i]? = some frame ∧ SoundFrame frame

-- Up to four payload bytes behind one another are replaced in a frame of an encoded message.
structure Burst where
  msg : EncodeMessage
  accepted : (encodeSync msg).success = true
  before : List (List UInt8)
  after : List (List UInt8)
  head : List UInt8
  window : List UInt8
  tail : List UInt8
  other : List UInt8
  place : frames msg = before ++ (head ++ (window ++ tail)) :: after
  payload : protoHeaderSize ≤ head.length
  short : window.length ≤ 4
  size : window.length = other.length

namespace Burst

def corrupted (b : Burst) : List UInt8 := b.head ++ (b.other ++ b.tail)

def arriving (b : Burst) : List UInt8 := (b.before ++ b.corrupted :: b.after).flatten

-- What is delivered are fragments as they were sent, if not all of them.
def Unaltered (b : Burst) (past : Nat → UInt8) : Prop :=
  (decodeSync past b.arriving).messages.Sublist (decodedFragments b.msg)

end Burst

theorem messagesAt_length (past : Nat → UInt8) (input : List UInt8) (offset : Nat) (frames : List (List UInt8)) :
    (messagesAt past input offset frames).length = frames.length := by
  induction frames generalizing offset with
  | nil => rfl
  | cons frame rest ih => rw [messagesAt,List.length_cons,List.length_cons,ih]

section Sound
variable {input : List UInt8}

theorem decoded_length (past : Nat → UInt8) (input : List UInt8) :
    (decodeSync past input).messages.length = (framing.split input).1.length := by
  by_cases long : protoHeaderSize ≤ input.length
  · rw [decodeSync_split past long,finish_messages,messagesAt_length]
  · have short := Nat.lt_of_not_le long
    have alone : framing.split input = ([],input) := Framing.split_none (short_unfinished short)
    rw [decodeSync,if_pos short,alone]
    rfl

theorem sound_frames : SoundInput input ↔ ∀ frame ∈ (framing.split input).1, SoundFrame frame := by
  have payload {before after : List (List UInt8)} {frame : List UInt8}
      (cut : (framing.split input).1 = before ++ frame :: after) :
      payloadAt input before.flatten.length = frame.drop protoHeaderSize := by
    obtain ⟨bytes,header,length⟩ := decodedAt_frame cut
    unfold payloadAt
    unfold frameLen at length
    rw [← List.drop_drop,bytes,List.drop_append_of_le_length (by omega),
      List.take_append_of_le_length (by rw [List.length_drop]; omega),List.take_of_length_le (by rw [List.length_drop]; omega)]
  refine ⟨?_,?_⟩
  · intro sound frame member
    obtain ⟨before,after,cut⟩ := List.append_of_mem member
    have here := sound _ (decodedAt_iff.mpr ⟨before,frame,after,cut,rfl⟩)
    rw [(decodedAt_frame cut).2.1,payload cut] at here
    exact here
  · intro sound offset decoded
    obtain ⟨before,frame,after,cut,rfl⟩ := decodedAt_iff.mp decoded
    rw [(decodedAt_frame cut).2.1,payload cut]
    exact sound frame (by rw [cut]; simp)

theorem verified_iff (past : Nat → UInt8) : Verified past input ↔ SoundInput input := by
  have length := decoded_length past input
  rw [sound_frames]
  refine ⟨?_,?_⟩
  · intro verified frame member
    obtain ⟨i,found⟩ := List.mem_iff_getElem?.mp member
    obtain ⟨inside,_⟩ := List.getElem?_eq_some_iff.mp found
    obtain ⟨other,same,sound⟩ := verified i _ (List.getElem?_eq_getElem (length ▸ inside))
    cases found.symm.trans same
    exact sound
  · intro sound i msg found
    obtain ⟨inside,_⟩ := List.getElem?_eq_some_iff.mp found
    have there := List.getElem?_eq_getElem (l := (framing.split input).1) (length ▸ inside)
    exact ⟨_,there,sound _ (List.mem_of_getElem? there)⟩

theorem crc_burst {window other : List UInt8} (size : window.length = other.length) (short : window.length ≤ 4)
    (before after : List UInt8) (same : crc32C (before ++ (window ++ after)) = crc32C (before ++ (other ++ after))) :
    window = other := by
  have constant : (Crc.mirror 32 crcPoly.toNat).coeff 0 = 1 := by
    rw [Crc.mirror_constant]
    exact if_pos (by decide)
  have states := congrArg (· ^^^ (0xFFFFFFFF : UInt32)) same
  simp only [crc32C,UInt32.xor_assoc,UInt32.xor_self,UInt32.xor_zero] at states
  exact Crc.burst_detected crcByte_remainder UInt32.toNat_lt constant (by omega) size (by omega) before after 0xFFFFFFFF
    (congrArg UInt32.toNat states)

theorem encodeFrame_checksummed (msg : EncodeMessage) (total seq : Nat) :
    Checksummed (ProtoHeader.ofBytes (encodeFrame msg total seq)) ∧
      (ProtoHeader.ofBytes (encodeFrame msg total seq)).checksum = crc32C ((encodeFrame msg total seq).drop protoHeaderSize) := by
  rw [encodeFrame_ofBytes,encodeFrame_drop]
  refine ⟨⟨(by decide : ProtoType.data ≠ ProtoType.heartBeat),?_⟩,rfl⟩
  have flags : (frameHeader msg total seq).flags = frameFlags total seq := rfl
  rw [flags,frameFlags]
  split
  · decide
  · split <;> decide

theorem frameMessage_payload {frame : List UInt8} (valid : framing.IsFrame frame) (whole : SelfContained frame)
    (business : (ProtoHeader.ofBytes frame).protoType ≠ ProtoType.heartBeat) :
    frame.drop protoHeaderSize = (frameMessage frame).mainType :: (frameMessage frame).subType :: (frameMessage frame).payload := by
  have carries := decodeFrame_carries valid (fun _ => 0) [] []
  rw [List.nil_append,List.append_nil,List.length_nil] at carries
  have size := (wireFrame_iff.mpr valid).size
  have same := (isFrame_iff.mp valid).2.2
  have prefixed := whole.resolve_left business
  rw [announced] at same
  exact carries.typed business (by omega)

end Sound

namespace Burst
variable {b : Burst}

theorem original_mem (b : Burst) : b.head ++ (b.window ++ b.tail) ∈ frames b.msg := by
  rw [b.place]
  simp

theorem original_encoded (b : Burst) : ∃ seq, b.head ++ (b.window ++ b.tail) =
    encodeFrame b.msg (totalFrames b.msg.payload.length) seq := by
  obtain ⟨seq,_,same⟩ := List.mem_map.mp b.original_mem
  exact ⟨seq,same.symm⟩

theorem corrupted_header (b : Burst) : ProtoHeader.ofBytes b.corrupted = ProtoHeader.ofBytes (b.head ++ (b.window ++ b.tail)) := by
  rw [corrupted,ProtoHeader.ofBytes_append b.payload,ProtoHeader.ofBytes_append b.payload]

theorem corrupted_isFrame (b : Burst) : framing.IsFrame b.corrupted ∧ SelfContained b.corrupted := by
  obtain ⟨valid,whole⟩ := frames_valid b.msg _ b.original_mem
  obtain ⟨header,magic,size⟩ := isFrame_iff.mp valid
  have length : b.corrupted.length = (b.head ++ (b.window ++ b.tail)).length := by
    rw [corrupted,List.length_append,List.length_append,List.length_append,List.length_append,b.size]
  refine ⟨isFrame_iff.mpr ⟨?_,?_,?_⟩,?_⟩
  · rw [length]; exact header
  · rw [BeginsMagic,b.corrupted_header]; exact magic
  · rw [length,← size,announced,b.corrupted_header,announced]
  · rw [SelfContained,b.corrupted_header]; exact whole

theorem others_valid (b : Burst) : ∀ frame ∈ b.before ++ b.after, framing.IsFrame frame ∧ SelfContained frame := by
  intro frame member
  apply frames_valid b.msg frame
  rw [b.place]
  simp only [List.mem_append,List.mem_cons] at member ⊢
  tauto

theorem arriving_valid (b : Burst) :
    ∀ frame ∈ b.before ++ b.corrupted :: b.after, framing.IsFrame frame ∧ SelfContained frame := by
  intro frame member
  rcases List.mem_append.mp member with early | here
  · exact b.others_valid frame (List.mem_append_left _ early)
  · rcases List.mem_cons.mp here with rfl | late
    · exact b.corrupted_isFrame
    · exact b.others_valid frame (List.mem_append_right _ late)

theorem arriving_split (b : Burst) : framing.split b.arriving = (b.before ++ b.corrupted :: b.after,[]) := by
  have split := Framing.split_unique (F := framing) (fun frame member => (b.arriving_valid frame member).1) Framing.size_nil
  rwa [List.append_nil] at split

theorem corrupted_sound (b : Burst) : SoundFrame b.corrupted ↔ b.other = b.window := by
  obtain ⟨seq,encoded⟩ := b.original_encoded
  obtain ⟨checksummed,checksum⟩ := encodeFrame_checksummed b.msg (totalFrames b.msg.payload.length) seq
  have body (bytes : List UInt8) : (b.head ++ (bytes ++ b.tail)).drop protoHeaderSize =
      b.head.drop protoHeaderSize ++ (bytes ++ b.tail) := List.drop_append_of_le_length b.payload
  rw [← encoded] at checksummed checksum
  unfold SoundFrame
  rw [b.corrupted_header,checksum,corrupted,body,body]
  refine ⟨?_,?_⟩
  · intro sound
    exact (crc_burst b.size b.short _ _ (sound checksummed)).symm
  · intro same _
    rw [same]

theorem arriving_sound (b : Burst) : SoundInput b.arriving ↔ b.other = b.window := by
  rw [sound_frames,b.arriving_split]
  refine ⟨?_,?_⟩
  · intro sound
    exact b.corrupted_sound.mp (sound _ (by simp))
  · intro same frame member
    have sent : frame ∈ frames b.msg := by
      rw [b.place,← same]
      exact member
    obtain ⟨seq,_,rfl⟩ := List.mem_map.mp sent
    exact fun _ => (encodeFrame_checksummed _ _ seq).2

theorem unaltered_iff (past : Nat → UInt8) (b : Burst) : b.Unaltered past ↔ b.other = b.window := by
  have delivered : (decodeSync past b.arriving).messages = (b.before ++ b.corrupted :: b.after).map frameMessage := by
    have typed : ∀ frame ∈ (framing.split b.arriving).1, SelfContained frame := by
      intro frame member
      rw [b.arriving_split] at member
      exact (b.arriving_valid frame member).2
    have messages := typed_messages typed past
    rwa [b.arriving_split] at messages
  unfold Unaltered
  rw [delivered,← frames_messages,b.place]
  refine ⟨?_,?_⟩
  · intro part
    have same := part.eq_of_length (by simp)
    rw [List.map_append,List.map_append,List.map_cons,List.map_cons] at same
    have message := (List.cons.inj (List.append_cancel_left same)).1
    obtain ⟨valid,whole⟩ := frames_valid b.msg _ b.original_mem
    obtain ⟨valid_,whole_⟩ := b.corrupted_isFrame
    obtain ⟨seq,encoded⟩ := b.original_encoded
    have business := (encodeFrame_checksummed b.msg (totalFrames b.msg.payload.length) seq).1.1
    rw [← encoded] at business
    have one := frameMessage_payload valid whole business
    have two := frameMessage_payload valid_ whole_ (b.corrupted_header ▸ business)
    rw [message,← one,corrupted,List.drop_append_of_le_length b.payload,List.drop_append_of_le_length b.payload] at two
    exact (List.append_inj (List.append_cancel_left two) b.size.symm).1
  · intro same
    rw [corrupted,same]

end Burst

-- DecodeSync never looks at the checksum: messages are verified just where there is
-- nothing to find, though four bytes could be caught in every case.
theorem checksums_exact (past : Nat → UInt8) (input : List UInt8) (b : Burst) :
    (Verified past input ↔ SoundInput input) ∧ (b.Unaltered past ↔ SoundInput b.arriving) ∧
      (SoundInput b.arriving ↔ b.other = b.window) := by
  refine ⟨verified_iff past,?_,b.arriving_sound⟩
  exact (b.unaltered_iff past).trans b.arriving_sound.symm

def alteredNote : Burst where
  msg := ⟨1,ProtoType.data,4,1,[65]⟩
  accepted := by decide
  before := []
  after := []
  head := (note 1).take 28
  window := [65]
  tail := []
  other := [66]
  place := by decide +kernel
  payload := by decide +kernel
  short := by decide
  size := rfl

theorem altered_note_delivered : (decodeSync (fun _ => 0) alteredNote.arriving).messages = [⟨1,0,4,1,[66]⟩] ∧
    ¬ alteredNote.Unaltered (fun _ => 0) ∧ ¬ Verified (fun _ => 0) alteredNote.arriving := by
  have changed : alteredNote.other ≠ alteredNote.window := by decide
  refine ⟨by decide +kernel,?_,?_⟩
  · rw [Burst.unaltered_iff]
    exact changed
  · rw [verified_iff,Burst.arriving_sound]
    exact changed

theorem window_parts {first second : List UInt8} {start : Nat}
    (outside : ∀ place, place < start ∨ start + 4 ≤ place → first[place]? = second[place]?) :
    first.take start = second.take start ∧ first.drop (start + 4) = second.drop (start + 4) := by
  refine ⟨?_,?_⟩
  · apply List.ext_getElem?
    intro place
    rw [List.getElem?_take,List.getElem?_take]
    split
    · rename_i before
      exact outside place (Or.inl before)
    · rfl
  · apply List.ext_getElem?
    intro place
    rw [List.getElem?_drop,List.getElem?_drop]
    exact outside (start + 4 + place) (Or.inr (Nat.le_add_right _ _))

-- Strings of one length that differ, and only inside such a window, are told apart.
theorem short_bursts_detected {first second : List UInt8} (size : first.length = second.length) (differ : first ≠ second)
    (start : Nat) (outside : ∀ place, place < start ∨ start + 4 ≤ place → first[place]? = second[place]?) :
    crc32C first ≠ crc32C second := by
  obtain ⟨before,after⟩ := window_parts outside
  have parts (bytes : List UInt8) : bytes.take start ++ ((bytes.drop start).take 4 ++ bytes.drop (start + 4)) = bytes := by
    rw [← List.drop_drop,List.take_append_drop,List.take_append_drop]
  have length : ((first.drop start).take 4).length = ((second.drop start).take 4).length := by
    rw [List.length_take,List.length_take,List.length_drop,List.length_drop,size]
  intro same
  rw [← parts first,← parts second,before,after] at same
  have window := crc_burst length (List.length_take_le 4 _) _ _ same
  apply differ
  rw [← parts first,← parts second,before,after,window]

theorem two_notes_told_apart : crc32C [1,2,3,4,5,6] ≠ crc32C [1,2,9,4,8,6] := by
  refine short_bursts_detected rfl (by decide) 1 ?_
  intro place outside
  match place with
  | 0 | 1 | 3 | 5 => rfl
  | 2 | 4 => omega
  | _ + 6 => rfl

end GameServer.MTcpCodec
