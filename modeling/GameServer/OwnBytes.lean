import GameServer.Incremental
import GameServer.Resync

namespace GameServer.MTcpCodec
open Foundation

-- The places that the message of the frame at an offset is made from: its header,
-- and for anything but a heartbeat the type bytes and the rest of the payload.
def messageReads (input : List UInt8) (offset : Nat) : List Nat :=
  let hdr := headerAt input offset
  List.range' offset protoHeaderSize ++
    if hdr.protoType = ProtoType.heartBeat then []
    else
      let body := offset + protoHeaderSize
      body :: (body + 1) :: List.range' (body + 2) (hdr.payloadLen.toNat - 2)

-- find_next_magic_offset compares four bytes from the start on, up to the first magic.
def searchReads (input : List UInt8) (start : Nat) : List Nat :=
  if input.length < 4 ∨ start ≥ input.length then []
  else
    let tries : Nat := match scanMagic (input.drop start) with
      | some skipped => skipped + 1
      | none => input.length - start - 3
    (List.range' start tries).flatMap fun place => List.range' place 4

def loopReads (input : List UInt8) (offset : Nat) : List Nat :=
  if offset + protoHeaderSize ≤ input.length then
    if (headerAt input offset).header ≠ protoMagic then List.range' offset protoHeaderSize ++ searchReads input (offset + 1)
    else if offset + frameLen input offset > input.length then List.range' offset protoHeaderSize
    else messageReads input offset ++ loopReads input (offset + frameLen input offset)
  else []
termination_by input.length - offset
decreasing_by simp only [frameLen,protoHeaderSize] at *; omega

-- Every place of memory that DecodeSync reads, counted from the start of its input.
def decodeReads (input : List UInt8) : List Nat := if input.length < protoHeaderSize then [] else loopReads input 0

-- DecodeSync stays inside its input and, for each message, inside the frame of that
-- message, whose bytes alone make it. What follows the complete frames is then
-- nothing to their messages.
structure OwnBytes (input : List UInt8) : Prop where
  inside : ∀ place ∈ decodeReads input, place < input.length
  own : ∀ offset, DecodedAt input offset → ∀ place ∈ messageReads input offset,
    offset ≤ place ∧ place < offset + frameLen input offset
  made : ∀ offset, DecodedAt input offset → ∀ past behind other, FrameAt other offset →
    (∀ place ∈ messageReads input offset, byteAt past input place = byteAt behind other place) →
    decodeFrame past input offset = decodeFrame behind other offset
  same : ∀ past behind other, (framing.split other).1 = (framing.split input).1 →
    (decodeSync behind other).messages = (decodeSync past input).messages

section Reads
variable {input other : List UInt8} {past behind : Nat → UInt8} {offset : Nat}

theorem byteAt_room (room : offset < input.length) : byteAt past input offset = input.getD offset 0 := by
  simp [byteAt,room]

theorem stretch_eq {start size : Nat} (room : start + size ≤ input.length) (other_ : start + size ≤ other.length)
    (agree : ∀ place ∈ List.range' start size, byteAt past input place = byteAt behind other place) :
    (input.drop start).take size = (other.drop start).take size := by
  apply List.ext_getElem
  · rw [List.length_take,List.length_take,List.length_drop,List.length_drop]
    omega
  · intro i here there
    rw [List.length_take,List.length_drop] at here
    have both := agree (start + i) (List.mem_range'_1.mpr ⟨by omega,by omega⟩)
    rw [byteAt_room (by omega),byteAt_room (by omega),List.getD_eq_getElem _ _ (by omega),
      List.getD_eq_getElem _ _ (by omega)] at both
    rw [List.getElem_take,List.getElem_take,List.getElem_drop,List.getElem_drop]
    exact both

theorem header_take (room : offset + protoHeaderSize ≤ input.length) :
    headerAt input offset = ProtoHeader.ofBytes ((input.drop offset).take protoHeaderSize) := by
  have long : protoHeaderSize ≤ ((input.drop offset).take protoHeaderSize).length := by
    rw [List.length_take,List.length_drop]
    omega
  have same := ProtoHeader.ofBytes_append long ((input.drop offset).drop protoHeaderSize)
  rw [List.take_append_drop] at same
  exact same

-- A message depends on nothing but the bytes it is made from.
theorem decodeFrame_reads (one : FrameAt input offset) (two : FrameAt other offset)
    (agree : ∀ place ∈ messageReads input offset, byteAt past input place = byteAt behind other place) :
    decodeFrame past input offset = decodeFrame behind other offset := by
  have headers : headerAt input offset = headerAt other offset := by
    rw [header_take one.room,header_take two.room]
    exact congrArg ProtoHeader.ofBytes (stretch_eq one.room two.room fun place member =>
      agree place (List.mem_append_left _ member))
  have hdr : ProtoHeader.ofBytes (input.drop offset) = ProtoHeader.ofBytes (other.drop offset) := headers
  have named : ProtoHeader.ofBytes (other.drop offset) = headerAt other offset := rfl
  unfold decodeFrame
  rw [hdr,named]
  by_cases beat : (headerAt other offset).protoType = ProtoType.heartBeat
  · simp only [beat,if_true]
  · unfold messageReads at agree
    rw [headers] at agree
    simp only [beat,if_false] at agree ⊢
    congr 1
    · exact agree _ (by simp)
    · exact agree _ (by simp)
    · by_cases few : (headerAt other offset).payloadLen.toNat < 2
      · have none_ : (headerAt other offset).payloadLen.toNat - 2 = 0 := Nat.sub_eq_zero_of_le (Nat.le_of_lt few)
        rw [none_,List.take_zero,List.take_zero]
      · have first := one.complete
        have second := two.complete
        simp only [frameLen,headers] at first second
        exact stretch_eq (by omega) (by omega) fun place member => agree place (by simp [member])

theorem own_iff :
    (∀ place ∈ messageReads input offset, offset ≤ place ∧ place < offset + frameLen input offset) ↔
      Typed (headerAt input offset) := by
  unfold messageReads frameLen Typed
  have header : protoHeaderSize = 26 := rfl
  refine ⟨?_,?_⟩
  · intro own business
    have last := own (offset + protoHeaderSize + 1) (by simp [business])
    omega
  · intro typed place member
    simp only [List.mem_append,List.mem_range'_1] at member
    rcases member with inHeader | inBody
    · omega
    · split at inBody
      · cases inBody
      · rename_i business
        have long := typed business
        simp only [List.mem_cons,List.mem_range'_1] at inBody
        omega

theorem searchReads_inside (start : Nat) : ∀ place ∈ searchReads input start, place < input.length := by
  intro place member
  unfold searchReads at member
  split at member
  · cases member
  · dsimp only at member
    obtain ⟨first,tried,within⟩ := List.mem_flatMap.mp member
    rw [List.mem_range'_1] at tried within
    split at tried
    · rename_i skipped found
      have size := congrArg List.length (scanMagic_some found).1
      have four : magicBytes.length = 4 := rfl
      rw [four,List.length_take,List.length_drop,List.length_drop] at size
      omega
    · omega

theorem loopReads_inside (typed : ∀ offset, DecodedAt input offset → Typed (headerAt input offset))
    (reached : LoopAt input offset) : ∀ place ∈ loopReads input offset, place < input.length := by
  induction offset using loopReads.induct input with
  | case1 offset room other =>
    intro place member
    rw [loopReads,if_pos room,if_pos other,List.mem_append,List.mem_range'_1] at member
    rcases member with header | search
    · omega
    · exact searchReads_inside _ place search
  | case2 offset room magic short =>
    intro place member
    rw [loopReads,if_pos room,if_neg magic,if_pos short,List.mem_range'_1] at member
    omega
  | case3 offset room magic complete ih =>
    intro place member
    have frame : FrameAt input offset := ⟨room,Decidable.not_not.mp magic,Nat.le_of_not_lt complete⟩
    rw [loopReads,if_pos room,if_neg magic,if_neg complete,List.mem_append] at member
    rcases member with here | later
    · have own := own_iff.mpr (typed offset ⟨reached,frame⟩) place here
      have bound := frame.complete
      omega
    · exact ih (.next reached frame) place later
  | case4 offset outside =>
    intro place member
    rw [loopReads,if_neg outside] at member
    cases member

end Reads

-- The two type bytes are read without a look at the length, so all is well just
-- where every frame has them.
theorem own_bytes_exact (input : List UInt8) :
    OwnBytes input ↔ ∀ offset, DecodedAt input offset → Typed (headerAt input offset) := by
  refine ⟨?_,?_⟩
  · intro held offset decoded
    exact own_iff.mp (held.own offset decoded)
  · intro typed
    refine ⟨?_,fun offset decoded => own_iff.mpr (typed offset decoded),?_,?_⟩
    · intro place member
      unfold decodeReads at member
      split at member
      · cases member
      · exact loopReads_inside typed .start place member
    · intro offset decoded past behind other frame agree
      exact decodeFrame_reads decoded.2 frame agree
    · intro past behind other same
      have whole : ∀ frame ∈ (framing.split input).1, SelfContained frame := fun frame member =>
        typed_iff.mp (decoded_headers.mp typed frame member)
      have whole_ : ∀ frame ∈ (framing.split other).1, SelfContained frame := by
        rw [same]
        exact whole
      rw [typed_messages whole past,typed_messages whole_ behind,same]

def bareFrame : List UInt8 :=
  ProtoHeader.toBytes ⟨protoMagic,ProtoFlags.version,ProtoType.data,0,0,0,1,0,1,0⟩

-- Its message has for types the two bytes behind it, whatever they are.
theorem bare_frame_borrows : ¬ OwnBytes bareFrame ∧
    (decodeSync (fun _ => 0) (bareFrame ++ [4,1])).messages = [⟨1,0,4,1,[]⟩] ∧
    (decodeSync (fun _ => 0) (bareFrame ++ [6,0])).messages = [⟨1,0,6,0,[]⟩] := by
  refine ⟨?_,by decide +kernel,by decide +kernel⟩
  intro held
  have read := held.inside 27 (by decide +kernel)
  revert read
  decide +kernel

end GameServer.MTcpCodec
