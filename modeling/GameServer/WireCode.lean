import GameServer.Foundation.PrefixCodes
import GameServer.WireFormat
import Mathlib.Data.List.SplitBy

namespace GameServer.MTcpCodec
open Foundation

-- What of a message stands on the wire. The type it is given in as does not.
structure Content where
  msgId : MsgId
  mainType : UInt8
  subType : UInt8
  payload : List UInt8
deriving DecidableEq

def content (msg : EncodeMessage) : Content := ⟨msg.msgId,msg.mainType,msg.subType,msg.payload⟩

def encodings : Set (List UInt8) := {bytes | ∃ msg, Encodable msg ∧ bytes = (encodeSync msg).encodedMessage}

section Contents
variable {msg other : EncodeMessage} {msgs others : List EncodeMessage}

theorem frames_same (same : content msg = content other) : frames msg = frames other := by
  obtain ⟨msgId,protoType,mainType,subType,payload⟩ := msg
  obtain ⟨msgId',protoType',mainType',subType',payload'⟩ := other
  simp only [content,Content.mk.injEq] at same
  obtain ⟨rfl,rfl,rfl,rfl⟩ := same
  rfl

theorem decodedFragments_same (same : content msg = content other) : decodedFragments msg = decodedFragments other := by
  rw [← frames_messages,frames_same same,frames_messages]

theorem decodedFragments_label : ∀ decoded ∈ decodedFragments msg,
    decoded.msgId = msg.msgId ∧ decoded.mainType = msg.mainType ∧ decoded.subType = msg.subType := by
  intro decoded member
  obtain ⟨seq,_,rfl⟩ := List.mem_map.mp member
  exact ⟨rfl,rfl,rfl⟩

theorem decodedFragments_some (encodable : Encodable msg) : decodedFragments msg ≠ [] := by
  have positive := totalFrames_pos encodable.nonempty
  apply List.ne_nil_of_length_pos
  rw [decodedFragments,List.length_map,List.length_range]
  exact positive

theorem content_fragments (encodable : Encodable msg) (same : decodedFragments msg = decodedFragments other) :
    content msg = content other := by
  obtain ⟨decoded,member⟩ := List.exists_mem_of_ne_nil _ (decodedFragments_some encodable)
  obtain ⟨msgId,mainType,subType⟩ := decodedFragments_label decoded member
  rw [same] at member
  obtain ⟨msgId',mainType',subType'⟩ := decodedFragments_label decoded member
  have payload := decodedFragments_payload msg
  rw [same,decodedFragments_payload] at payload
  rw [content,content,← msgId,← mainType,← subType,msgId',mainType',subType',payload]

theorem content_frames (encodable : Encodable msg) (same : frames msg = frames other) : content msg = content other := by
  refine content_fragments encodable ?_
  rw [← frames_messages,same,frames_messages]

theorem frames_start (encodable : Encodable msg) (also : Encodable other) (start : frames msg <+: frames other) :
    frames msg = frames other := by
  have some_ : 0 < (frames msg).length := by
    rw [frames_length]
    exact totalFrames_pos encodable.nonempty
  have first := List.getElem?_eq_getElem some_
  have second : (frames other)[0]? = some (frames msg)[0] := by
    obtain ⟨rest,whole⟩ := start
    rw [← whole,List.getElem?_append_left some_,first]
  have one := (frames_onWire encodable.bounded first).total
  have two := (frames_onWire also.bounded second).total
  exact start.eq_of_length (one.symm.trans two)

theorem encodings_prefixCode : PrefixCode encodings := by
  refine ⟨?_,?_⟩
  · rintro ⟨msg,encodable,empty⟩
    have one : ∀ other ∈ [msg], Encodable other := by simpa using encodable
    have long := stream_long one (List.cons_ne_nil _ _)
    rw [stream,List.flatMap_singleton,← empty] at long
    simp [protoHeaderSize] at long
  · rintro _ ⟨msg,encodable,rfl⟩ _ ⟨other,also,rfl⟩ ⟨more,whole⟩
    simp only [encodeSync_encodable encodable,encodeSync_encodable also] at whole ⊢
    have one := Framing.split_frames (fun frame member => (frames_valid msg frame member).1) more
    have two := Framing.split_frames (fun frame member => (frames_valid other frame member).1) []
    rw [whole,← List.append_nil (frames other).flatten,two,Framing.split_none Framing.size_nil,List.append_nil] at one
    obtain ⟨parts,_⟩ := Prod.mk.inj one
    rw [frames_start encodable also ⟨_,parts.symm⟩]

theorem encoded_iff (encodable : Encodable msg) (also : Encodable other) :
    (encodeSync msg).encodedMessage = (encodeSync other).encodedMessage ↔ content msg = content other := by
  rw [encodeSync_encodable encodable,encodeSync_encodable also]
  refine ⟨?_,fun same => by rw [frames_same same]⟩
  intro same
  have one := Framing.split_unique (fun frame member => (frames_valid msg frame member).1) Framing.size_nil
  have two := Framing.split_unique (fun frame member => (frames_valid other frame member).1) Framing.size_nil
  dsimp only at same
  rw [same,two] at one
  exact content_frames encodable (Prod.mk.inj one).1.symm

theorem encodings_of (encodable : ∀ msg ∈ msgs, Encodable msg) :
    ∀ word ∈ msgs.map fun msg => (encodeSync msg).encodedMessage, word ∈ encodings := by
  intro word member
  obtain ⟨msg,inside,rfl⟩ := List.mem_map.mp member
  exact ⟨msg,encodable msg inside,rfl⟩

theorem encoded_start (encodable : ∀ msg ∈ msgs, Encodable msg) (also : ∀ msg ∈ others, Encodable msg) :
    (msgs.map fun msg => (encodeSync msg).encodedMessage) <+: (others.map fun msg => (encodeSync msg).encodedMessage) ↔
      msgs.map content <+: others.map content := by
  refine ⟨prefix_told ?_,prefix_told ?_⟩
  · intro msg member other inside
    exact (encoded_iff (encodable msg member) (also other inside)).mp
  · intro msg member other inside
    exact (encoded_iff (encodable msg member) (also other inside)).mpr

theorem fragments_grouped (encodable : ∀ msg ∈ msgs, Encodable msg)
    (apart : msgs.IsChain fun msg next => msg.msgId ≠ next.msgId) :
    (msgs.flatMap decodedFragments).splitBy (fun one next => one.msgId == next.msgId) = msgs.map decodedFragments := by
  rw [List.flatMap_def]
  refine List.splitBy_flatten ?_ ?_ ?_
  · intro empty
    obtain ⟨msg,member,none_⟩ := List.mem_map.mp empty
    exact decodedFragments_some (encodable msg member) none_
  · intro fragments member
    obtain ⟨msg,_,rfl⟩ := List.mem_map.mp member
    refine List.Pairwise.isChain (List.pairwise_of_forall_mem_list ?_)
    intro one first next second
    rw [(decodedFragments_label one first).1,(decodedFragments_label next second).1]
    exact beq_self_eq_true msg.msgId
  · refine List.isChain_map_of_isChain decodedFragments ?_ (List.IsChain.iff_mem.mp apart)
    rintro one next ⟨first,second,distinct⟩
    have some_ := decodedFragments_some (encodable one first)
    have more := decodedFragments_some (encodable next second)
    refine ⟨some_,more,?_⟩
    rw [(decodedFragments_label _ (List.getLast_mem some_)).1,(decodedFragments_label _ (List.head_mem more)).1]
    exact beq_eq_false_iff_ne.mpr distinct

def cut (msg : EncodeMessage) (chunks : Nat) : List EncodeMessage :=
  [{ msg with payload := msg.payload.take (chunkSize * chunks) },{ msg with payload := msg.payload.drop (chunkSize * chunks) }]

theorem cut_encodable {chunks : Nat} (encodable : Encodable msg) (some_ : 0 < chunks)
    (inside : chunkSize * chunks < msg.payload.length) : ∀ part ∈ cut msg chunks, Encodable part := by
  obtain ⟨business,nonempty,bounded⟩ := encodable
  have whole : 0 < chunkSize * chunks := Nat.mul_pos (by decide) some_
  intro part member
  simp only [cut,List.mem_cons,List.not_mem_nil,or_false] at member
  rcases member with rfl | rfl
  · refine ⟨business,?_,?_⟩ <;> simp only [List.length_take] <;> omega
  · refine ⟨business,?_,?_⟩ <;> simp only [List.length_drop] <;> omega

theorem totalFrames_cut {size chunks : Nat} (inside : chunkSize * chunks < size) :
    totalFrames size = totalFrames (chunkSize * chunks) + totalFrames (size - chunkSize * chunks) ∧
      totalFrames (chunkSize * chunks) = chunks := by
  simp only [totalFrames,chunkSize] at inside ⊢
  omega

theorem decodedFragments_eq (msg : EncodeMessage) : decodedFragments msg =
    (List.range (totalFrames msg.payload.length)).map fun seq =>
      ⟨msg.msgId,0,msg.mainType,msg.subType,fragment msg.payload seq⟩ := by
  simp only [decodedFragments,← fragment_eq]

theorem cut_fragments {chunks : Nat} (inside : chunkSize * chunks < msg.payload.length) :
    (cut msg chunks).flatMap decodedFragments = decodedFragments msg := by
  obtain ⟨total,front⟩ := totalFrames_cut inside
  have takes : (msg.payload.take (chunkSize * chunks)).length = chunkSize * chunks := by
    rw [List.length_take]
    omega
  have early (seq : Nat) (before : seq < chunks) :
      fragment (msg.payload.take (chunkSize * chunks)) seq = fragment msg.payload seq := by
    have covered : chunkSize * (seq + 1) ≤ chunkSize * chunks := Nat.mul_le_mul_left chunkSize before
    rw [fragment_eq,fragment_eq,bytesBetween,bytesBetween,List.take_take,takes]
    congr 2
    omega
  have late (seq : Nat) : fragment (msg.payload.drop (chunkSize * chunks)) seq = fragment msg.payload (chunks + seq) := by
    have place : chunkSize * chunks + seq * chunkSize = (chunks + seq) * chunkSize := by
      rw [Nat.add_mul,Nat.mul_comm chunkSize]
    rw [fragment,fragment,List.drop_drop,List.length_drop,Nat.sub_sub,place]
  simp only [cut,List.flatMap_cons,List.flatMap_nil,List.append_nil,decodedFragments_eq,takes,List.length_drop,front,
    total,List.range_add,List.map_append,List.map_map]
  congr 1
  · apply List.map_congr_left
    intro seq member
    rw [early seq (List.mem_range.mp member)]
  · apply List.map_congr_left
    intro seq _
    rw [late seq,Function.comp_apply]

end Contents

-- Streams of messages are read in one way only, and one is the start of another
-- only where its messages are.
theorem streams_agree (msgs others : List EncodeMessage) (encodable : ∀ msg ∈ msgs, Encodable msg)
    (also : ∀ msg ∈ others, Encodable msg) :
    (stream msgs <+: stream others ↔ msgs.map content <+: others.map content) ∧
      (stream msgs = stream others ↔ msgs.map content = others.map content) := by
  have words := encodings_of encodable
  have more := encodings_of also
  rw [stream,stream,List.flatMap_def,List.flatMap_def]
  refine ⟨?_,?_,?_⟩
  · rw [← encoded_start encodable also]
    refine ⟨encodings_prefixCode.flatten_start words more,?_⟩
    rintro ⟨rest,whole⟩
    exact ⟨rest.flatten,by rw [← whole,List.flatten_append]⟩
  · intro same
    have parts := encodings_prefixCode.uniquelyDecodable _ _ words more same
    exact map_told (fun msg member other inside => (encoded_iff (encodable msg member) (also other inside)).mp) parts
  · intro same
    have parts := map_told (fun msg member other inside => (encoded_iff (encodable msg member) (also other inside)).mpr) same
    rw [parts]

theorem encodable_notes : ∀ msg ∈ [longMsg,shortMsg], Encodable msg := by
  intro msg member
  simp only [List.mem_cons,List.not_mem_nil,or_false] at member
  rcases member with rfl | rfl
  · exact ⟨by decide,by rw [longMsg,List.length_replicate]; decide,by rw [longMsg,List.length_replicate]; decide⟩
  · exact ⟨by decide,by decide,by decide⟩

theorem long_first : stream [longMsg] <+: stream [longMsg,shortMsg] ∧ stream [longMsg] ≠ stream [longMsg,shortMsg] := by
  have streams := streams_agree [longMsg] [longMsg,shortMsg] (by simpa using encodable_notes longMsg (by simp)) encodable_notes
  refine ⟨streams.1.mpr (by simp),?_⟩
  intro same
  have contents := streams.2.mp same
  simp at contents

-- What DecodeSync makes of a stream tells its messages where none has the id of the one before it.
theorem decoded_determine (msgs others : List EncodeMessage) (encodable : ∀ msg ∈ msgs, Encodable msg)
    (also : ∀ msg ∈ others, Encodable msg) (apart : msgs.IsChain fun msg next => msg.msgId ≠ next.msgId)
    (alsoApart : others.IsChain fun msg next => msg.msgId ≠ next.msgId) (past behind : Nat → UInt8) :
    (decodeSync past (stream msgs)).messages = (decodeSync behind (stream others)).messages ↔
      msgs.map content = others.map content := by
  rw [decode_messages encodable,decode_messages also]
  refine ⟨?_,?_⟩
  · intro same
    have groups := fragments_grouped encodable apart
    rw [same,fragments_grouped also alsoApart] at groups
    refine map_told ?_ groups.symm
    intro msg member other _
    exact content_fragments (encodable msg member)
  · intro same
    have fragments := map_told (fun msg _ other _ => decodedFragments_same) same
    rw [List.flatMap_def,fragments,List.flatMap_def]

theorem order_told : (decodeSync (fun _ => 0) (stream [longMsg,shortMsg])).messages ≠
    (decodeSync (fun _ => 1) (stream [shortMsg,longMsg])).messages := by
  have distinct : longMsg.msgId ≠ shortMsg.msgId := by decide
  have also : ∀ msg ∈ [shortMsg,longMsg], Encodable msg := by
    intro msg member
    exact encodable_notes msg (by simpa [or_comm] using member)
  intro same
  have contents := (decoded_determine [longMsg,shortMsg] [shortMsg,longMsg] encodable_notes also (by simp [distinct])
    (by simp [distinct.symm]) _ _).mp same
  exact distinct (congrArg Content.msgId (List.cons.inj contents).1)

-- Where it has, a message cannot be told from the two it is cut into, for all that
-- their streams are different.
theorem decoded_cut (msg : EncodeMessage) (encodable : Encodable msg) (chunks : Nat) (some_ : 0 < chunks)
    (inside : chunkSize * chunks < msg.payload.length) (past : Nat → UInt8) :
    (decodeSync past (stream (cut msg chunks))).messages = (decodeSync past (stream [msg])).messages ∧
      stream (cut msg chunks) ≠ stream [msg] := by
  have one : ∀ other ∈ [msg], Encodable other := by simpa using encodable
  have parts := cut_encodable encodable some_ inside
  refine ⟨?_,?_⟩
  · rw [decode_messages parts,decode_messages one,cut_fragments inside,List.flatMap_singleton]
  · intro same
    have contents := (streams_agree _ _ parts one).2.mp same
    have number := congrArg List.length contents
    simp [cut] at number

theorem long_cut : (decodeSync (fun _ => 0) (stream (cut longMsg 1))).messages =
    (decodeSync (fun _ => 0) (stream [longMsg])).messages := by
  have size : longMsg.payload.length = 4097 := List.length_replicate
  exact (decoded_cut longMsg (encodable_notes longMsg (by simp)) 1 (by decide) (by rw [size]; decide) _).1

end GameServer.MTcpCodec
