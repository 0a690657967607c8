import GameServer.CodecGrammar
import GameServer.Segmentation

namespace GameServer.ClientSession
open Foundation MTcpCodec

def Produced (frame : List UInt8) : Prop := ∃ msg, (encodeSync msg).success = true ∧ frame ∈ frames msg

structure FirstMagic (bytes : List UInt8) (place : Nat) : Prop where
  here : (bytes.drop place).take 4 = magicBytes
  earlier : ∀ k < place, (bytes.drop k).take 4 ≠ magicBytes

-- What one call of onSocketRecv ought to do with frames around junk: hand on
-- all their messages, and keep nothing.
def HandsOn (s : ClientSession) (before : List (List UInt8)) (junk : List UInt8) (after : List (List UInt8))
    (heap : Nat → UInt8) : Prop :=
  ∃ next, s.onSocketRecv ⟨before.flatten ++ (junk ++ after.flatten),heap⟩ =
    some (next,((before ++ after).map frameMessage).map (pack s.sessionId)) ∧ next.bufferUsed = 0

section Corruption
variable {before after : List (List UInt8)} {junk : List UInt8}

theorem produced_frame {frame : List UInt8} (produced : Produced frame) :
    framing.IsFrame frame ∧ SelfContained frame := by
  obtain ⟨msg,_,member⟩ := produced
  exact frames_valid msg frame member

theorem produced_long (produced : ∀ frame ∈ after, Produced frame) (some_ : after ≠ []) :
    protoHeaderSize ≤ after.flatten.length := by
  obtain ⟨frame,rest,rfl⟩ := List.exists_cons_of_ne_nil some_
  have header := (isFrame_iff.mp (produced_frame (produced frame (by simp))).1).1
  rw [List.flatten_cons,List.length_append]
  omega

-- Junk of any length hides the frames behind it: the decoder stops at its first byte.
theorem junk_refused (producedBefore : ∀ frame ∈ before, Produced frame) (producedAfter : ∀ frame ∈ after, Produced frame)
    (some_ : after ≠ []) (first : FirstMagic (junk ++ after.flatten) junk.length) (dirty : junk ≠ [])
    (past : Nat → UInt8) : (decodeSync past (before.flatten ++ (junk ++ after.flatten))).success = false := by
  have tail : protoHeaderSize ≤ (junk ++ after.flatten).length := by
    have long := produced_long producedAfter some_
    rw [List.length_append]
    omega
  have other : ¬ BeginsMagic (junk ++ after.flatten) := by
    intro magic
    have wrong := first.earlier 0 (List.length_pos_iff.mpr dirty)
    rw [List.drop_zero] at wrong
    exact wrong ((beginsMagic_iff (Nat.le_trans (by decide) tail)).mp magic)
  have unfinished : frameSize (junk ++ after.flatten) = none := by
    cases found : frameSize (junk ++ after.flatten) with
    | none => rfl
    | some n => exact (other (frameSize_eq_some.mp found).2.1).elim
  have decoded := decodeSync_frames (fun frame member => (produced_frame (producedBefore frame member)).1)
    (fun frame member => (produced_frame (producedBefore frame member)).2) unfinished
    (by rw [List.length_append]; omega) past
  rw [decoded,finish,if_neg (Nat.not_lt.mpr tail),if_neg other]

theorem clean_decoded (produced : ∀ frame ∈ before, Produced frame) (long : protoHeaderSize ≤ before.flatten.length)
    (past : Nat → UInt8) : decodeSync past before.flatten =
      ⟨true,"",before.map frameMessage,before.flatten.length⟩ := by
  have decoded := decodeSync_frames (fun frame member => (produced_frame (produced frame member)).1)
    (fun frame member => (produced_frame (produced frame member)).2) frameSize_nil
    (by rw [List.append_nil]; exact long) past
  rw [List.append_nil] at decoded
  rw [decoded]
  rfl

theorem clean_leftover (produced : ∀ frame ∈ before, Produced frame) : leftover before.flatten = [] := by
  have split := Framing.split_unique (F := framing)
    (fun frame member => (produced_frame (produced frame member)).1) Framing.size_nil
  rw [List.append_nil] at split
  rw [leftover,split]
  rfl

theorem handsOn_iff {s : ClientSession} (intact : s.Intact) (empty : s.bufferUsed = 0)
    (produced : ∀ frame ∈ before ++ after, Produced frame) (some_ : after ≠ [])
    (first : FirstMagic (junk ++ after.flatten) junk.length) (heap : Nat → UInt8) :
    HandsOn s before junk after heap ↔
      junk = [] ∧ (before.flatten ++ (junk ++ after.flatten)).length ≤ readBufferSize := by
  have producedBefore : ∀ frame ∈ before, Produced frame := fun frame member => produced frame (by simp [member])
  have producedAfter : ∀ frame ∈ after, Produced frame := fun frame member => produced frame (by simp [member])
  have long := produced_long producedAfter some_
  have pending : s.pending = [] := by rw [ClientSession.pending,empty,List.take_zero]
  have some_ : before.flatten ++ (junk ++ after.flatten) ≠ [] := by
    intro none_
    have size := congrArg List.length none_
    simp only [List.length_append,List.length_nil,protoHeaderSize] at size long
    omega
  by_cases fits : (before.flatten ++ (junk ++ after.flatten)).length ≤ readBufferSize
  · obtain ⟨next,received,after_,_,left⟩ := onSocketRecv_pending intact (show Read.data ⟨_,heap⟩ ≠ [] from some_)
      (by rw [empty,Nat.zero_add]; exact fits)
    rw [decoded_pending intact,pending,List.nil_append] at received
    rw [pending,List.nil_append] at left
    by_cases dirty : junk = []
    · subst dirty
      refine iff_of_true ?_ ⟨rfl,fits⟩
      have whole : before.flatten ++ ([] ++ after.flatten) = (before ++ after).flatten := by simp
      dsimp only at received left
      rw [whole] at received left
      rw [clean_leftover produced] at left
      rw [clean_decoded produced (by rw [List.flatten_append,List.length_append]; omega)] at received
      refine ⟨next,by rw [whole]; exact received,?_⟩
      rw [← pending_length after_,left,List.length_nil]
    · refine iff_of_false ?_ (fun clean => dirty clean.1)
      rintro ⟨other,handed,_⟩
      rw [junk_refused producedBefore producedAfter ‹after ≠ []› first dirty] at received
      rw [received] at handed
      have none_ := congrArg List.length (Prod.mk.inj (Option.some.inj handed)).2
      simp only [Bool.false_eq_true,if_false,List.length_nil,List.length_map,List.length_append] at none_
      exact ‹after ≠ []› (List.length_eq_zero_iff.mp (by omega))
  · refine iff_of_false ?_ (fun clean => fits clean.2)
    rintro ⟨other,handed,_⟩
    have overflow : s.readBuffer.length < s.bufferUsed + (before.flatten ++ (junk ++ after.flatten)).length := by
      rw [intact.size,empty,Nat.zero_add]
      omega
    rw [onSocketRecv_overflow some_ overflow] at handed
    cases handed

end Corruption

-- Where a call starts on an empty buffer, everything around the junk is handed
-- on just when there is no junk (and the bytes fit the buffer at all).
theorem corruption_exact (sessionId : SessionId) (reads : List Read) (s : ClientSession) (log : List MsgPack)
    (path : Machine.run receive (create sessionId,[]) reads = some (s,log)) (empty : s.bufferUsed = 0)
    (before after : List (List UInt8)) (junk : List UInt8) (heap : Nat → UInt8)
    (produced : ∀ frame ∈ before ++ after, Produced frame) (some_ : after ≠ [])
    (first : FirstMagic (junk ++ after.flatten) junk.length) :
    HandsOn s before junk after heap ↔
      junk = [] ∧ (before.flatten ++ (junk ++ after.flatten)).length ≤ readBufferSize :=
  handsOn_iff (run_pending (create_intact sessionId) path).1 empty produced some_ first heap

theorem pingFrame_produced (msgId : MsgId) : Produced (pingFrame msgId) := by
  have single : totalFrames (ping msgId).payload.length = 1 := (by decide : totalFrames 1 = 1)
  refine ⟨ping msgId,encodeSync_success.mpr ⟨(by decide : ProtoType.data ≠ ProtoType.heartBeat),Nat.le_refl 1,
    (by decide : 1 ≤ maxDataSize)⟩,?_⟩
  rw [frames,single]
  exact List.mem_singleton_self _

theorem pingFrames_produced : ∀ frame ∈ [pingFrame 1] ++ [pingFrame 2], Produced frame := by
  intro frame member
  simp only [List.cons_append,List.nil_append,List.mem_cons,List.not_mem_nil,or_false] at member
  rcases member with rfl | rfl <;> exact pingFrame_produced _

theorem corruption_absent : HandsOn (create 1) [pingFrame 1] [] [pingFrame 2] (fun _ => 0) :=
  (corruption_exact 1 [] (create 1) [] rfl rfl [pingFrame 1] [pingFrame 2] [] (fun _ => 0) pingFrames_produced
    (List.cons_ne_nil _ _) ⟨by decide +kernel,nofun⟩).mpr ⟨rfl,by decide +kernel⟩

-- One byte of junk between two frames: neither message is handed on.
theorem one_byte_costs_both : ¬ HandsOn (create 1) [pingFrame 1] [0] [pingFrame 2] (fun _ => 0) := by
  intro handed
  have first : FirstMagic ([0] ++ [pingFrame 2].flatten) 1 := ⟨by decide +kernel,by decide +kernel⟩
  have clean := (handsOn_iff (create_intact 1) rfl pingFrames_produced (List.cons_ne_nil _ _) first _).mp handed
  cases clean.1

end GameServer.ClientSession
