import GameServer.ReceivePath

namespace GameServer.ClientSession
open Foundation MTcpCodec

-- The frames still to come: complete and self-contained ones, of the encoder's size.
structure Expected (remaining : List (List UInt8)) : Prop where
  valid : ∀ frame ∈ remaining, framing.IsFrame frame
  whole : ∀ frame ∈ remaining, SelfContained frame
  small : ∀ frame ∈ remaining, frame.length ≤ protoHeaderSize + 2 + chunkSize

theorem expected_rest {whole rest : List (List UInt8)} (expected : Expected (whole ++ rest)) : Expected rest := by
  refine ⟨?_,?_,?_⟩
  · intro frame member
    exact expected.valid frame (by simp [member])
  · intro frame member
    exact expected.whole frame (by simp [member])
  · intro frame member
    exact expected.small frame (by simp [member])

theorem frames_expected (msgs : List EncodeMessage) : Expected (msgs.flatMap frames) := by
  refine ⟨fun frame member => (stream_valid msgs frame member).1,
    fun frame member => (stream_valid msgs frame member).2,?_⟩
  intro frame member
  obtain ⟨msg,_,inside⟩ := List.mem_flatMap.mp member
  obtain ⟨seq,_,rfl⟩ := List.mem_map.mp inside
  obtain ⟨hdr,body,bytes,same,_⟩ := encodeFrame_header msg (totalFrames msg.payload.length) seq
  have bound := fragment_length msg.payload seq
  rw [bytes,same,List.length_append,ProtoHeader.toBytes_length]
  simp only [List.length_cons]
  omega

theorem start_magic {tail more : List UInt8} {remaining : List (List UInt8)} (expected : Expected remaining)
    (arriving : tail ++ more = remaining.flatten) (long : protoHeaderSize ≤ tail.length) : BeginsMagic tail := by
  cases remaining with
  | nil =>
    have empty := congrArg List.length arriving
    rw [List.length_append,List.flatten_nil,List.length_nil,protoHeaderSize] at *
    omega
  | cons frame rest =>
    obtain ⟨header,magic,_⟩ := isFrame_iff.mp (expected.valid frame (by simp))
    rw [List.flatten_cons] at arriving
    have whole := (beginsMagic_append header rest.flatten).mpr magic
    rw [← arriving] at whole
    exact (beginsMagic_append long more).mp whole

theorem leftover_start {input : List UInt8}
    (magic : protoHeaderSize ≤ (framing.split input).2.length → BeginsMagic (framing.split input).2) :
    leftover input = (framing.split input).2 := by
  rw [leftover,if_pos]
  by_cases short : (framing.split input).2.length < protoHeaderSize
  · exact Or.inl short
  · exact Or.inr (magic (Nat.le_of_not_lt short))

-- One receive step along a stream of frames: the frames it completes are handed
-- on only if what follows them is shorter than a header.
theorem onSocketRecv_start {s : ClientSession} (intact : s.Intact) {read : Read} (some_ : read.data ≠ [])
    (fits : s.bufferUsed + read.data.length ≤ readBufferSize)
    {remaining rest : List (List UInt8)} (expected : Expected remaining)
    (parts : remaining = (framing.split (s.pending ++ read.data)).1 ++ rest) {more : List UInt8}
    (arriving : (framing.split (s.pending ++ read.data)).2 ++ more = rest.flatten) :
    ∃ next, s.onSocketRecv read = some (next,
        if (framing.split (s.pending ++ read.data)).2.length < protoHeaderSize
        then ((framing.split (s.pending ++ read.data)).1.map frameMessage).map (pack s.sessionId) else []) ∧
      next.Intact ∧ next.sessionId = s.sessionId ∧
      next.pending = (framing.split (s.pending ++ read.data)).2 := by
  obtain ⟨next,received,after,same,left⟩ := onSocketRecv_pending intact some_ fits
  have restExpected : Expected rest := expected_rest (parts ▸ expected)
  have magic := start_magic restExpected arriving
  refine ⟨next,?_,after,same,left.trans (leftover_start magic)⟩
  rw [received,decoded_pending intact]
  have input := Framing.split_flatten (F := framing) (s.pending ++ read.data)
  have unfinished := Framing.split_unfinished (F := framing) (s.pending ++ read.data)
  have valid := Framing.split_isFrame (F := framing) (s.pending ++ read.data)
  by_cases long : protoHeaderSize ≤ (s.pending ++ read.data).length
  · have decoded := decodeSync_frames valid
      (fun frame member => expected.whole frame (by rw [parts]; simp [member])) unfinished
      (by rw [input]; exact long) (s.past read)
    rw [input] at decoded
    rw [decoded,finish]
    by_cases short : (framing.split (s.pending ++ read.data)).2.length < protoHeaderSize
    · rw [if_pos short,if_pos short]; simp
    · rw [if_neg short,if_neg short,if_pos (magic (Nat.le_of_not_lt short))]; simp
  · have alone := Framing.split_none (F := framing) (short_unfinished (Nat.lt_of_not_le long))
    rw [alone,decodeSync,if_pos (Nat.lt_of_not_le long)]
    simp

theorem held_fits {s : ClientSession} (intact : s.Intact) {remaining : List (List UInt8)} (expected : Expected remaining)
    (unfinished : framing.size s.pending = none) {data more : List UInt8} (some_ : data ≠ [])
    (bounded : data.length + (protoHeaderSize + 2 + chunkSize) ≤ readBufferSize)
    (arriving : s.pending ++ (data ++ more) = remaining.flatten) :
    s.bufferUsed + data.length ≤ readBufferSize := by
  have positive := List.length_pos_of_ne_nil some_
  cases remaining with
  | nil =>
    have empty := congrArg List.length arriving
    simp only [List.length_append,List.flatten_nil,List.length_nil] at empty
    omega
  | cons frame rest =>
    rw [List.flatten_cons] at arriving
    have short := Framing.unfinished_short unfinished (expected.valid frame (by simp)) arriving
    have small := expected.small frame (by simp)
    rw [pending_length intact] at short
    simp only [protoHeaderSize,chunkSize] at small bounded
    omega

-- By induction on the reads, over the frames still to come.
theorem segmented_run {reads : List Read} (chunks : ∀ read ∈ reads, read.data ≠ [] ∧
      read.data.length + (protoHeaderSize + 2 + chunkSize) ≤ readBufferSize)
    {s : ClientSession} (intact : s.Intact) (log : List MsgPack) {remaining : List (List UInt8)}
    (expected : Expected remaining) (unfinished : framing.size s.pending = none)
    (arriving : s.pending ++ (reads.map (·.data)).flatten = remaining.flatten) :
    ∃ next packs, Machine.run receive (s,log) reads = some (next,log ++ packs) ∧ packs.length ≤ remaining.length ∧
      (packs = (remaining.map frameMessage).map (pack s.sessionId) ↔
        ¬ Framing.LateCut protoHeaderSize remaining s.pending.length (reads.map (·.data))) := by
  induction reads generalizing s log remaining with
  | nil =>
    have complete := arriving
    simp only [List.map_nil,List.flatten_nil,List.append_nil] at complete
    have alone := Framing.split_none unfinished
    have same := Framing.split_unique expected.valid Framing.size_nil
    rw [List.append_nil,← complete,alone] at same
    obtain ⟨none_,_⟩ := Prod.mk.inj same
    subst none_
    exact ⟨s,[],by simp,Nat.le_refl _,by simp [Framing.lateCut_nil]⟩
  | cons read rest ih =>
    obtain ⟨some_,bounded⟩ := chunks read (by simp)
    simp only [List.map_cons,List.flatten_cons] at arriving
    have fits := held_fits intact expected unfinished some_ bounded arriving
    have together : (s.pending ++ read.data) ++ (rest.map (·.data)).flatten = remaining.flatten := by
      rw [List.append_assoc]; exact arriving
    obtain ⟨later,parts,start⟩ := Framing.split_prefix expected.valid together
    obtain ⟨next,received,after,identity,left⟩ := onSocketRecv_start intact some_ fits expected parts start
    have positive : 0 < protoHeaderSize := by decide
    have late := Framing.lateCut_cons expected.valid unfinished positive arriving parts start
    have tailUnfinished := Framing.split_unfinished (F := framing) (s.pending ++ read.data)
    rw [← left] at start late received tailUnfinished
    revert parts received late
    generalize (framing.split (s.pending ++ read.data)).1 = decoded
    intro parts received late
    subst parts
    generalize handed : (if next.pending.length < protoHeaderSize
      then (decoded.map frameMessage).map (pack s.sessionId) else []) = out at received
    have stepped : receive (s,log) read = some (next,log ++ out) := Machine.recording_eq_some.mpr ⟨out,received,rfl⟩
    have otherChunks : ∀ other ∈ rest, other.data ≠ [] ∧
        other.data.length + (protoHeaderSize + 2 + chunkSize) ≤ readBufferSize :=
      fun other member => chunks other (by simp [member])
    obtain ⟨last,packs,path,few,whole⟩ := ih otherChunks after (log ++ out) (expected_rest expected) tailUnfinished start
    rw [identity] at whole
    refine ⟨last,out ++ packs,?_,?_,?_⟩
    · rw [Machine.run_cons,stepped,Option.bind_some,path,List.append_assoc]
    · have outFew : out.length ≤ decoded.length := by rw [← handed]; split <;> simp
      rw [List.length_append,List.length_append]
      omega
    · rw [List.map_cons,late,List.map_append,List.map_append]
      by_cases short : next.pending.length < protoHeaderSize
      · rw [if_pos short] at handed
        have covered : ¬ (decoded ≠ [] ∧ protoHeaderSize ≤ next.pending.length) := by omega
        rw [← handed,List.append_cancel_left_eq,whole,or_iff_right covered]
      · rw [if_neg short] at handed
        subst handed
        by_cases nothing : decoded = []
        · subst nothing
          simpa using whole
        · -- the frames completed by this read are lost, and nothing later makes up for them
          have lost : packs ≠ (decoded.map frameMessage).map (pack s.sessionId) ++
              (later.map frameMessage).map (pack s.sessionId) := by
            intro same
            have count := congrArg List.length same
            have positive := List.length_pos_of_ne_nil nothing
            simp only [List.length_append,List.length_map] at count
            omega
          rw [List.nil_append]
          exact iff_of_false lost (fun free => free (Or.inl ⟨nothing,Nat.le_of_not_lt short⟩))

theorem fresh_run (sessionId : SessionId) {msgs : List EncodeMessage} (encodable : ∀ msg ∈ msgs, Encodable msg)
    {reads : List Read} (chunks : ∀ read ∈ reads, read.data ≠ [] ∧ read.data.length ≤ 4096)
    (cut : (reads.map (·.data)).flatten = stream msgs) :
    ∃ s packs, Machine.run receive (create sessionId,[]) reads = some (s,packs) ∧
      (packs = (msgs.flatMap decodedFragments).map (pack sessionId) ↔
        ¬ Framing.LateCut protoHeaderSize (msgs.flatMap frames) 0 (reads.map (·.data))) := by
  have start := create_pending sessionId
  have arriving : (create sessionId).pending ++ (reads.map (·.data)).flatten = (msgs.flatMap frames).flatten := by
    rw [start,List.nil_append,cut,stream_frames encodable]
  have unfinished : framing.size (create sessionId).pending = none := by
    rw [start]; exact Framing.size_nil
  have roomy : ∀ read ∈ reads, read.data ≠ [] ∧ read.data.length + (protoHeaderSize + 2 + chunkSize) ≤ readBufferSize := by
    intro read member
    obtain ⟨some_,bounded⟩ := chunks read member
    refine ⟨some_,?_⟩
    simp only [protoHeaderSize,chunkSize,readBufferSize]
    omega
  obtain ⟨s,packs,path,_,whole⟩ :=
    segmented_run roomy (create_intact sessionId) [] (frames_expected msgs) unfinished arriving
  rw [start,List.length_nil,stream_messages] at whole
  exact ⟨s,packs,path,whole⟩

-- Feeding the encoded messages in chunks hands on what one decode of the whole
-- returns, exactly when no chunk completes a frame and also ends a header's
-- length or more inside a later one.
theorem segmentation_exact (sessionId : SessionId) (msgs : List EncodeMessage)
    (accepted : ∀ msg ∈ msgs, (encodeSync msg).success = true) (reads : List Read)
    (chunks : ∀ read ∈ reads, read.data ≠ [] ∧ read.data.length ≤ 4096)
    (cut : (reads.map (·.data)).flatten = stream msgs) (past : Nat → UInt8) :
    (∃ s, Machine.run receive (create sessionId,[]) reads =
        some (s,(decodeSync past (stream msgs)).messages.map (pack sessionId))) ↔
      ¬ Framing.LateCut protoHeaderSize (msgs.flatMap frames) 0 (reads.map (·.data)) := by
  have encodable : ∀ msg ∈ msgs, Encodable msg := fun msg member => encodeSync_success.mp (accepted msg member)
  obtain ⟨s,packs,path,whole⟩ := fresh_run sessionId encodable chunks cut
  rw [← whole,path,decode_messages encodable]
  refine ⟨?_,?_⟩
  · intro same
    obtain ⟨_,same⟩ := same
    cases same
    rfl
  · intro same
    exact ⟨s,by rw [same]⟩

def ping (msgId : MsgId) : EncodeMessage := ⟨msgId,ProtoType.data,4,1,[65]⟩

def pingFrame (msgId : MsgId) : List UInt8 := encodeFrame (ping msgId) 1 0

def pingReads (place : Nat) : List Read :=
  [⟨(stream [ping 1,ping 2]).take place,fun _ => 0⟩,⟨(stream [ping 1,ping 2]).drop place,fun _ => 0⟩]

theorem pingReads_cut (place : Nat) : ((pingReads place).map (·.data)).flatten = stream [ping 1,ping 2] := by
  simp [pingReads]

theorem ping_encodable : ∀ msg ∈ [ping 1,ping 2], Encodable msg := by
  intro msg member
  simp only [List.mem_cons,List.not_mem_nil,or_false] at member
  rcases member with rfl | rfl <;> exact ⟨by decide,by decide,by decide⟩

theorem pingReads_chunks {place : Nat} (inside : 0 < place ∧ place < 58) :
    ∀ read ∈ pingReads place, read.data ≠ [] ∧ read.data.length ≤ 4096 := by
  have length : (stream [ping 1,ping 2]).length = 58 := by decide +kernel
  intro read member
  simp only [pingReads,List.mem_cons,List.not_mem_nil,or_false] at member
  rcases member with rfl | rfl
  · refine ⟨List.ne_nil_of_length_pos ?_,?_⟩ <;> rw [List.length_take,length] <;> omega
  · refine ⟨List.ne_nil_of_length_pos ?_,?_⟩ <;> rw [List.length_drop,length] <;> omega

-- Cut between the two frames, or anywhere up to a byte before the end of the
-- second header, both messages are handed on.
theorem segmentation_before_header : ∃ s, Machine.run receive (create 1,[]) (pingReads 54) =
    some (s,(decodeSync (fun _ => 0) (stream [ping 1,ping 2])).messages.map (pack 1)) := by
  refine (segmentation_exact 1 [ping 1,ping 2] ?_ (pingReads 54) (pingReads_chunks (by omega)) (pingReads_cut 54) _).mpr ?_
  · intro msg member
    exact encodeSync_success.mpr (ping_encodable msg member)
  · intro late
    obtain ⟨before,cut,after,earlier,frame,later,place,parts,inside,low,_⟩ := late
    have order : [pingFrame 1,pingFrame 2] = earlier ++ frame :: later := parts
    have size : (pingFrame 1).length = 29 := by decide +kernel
    have first : ((stream [ping 1,ping 2]).take 54).length = 54 := by decide +kernel
    -- only the first frame can end before the second begins
    rcases earlier with _ | ⟨one,_ | ⟨two,others⟩⟩
    · simp at inside
    · obtain ⟨rfl,order⟩ := List.cons.inj order
      cases before with
      | nil =>
        obtain ⟨rfl,_⟩ := List.cons.inj place
        simp only [List.nil_append,List.flatten_cons,List.flatten_nil,List.append_nil,protoHeaderSize] at low
        omega
      | cons head rest =>
        obtain ⟨rfl,_⟩ := List.cons.inj place
        simp only [List.flatten_cons,List.length_append,List.flatten_nil,List.length_nil] at inside
        omega
    · simp at order

-- One byte further the second header is whole, and the first message is lost.
theorem late_cut_loses : ¬ ∃ s, Machine.run receive (create 1,[]) (pingReads 55) =
    some (s,(decodeSync (fun _ => 0) (stream [ping 1,ping 2])).messages.map (pack 1)) := by
  intro delivered
  obtain ⟨s,delivered⟩ := delivered
  obtain ⟨other,packs,path,whole⟩ := fresh_run 1 ping_encodable (pingReads_chunks (by omega)) (pingReads_cut 55)
  rw [delivered,decode_messages ping_encodable] at path
  cases path
  refine whole.mp rfl ⟨[],_,_,[pingFrame 1],pingFrame 2,[],rfl,rfl,?_,?_,?_⟩ <;> decide +kernel

end GameServer.ClientSession
