import GameServer.Segmentation

namespace GameServer.ClientSession
open Foundation MTcpCodec

-- The one pack of a run, and all it has to say of the message.
structure Delivered (msg : EncodeMessage) (packs : List MsgPack) : Prop where
  one : ∃ pack, packs = [pack] ∧ pack.msg.msgId = msg.msgId ∧ pack.msg.mainType = msg.mainType ∧
    pack.msg.subType = msg.subType ∧ pack.msg.payload = msg.payload

def Delivers (sessionId : SessionId) (msg : EncodeMessage) (reads : List Read) : Prop :=
  ∃ s packs, Machine.run receive (create sessionId,[]) reads = some (s,packs) ∧ Delivered msg packs

section Messages
variable {sessionId : SessionId} {msg : EncodeMessage} {reads : List Read}

theorem frames_single (nonempty : 1 ≤ msg.payload.length) (small : msg.payload.length ≤ chunkSize) :
    frames msg = [encodeFrame msg 1 0] := by
  have total : totalFrames msg.payload.length = 1 := by
    simp only [totalFrames,chunkSize] at small ⊢
    omega
  rw [frames,total]
  rfl

theorem lateCut_lone {margin held : Nat} {frame : List UInt8} {chunks : List (List UInt8)} :
    ¬ Framing.LateCut margin [frame] held chunks := by
  intro late
  obtain ⟨before,chunk,after,earlier,other,later,-,parts,low,-⟩ := late
  cases earlier with
  | nil => simp at low
  | cons first rest => simp at parts

theorem receive_empty {state : ClientSession × List MsgPack} {read : Read} (empty : read.data = []) :
    receive state read = some state := by
  apply Machine.recording_eq_some.mpr
  exact ⟨[],by simp [onSocketRecv,empty],by simp⟩

theorem run_filled (state : ClientSession × List MsgPack) :
    Machine.run receive state reads = Machine.run receive state (reads.filter (·.data ≠ [])) := by
  induction reads generalizing state with
  | nil => rfl
  | cons read rest ih =>
    by_cases empty : read.data = []
    · rw [List.filter_cons_of_neg (by simp [empty]),Machine.run_cons,receive_empty empty]
      exact ih state
    · rw [List.filter_cons_of_pos (by simp [empty]),Machine.run_cons,Machine.run_cons]
      congr 1
      funext next
      exact ih next

theorem filled_flatten : ((reads.filter (·.data ≠ [])).map (·.data)).flatten = (reads.map (·.data)).flatten := by
  induction reads with
  | nil => rfl
  | cons read rest ih =>
    by_cases empty : read.data = []
    · rw [List.filter_cons_of_neg (by simp [empty]),List.map_cons,List.flatten_cons,empty,List.nil_append,ih]
    · rw [List.filter_cons_of_pos (by simp [empty]),List.map_cons,List.map_cons,List.flatten_cons,List.flatten_cons,ih]

theorem run_messages {s next : ClientSession} (filled : ∀ read ∈ reads, read.data ≠ []) (intact : s.Intact)
    {log packs : List MsgPack} {remaining : List (List UInt8)} (expected : Expected remaining)
    (arriving : s.pending ++ (reads.map (·.data)).flatten = remaining.flatten)
    (path : Machine.run receive (s,log) reads = some (next,packs)) :
    ∀ pack ∈ packs, pack ∈ log ∨ ∃ frame ∈ remaining, pack.msg = frameMessage frame := by
  induction reads generalizing s log remaining with
  | nil =>
    cases path
    exact fun pack member => Or.inl member
  | cons read rest ih =>
    obtain ⟨⟨middle,sofar⟩,stepped,path⟩ := Option.bind_eq_some_iff.mp path
    obtain ⟨out,received,logged⟩ := Machine.recording_eq_some.mp stepped
    have some_ := filled read (by simp)
    dsimp only at received
    by_cases fits : s.bufferUsed + read.data.length ≤ readBufferSize
    · simp only [List.map_cons,List.flatten_cons] at arriving
      have together : (s.pending ++ read.data) ++ (rest.map (·.data)).flatten = remaining.flatten := by
        rw [List.append_assoc]
        exact arriving
      obtain ⟨later,parts,start⟩ := Framing.split_prefix expected.valid together
      obtain ⟨after,same,kept,-,left⟩ := onSocketRecv_start intact some_ fits expected parts start
      rw [← left] at start
      cases received.symm.trans same
      have others := ih (fun other member => filled other (by simp [member])) kept (expected_rest (parts ▸ expected)) start path
      intro pack member
      rcases others pack member with earlier | ⟨frame,inside,same⟩
      · dsimp only at logged
        rw [logged] at earlier
        rcases List.mem_append.mp earlier with before | now
        · exact Or.inl before
        · split at now
          · obtain ⟨decoded,made,rfl⟩ := List.mem_map.mp now
            obtain ⟨frame,inside,rfl⟩ := List.mem_map.mp made
            refine Or.inr ⟨frame,?_,rfl⟩
            rw [parts]
            exact List.mem_append_left _ inside
          · cases now
      · refine Or.inr ⟨frame,?_,same⟩
        rw [parts]
        exact List.mem_append_right _ inside
    · rw [onSocketRecv_overflow some_ (by rw [intact.size]; omega)] at received
      cases received

theorem fragment_message {frame : List UInt8} (member : frame ∈ frames msg) :
    (frameMessage frame).payload.length ≤ chunkSize := by
  obtain ⟨seq,-,rfl⟩ := List.mem_map.mp member
  rw [encodeFrame_message]
  exact fragment_length msg.payload seq

theorem small_delivers (encodable : Encodable msg) (small : msg.payload.length ≤ chunkSize)
    (cut : (reads.map (·.data)).flatten = (frames msg).flatten) : Delivers sessionId msg reads := by
  have single := frames_single encodable.nonempty small
  have expected := frames_expected [msg]
  rw [List.flatMap_singleton] at expected
  have start := create_pending sessionId
  have unfinished : framing.size (create sessionId).pending = none := by
    rw [start]
    exact Framing.size_nil
  have arriving : (create sessionId).pending ++ ((reads.filter (·.data ≠ [])).map (·.data)).flatten = (frames msg).flatten := by
    rw [start,List.nil_append,filled_flatten,cut]
  have chunks : ∀ read ∈ reads.filter (·.data ≠ []), read.data ≠ [] ∧
      read.data.length + (protoHeaderSize + 2 + chunkSize) ≤ readBufferSize := by
    intro read member
    obtain ⟨inside,some_⟩ := List.mem_filter.mp member
    have part : read.data.Sublist (frames msg).flatten := by
      rw [← cut]
      exact List.sublist_flatten_of_mem (List.mem_map.mpr ⟨read,inside,rfl⟩)
    have short := part.length_le
    have frame := expected.small (encodeFrame msg 1 0) (by rw [single]; exact List.mem_singleton.mpr rfl)
    rw [single,List.flatten_singleton] at short
    refine ⟨of_decide_eq_true some_,?_⟩
    simp only [protoHeaderSize,chunkSize,readBufferSize] at frame ⊢
    omega
  obtain ⟨s,packs,path,-,whole⟩ := segmented_run chunks (create_intact sessionId) [] expected unfinished arriving
  rw [single] at whole
  refine ⟨s,packs,(run_filled _).trans path,⟨⟨0,sessionId,0,frameMessage (encodeFrame msg 1 0)⟩,whole.mpr lateCut_lone,?_⟩⟩
  rw [encodeFrame_message]
  refine ⟨rfl,rfl,rfl,?_⟩
  simp only [fragment,Nat.zero_mul,List.drop_zero,Nat.sub_zero,Nat.min_eq_right small,List.take_length]

theorem long_lost (long : chunkSize < msg.payload.length)
    (cut : (reads.map (·.data)).flatten = (frames msg).flatten) : ¬ Delivers sessionId msg reads := by
  rintro ⟨s,packs,path,⟨pack,rfl,-,-,-,whole⟩⟩
  have expected := frames_expected [msg]
  rw [List.flatMap_singleton] at expected
  have filled : ∀ read ∈ reads.filter (·.data ≠ []), read.data ≠ [] :=
    fun read member => of_decide_eq_true (List.mem_filter.mp member).2
  have arriving : (create sessionId).pending ++ ((reads.filter (·.data ≠ [])).map (·.data)).flatten = (frames msg).flatten := by
    rw [create_pending,List.nil_append,filled_flatten,cut]
  have messages := run_messages filled (create_intact sessionId) expected arriving ((run_filled _).symm.trans path)
  rcases messages pack (List.mem_singleton.mpr rfl) with none_ | ⟨frame,inside,same⟩
  · cases none_
  · have short := fragment_message inside
    rw [← same,whole] at short
    omega

end Messages

-- A message comes out as one, however its encoding is cut, exactly when it fits one frame.
theorem one_message_exact (sessionId : SessionId) (msg : EncodeMessage) (accepted : (encodeSync msg).success = true)
    (reads : List Read) (cut : (reads.map (·.data)).flatten = (encodeSync msg).encodedMessage) :
    Delivers sessionId msg reads ↔ msg.payload.length ≤ 4096 := by
  have encodable := encodeSync_success.mp accepted
  rw [encodeSync_encodable encodable] at cut
  by_cases small : msg.payload.length ≤ chunkSize
  · exact iff_of_true (small_delivers encodable small cut) small
  · exact iff_of_false (long_lost (Nat.lt_of_not_le small) cut) small

theorem small_message_whole : Delivers 1 (ping 7) [⟨(encodeSync (ping 7)).encodedMessage,fun _ => 0⟩] := by
  have accepted : (encodeSync (ping 7)).success = true := by decide +kernel
  have cut : ([(⟨(encodeSync (ping 7)).encodedMessage,fun _ => 0⟩ : Read)].map (·.data)).flatten =
      (encodeSync (ping 7)).encodedMessage := List.append_nil _
  exact (one_message_exact 1 (ping 7) accepted _ cut).mpr (by decide)

def overlong : EncodeMessage := ⟨7,ProtoType.data,4,1,List.replicate 4097 65⟩

def overlongReads : List Read :=
  [⟨(frames overlong).flatten.take 4096,fun _ => 0⟩,⟨(frames overlong).flatten.drop 4096,fun _ => 0⟩]

theorem overlong_split : ¬ ∀ (sessionId : SessionId) (msg : EncodeMessage), (encodeSync msg).success = true →
    ∀ reads : List Read, (reads.map (·.data)).flatten = (encodeSync msg).encodedMessage → Delivers sessionId msg reads := by
  intro delivers
  have length : overlong.payload.length = 4097 := List.length_replicate
  have encodable : Encodable overlong := by
    refine ⟨by decide,?_,?_⟩
    · rw [length]
      decide
    · rw [length]
      decide
  have cut : (overlongReads.map (·.data)).flatten = (frames overlong).flatten := by simp [overlongReads]
  have encoded : (overlongReads.map (·.data)).flatten = (encodeSync overlong).encodedMessage := by
    rw [encodeSync_encodable encodable,cut]
  have long : chunkSize < overlong.payload.length := by
    rw [length]
    decide
  exact long_lost long cut (delivers 1 overlong (encodeSync_success.mpr encodable) overlongReads encoded)

end GameServer.ClientSession
