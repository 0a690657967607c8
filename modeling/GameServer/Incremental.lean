import GameServer.ClientSession
import GameServer.DecoderLoop

namespace GameServer.MTcpCodec
open Foundation

-- A buffer that is decoded without the invalid-magic exit, every frame of it with its type bytes.
structure Clean (behind : Nat → UInt8) (buffer : List UInt8) : Prop where
  synchronised : (decodeSync behind buffer).errorMsg ≠ "TcpCodec Decode Invalid Magic"
  typed : ∀ offset, DecodedAt buffer offset → Typed (headerAt buffer offset)

-- What decoding one buffer after the other, the remainder put in front of what
-- comes next, is to have in common with decoding everything at once.
structure Continues (past behind : Nat → UInt8) (a b : List UInt8) : Prop where
  messages : (decodeSync past (a ++ b)).messages = (decodeSync behind a).messages ++
    (decodeSync past (a.drop (decodeSync behind a).costOffset ++ b)).messages
  cost : (decodeSync past (a ++ b)).costOffset = (decodeSync behind a).costOffset +
    (decodeSync past (a.drop (decodeSync behind a).costOffset ++ b)).costOffset

section Shifts
variable {past : Nat → UInt8} {before rest : List UInt8}

theorem byteAt_behind (place : Nat) : byteAt past (before ++ rest) (before.length + place) = byteAt past rest place := by
  unfold byteAt
  rw [List.getD_append_right _ _ _ _ (Nat.le_add_right _ _),Nat.add_sub_cancel_left,List.length_append,Nat.add_sub_add_left]

theorem decodeFrame_behind (offset : Nat) :
    decodeFrame past (before ++ rest) (before.length + offset) = decodeFrame past rest offset := by
  have dropped (place : Nat) : (before ++ rest).drop (before.length + place) = rest.drop place := List.drop_length_add_append place
  unfold decodeFrame
  simp only [Nat.add_assoc,dropped,byteAt_behind]

theorem messagesAt_behind (frames : List (List UInt8)) (offset : Nat) :
    messagesAt past (before ++ rest) (before.length + offset) frames = messagesAt past rest offset frames := by
  induction frames generalizing offset with
  | nil => rfl
  | cons frame others ih => rw [messagesAt,messagesAt,decodeFrame_behind,Nat.add_assoc,ih]

theorem messagesAt_append (input : List UInt8) (offset : Nat) (frames others : List (List UInt8)) :
    messagesAt past input offset (frames ++ others) =
      messagesAt past input offset frames ++ messagesAt past input (offset + frames.flatten.length) others := by
  induction frames generalizing offset with
  | nil => rfl
  | cons frame frames ih =>
    rw [List.cons_append,messagesAt,messagesAt,ih,List.flatten_cons,List.length_append,Nat.add_assoc,List.cons_append]

theorem nextMagic_behind (long : 4 ≤ rest.length) (start : Nat) :
    findNextMagicOffset (before ++ rest) (before.length + start) = before.length + findNextMagicOffset rest start := by
  have dropped : (before ++ rest).drop (before.length + start) = rest.drop start := List.drop_length_add_append start
  unfold findNextMagicOffset
  rw [dropped,List.length_append]
  by_cases inside : start < rest.length
  · rw [if_neg (by omega),if_neg (by omega)]
    split
    · exact Nat.add_assoc _ _ _
    · rfl
  · rw [if_pos (by omega),if_pos (by omega)]

theorem finish_behind (long : protoHeaderSize ≤ rest.length) (earlier messages : List DecodedMessage) (offset : Nat)
    (tail : List UInt8) : finish (before ++ rest) (earlier ++ messages) (before.length + offset) tail =
      { finish rest messages offset tail with
        messages := earlier ++ (finish rest messages offset tail).messages
        costOffset := before.length + (finish rest messages offset tail).costOffset } := by
  unfold finish
  split
  · rfl
  · split
    · rfl
    · rw [Nat.add_assoc,nextMagic_behind (Nat.le_trans (by decide) long)]

end Shifts

theorem finish_messages (input : List UInt8) (messages : List DecodedMessage) (offset : Nat) (tail : List UInt8) :
    (finish input messages offset tail).messages = messages := by
  unfold finish
  split
  · rfl
  · split <;> rfl

theorem decode_behind {frames : List (List UInt8)} (valid : ∀ frame ∈ frames, framing.IsFrame frame)
    (whole : ∀ frame ∈ frames, SelfContained frame) (past : Nat → UInt8) (rest : List UInt8)
    (long : protoHeaderSize ≤ (frames.flatten ++ rest).length) :
    (decodeSync past (frames.flatten ++ rest)).messages = frames.map frameMessage ++ (decodeSync past rest).messages ∧
      (decodeSync past (frames.flatten ++ rest)).costOffset = frames.flatten.length + (decodeSync past rest).costOffset := by
  have first := messagesAt_frames valid whole past [] rest
  have second : messagesAt past (frames.flatten ++ rest) (frames.flatten.length + 0) (framing.split rest).1 =
      messagesAt past rest 0 (framing.split rest).1 := messagesAt_behind _ 0
  rw [List.nil_append,List.length_nil] at first
  rw [decodeSync_split past long,Framing.split_frames valid,messagesAt_append,first,Nat.zero_add]
  rw [Nat.add_zero] at second
  rw [second]
  by_cases more : protoHeaderSize ≤ rest.length
  · rw [List.flatten_append,List.length_append,finish_behind more,← decodeSync_split past more]
    exact ⟨rfl,rfl⟩
  · have few := Nat.lt_of_not_le more
    have alone : framing.split rest = ([],rest) := Framing.split_none (short_unfinished few)
    rw [alone,finish,if_pos few,decodeSync,if_pos few]
    exact ⟨rfl,by rw [List.append_nil]; rfl⟩

theorem typed_messages {input : List UInt8} (whole : ∀ frame ∈ (framing.split input).1, SelfContained frame)
    (past : Nat → UInt8) : (decodeSync past input).messages = (framing.split input).1.map frameMessage := by
  by_cases long : protoHeaderSize ≤ input.length
  · have messages := messagesAt_frames (Framing.split_isFrame input) whole past [] (framing.split input).2
    rw [List.nil_append,List.length_nil,Framing.split_flatten] at messages
    rw [decodeSync_split past long,finish_messages,messages]
  · have short := Nat.lt_of_not_le long
    have alone : framing.split input = ([],input) := Framing.split_none (short_unfinished short)
    rw [decodeSync,if_pos short,alone]
    rfl

section Decoding
variable {past behind : Nat → UInt8} {a b : List UInt8}

theorem clean_frames (clean : Clean behind a) : ∀ frame ∈ (framing.split a).1, SelfContained frame := fun frame member =>
  typed_iff.mp (decoded_headers.mp clean.typed frame member)

theorem clean_cost (clean : Clean behind a) (long : protoHeaderSize ≤ a.length) :
    (decodeSync behind a).costOffset = (framing.split a).1.flatten.length := by
  have synchronised := clean.synchronised
  rw [decodeSync_split behind long,finish] at synchronised ⊢
  split
  · rfl
  · split
    · rfl
    · rename_i short other
      rw [if_neg short,if_neg other] at synchronised
      exact (synchronised rfl).elim

theorem clean_continues (clean : Clean behind a) (past : Nat → UInt8) (b : List UInt8) : Continues past behind a b := by
  by_cases long : protoHeaderSize ≤ a.length
  · have kept : a.drop (decodeSync behind a).costOffset = (framing.split a).2 := by
      rw [clean_cost clean long,Framing.split_rest]
    have whole : a ++ b = (framing.split a).1.flatten ++ ((framing.split a).2 ++ b) := by
      rw [← List.append_assoc,Framing.split_flatten]
    have size : protoHeaderSize ≤ ((framing.split a).1.flatten ++ ((framing.split a).2 ++ b)).length := by
      rw [← whole,List.length_append]
      omega
    obtain ⟨further,cost⟩ := decode_behind (Framing.split_isFrame a) (clean_frames clean) past ((framing.split a).2 ++ b) size
    refine ⟨?_,?_⟩
    · rw [kept,whole,further,typed_messages (clean_frames clean)]
    · rw [kept,whole,cost,clean_cost clean long]
  · have nothing : decodeSync behind a = ⟨false,"TcpCodec Decode Input Too Short",[],0⟩ := by
      rw [decodeSync,if_pos (Nat.lt_of_not_le long)]
    refine ⟨?_,?_⟩
    · rw [nothing]
      rfl
    · rw [nothing]
      exact (Nat.zero_add _).symm

end Decoding

def feed (state : List DecodedMessage × List UInt8) (read : ClientSession.Read) : List DecodedMessage × List UInt8 :=
  let result := decodeSync read.heap (state.2 ++ read.data)
  (state.1 ++ result.messages,(state.2 ++ read.data).drop result.costOffset)

def CleanReads (reads : List ClientSession.Read) : Prop := ∀ before read after, reads = before ++ read :: after →
  Clean read.heap ((before.foldl feed ([],[])).2 ++ read.data)

section Reads
variable {reads : List ClientSession.Read}

theorem cleanReads_snoc {read : ClientSession.Read} (clean : CleanReads (reads ++ [read])) :
    CleanReads reads ∧ Clean read.heap ((reads.foldl feed ([],[])).2 ++ read.data) := by
  refine ⟨?_,clean reads read [] rfl⟩
  intro before other after cut
  exact clean before other (after ++ [read]) (by rw [cut]; simp)

-- What has been decoded and what is held account for all that came in.
structure Accounts (reads : List ClientSession.Read) (consumed : List UInt8) : Prop where
  bytes : (reads.map (·.data)).flatten = consumed ++ (reads.foldl feed ([],[])).2
  messages : ∀ past more, (decodeSync past ((reads.map (·.data)).flatten ++ more)).messages =
    (reads.foldl feed ([],[])).1 ++ (decodeSync past ((reads.foldl feed ([],[])).2 ++ more)).messages
  cost : ∀ past more, (decodeSync past ((reads.map (·.data)).flatten ++ more)).costOffset =
    consumed.length + (decodeSync past ((reads.foldl feed ([],[])).2 ++ more)).costOffset

theorem clean_accounts (clean : CleanReads reads) : ∃ consumed, Accounts reads consumed := by
  induction reads using List.reverseRecOn with
  | nil => exact ⟨[],rfl,fun _ _ => rfl,fun _ _ => (Nat.zero_add _).symm⟩
  | append_singleton reads read ih =>
    obtain ⟨earlier,here⟩ := cleanReads_snoc clean
    obtain ⟨consumed,bytes,messages,cost⟩ := ih earlier
    have inside := (decode_leftover read.heap ((reads.foldl feed ([],[])).2 ++ read.data)).1
    refine ⟨consumed ++ ((reads.foldl feed ([],[])).2 ++ read.data).take
      (decodeSync read.heap ((reads.foldl feed ([],[])).2 ++ read.data)).costOffset,?_,?_,?_⟩
    · simp only [List.map_append,List.map_singleton,List.flatten_append,List.flatten_singleton,List.foldl_append,
        List.foldl_cons,List.foldl_nil,feed,List.append_assoc,List.take_append_drop,bytes]
    · intro past more
      have next := (clean_continues here past more).messages
      simp only [List.map_append,List.map_singleton,List.flatten_append,List.flatten_singleton,List.foldl_append,
        List.foldl_cons,List.foldl_nil,feed,List.append_assoc]
      rw [messages,← List.append_assoc _ read.data,next]
    · intro past more
      have next := (clean_continues here past more).cost
      simp only [List.map_append,List.map_singleton,List.flatten_append,List.flatten_singleton,List.foldl_append,
        List.foldl_cons,List.foldl_nil,feed,List.append_assoc]
      rw [cost,← List.append_assoc _ read.data,next,List.length_append,List.length_take,Nat.min_eq_left inside,Nat.add_assoc]

-- One decoding and then another, or read after read: what is decoded is what would
-- be of everything at once, and so is what is held.
theorem decode_incremental : (∀ past behind a b, Clean behind a → Continues past behind a b) ∧
    ∀ reads last, CleanReads reads → (reads ++ [last]).foldl feed ([],[]) =
      ((decodeSync last.heap ((reads ++ [last]).map (·.data)).flatten).messages,
        ((reads ++ [last]).map (·.data)).flatten.drop
          (decodeSync last.heap ((reads ++ [last]).map (·.data)).flatten).costOffset) := by
  refine ⟨fun past behind a b clean => clean_continues clean past b,?_⟩
  intro reads last clean
  obtain ⟨consumed,bytes,messages,cost⟩ := clean_accounts clean
  have all : ((reads ++ [last]).map (·.data)).flatten = (reads.map (·.data)).flatten ++ last.data := by simp
  rw [all,messages,cost,bytes,List.foldl_append,List.append_assoc,List.drop_length_add_append]
  rfl

theorem frames_clean {frames : List (List UInt8)} {tail : List UInt8} (valid : ∀ frame ∈ frames, framing.IsFrame frame)
    (whole : ∀ frame ∈ frames, SelfContained frame) (short : tail.length < protoHeaderSize) (behind : Nat → UInt8) :
    Clean behind (frames.flatten ++ tail) := by
  have split := Framing.split_unique valid (short_unfinished short)
  refine ⟨?_,?_⟩
  · rw [ne_eq,badMagic_exit]
    rintro ⟨position,bad⟩
    have long := (badMagicAt_iff.mp bad).2.1
    rw [split] at long
    exact long short
  · refine decoded_headers.mpr ?_
    rw [split]
    exact fun frame member => typed_iff.mpr (whole frame member)

def note (msgId : MsgId) : List UInt8 := encodeFrame ⟨msgId,ProtoType.data,4,1,[65]⟩ 1 0

-- A read that ends behind the first byte of the second of two frames.
theorem second_note_later : Continues (fun _ => 0) (fun _ => 1) (note 1 ++ (note 2).take 1) ((note 2).drop 1) ∧
    [⟨note 1 ++ (note 2).take 1,fun _ => 1⟩,⟨(note 2).drop 1,fun _ => 0⟩].foldl feed ([],[]) =
      ([⟨1,0,4,1,[65]⟩,⟨2,0,4,1,[65]⟩],[]) := by
  have valid : ∀ frame ∈ [note 1], framing.IsFrame frame := by
    intro frame member
    rw [List.mem_singleton.mp member]
    exact encodeFrame_isFrame _ _ _
  have whole : ∀ frame ∈ [note 1], SelfContained frame := by
    intro frame member
    rw [List.mem_singleton.mp member]
    exact encodeFrame_selfContained _ _ _
  have clean (behind : Nat → UInt8) : Clean behind (note 1 ++ (note 2).take 1) := by
    have short : ((note 2).take 1).length < protoHeaderSize := by decide +kernel
    have decoded := frames_clean valid whole short behind
    rwa [List.flatten_singleton] at decoded
  have reads : CleanReads [⟨note 1 ++ (note 2).take 1,fun _ => 1⟩] := by
    intro before read after cut
    obtain ⟨rfl,rfl,rfl⟩ : before = [] ∧ read = ⟨note 1 ++ (note 2).take 1,fun _ => 1⟩ ∧ after = [] := by
      cases before with
      | nil => simpa [eq_comm] using cut
      | cons first rest => simp at cut
    exact clean _
  obtain ⟨continues,all⟩ := decode_incremental
  refine ⟨continues _ _ _ _ (clean _),?_⟩
  refine (all [⟨note 1 ++ (note 2).take 1,fun _ => 1⟩] ⟨(note 2).drop 1,fun _ => 0⟩ reads).trans ?_
  decide +kernel

end Reads
end GameServer.MTcpCodec
