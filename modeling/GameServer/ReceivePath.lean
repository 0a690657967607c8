import Mathlib.Data.List.Induction
import GameServer.ClientSession

namespace GameServer.ClientSession
open Foundation MTcpCodec

def receive : ClientSession × List MsgPack → Read → Option (ClientSession × List MsgPack) :=
  Machine.recording onSocketRecv

-- Both index computations of one call: where it copies to and what it subtracts.
structure CallSafe (s : ClientSession) (read : Read) : Prop where
  size : s.readBuffer.length = readBufferSize
  copies : s.bufferUsed + read.data.length ≤ s.readBuffer.length
  subtracts : (s.decoded read).costOffset ≤ s.bufferUsed + read.data.length

def NeverOverflows (sessionId : SessionId) (reads : List Read) : Prop :=
  ∀ before read after, reads = before ++ read :: after →
    ∃ s packs, Machine.run receive (create sessionId,[]) before = some (s,packs) ∧ s.CallSafe read

-- What the frame grammar leaves undecoded of the reads so far, one read after the other.
def absorb (held data : List UInt8) : List UInt8 := if data = [] then held else leftover (held ++ data)

def backlog (reads : List Read) : List UInt8 := (reads.map (·.data)).foldl absorb []

theorem onSocketRecv_absorb {s next : ClientSession} {read : Read} {packs : List MsgPack} (intact : s.Intact)
    (received : s.onSocketRecv read = some (next,packs)) :
    next.Intact ∧ next.sessionId = s.sessionId ∧ next.pending = absorb s.pending read.data := by
  rw [absorb]
  by_cases empty : read.data = []
  · simp only [onSocketRecv,empty,List.isEmpty_nil,if_true] at received
    cases received
    exact ⟨intact,rfl,by rw [if_pos empty]⟩
  · by_cases fits : s.bufferUsed + read.data.length ≤ readBufferSize
    · obtain ⟨other,same,after,identity,left⟩ := onSocketRecv_pending intact empty fits
      rw [received] at same
      cases same
      exact ⟨after,identity,by rw [if_neg empty,left]⟩
    · rw [onSocketRecv_overflow empty (by rw [intact.size]; omega)] at received
      cases received

theorem run_pending {reads : List Read} {s next : ClientSession} {log packs : List MsgPack} (intact : s.Intact)
    (path : Machine.run receive (s,log) reads = some (next,packs)) :
    next.Intact ∧ next.pending = (reads.map (·.data)).foldl absorb s.pending := by
  induction reads generalizing s log with
  | nil => cases path; exact ⟨intact,rfl⟩
  | cons read rest ih =>
    obtain ⟨⟨middle,sofar⟩,stepped,path⟩ := Option.bind_eq_some_iff.mp path
    obtain ⟨out,received,_⟩ := Machine.recording_eq_some.mp stepped
    obtain ⟨kept,_,left⟩ := onSocketRecv_absorb intact received
    have later := ih kept path
    rw [left] at later
    exact later

theorem callSafe_iff {s : ClientSession} (intact : s.Intact) (read : Read) :
    s.CallSafe read ↔ s.pending.length + read.data.length ≤ readBufferSize := by
  rw [pending_length intact]
  refine ⟨fun safe => ?_,fun fits => ⟨intact.size,?_,?_⟩⟩
  · have copies := safe.copies
    rwa [intact.size] at copies
  · rw [intact.size]; exact fits
  · have inside := (decode_leftover (s.past read) (s.pending ++ read.data)).1
    rwa [← decoded_pending intact,List.length_append,pending_length intact] at inside

theorem safe_backlog {sessionId : SessionId} {reads : List Read} (safe : NeverOverflows sessionId reads)
    {before : List Read} {read : Read} {after : List Read} (place : reads = before ++ read :: after) :
    (backlog before).length + read.data.length ≤ readBufferSize := by
  obtain ⟨s,packs,path,call⟩ := safe before read after place
  obtain ⟨intact,left⟩ := run_pending (create_intact sessionId) path
  rw [create_pending] at left
  rw [backlog,← left]
  exact (callSafe_iff intact read).mp call

theorem run_fitting (sessionId : SessionId) {reads : List Read}
    (fits : ∀ before read after, reads = before ++ read :: after →
      (backlog before).length + read.data.length ≤ readBufferSize) :
    ∃ s packs, Machine.run receive (create sessionId,[]) reads = some (s,packs) := by
  induction reads using List.reverseRecOn with
  | nil => exact ⟨_,_,rfl⟩
  | append_singleton reads last ih =>
    obtain ⟨s,packs,path⟩ := ih (fun before read after place => fits before read (after ++ [last]) (by simp [place]))
    obtain ⟨intact,left⟩ := run_pending (create_intact sessionId) path
    rw [create_pending] at left
    have bound := fits reads last [] rfl
    rw [backlog,← left,pending_length intact] at bound
    have received : ∃ next out, s.onSocketRecv last = some (next,out) := by
      by_cases empty : last.data = []
      · exact ⟨s,[],by simp [onSocketRecv,empty]⟩
      · obtain ⟨next,same,_⟩ := onSocketRecv_pending intact empty bound
        exact ⟨next,_,same⟩
    obtain ⟨next,out,received⟩ := received
    refine ⟨next,packs ++ out,?_⟩
    rw [Machine.run_snoc,path,Option.bind_some,receive,Machine.recording_eq_some]
    exact ⟨out,received,rfl⟩

-- The copy stays inside read_buffer_ in exactly the runs in which the bytes the
-- grammar leaves undecoded and the next read together fit it.
theorem never_overflows_exact (sessionId : SessionId) (reads : List Read) :
    NeverOverflows sessionId reads ↔ ∀ before read after, reads = before ++ read :: after →
      (backlog before).length + read.data.length ≤ readBufferSize := by
  refine ⟨fun safe _ _ _ place => safe_backlog safe place,?_⟩
  intro fits before read after place
  have shorter : ∀ earlier other later, before = earlier ++ other :: later →
      (backlog earlier).length + other.data.length ≤ readBufferSize :=
    fun earlier other later split => fits earlier other (later ++ read :: after) (by simp [place,split])
  obtain ⟨s,packs,path⟩ := run_fitting sessionId shorter
  obtain ⟨intact,left⟩ := run_pending (create_intact sessionId) path
  rw [create_pending] at left
  have bound := fits before read after place
  rw [backlog,← left] at bound
  exact ⟨s,packs,path,(callSafe_iff intact read).mpr bound⟩

theorem leftover_incomplete {input : List UInt8} (magic : BeginsMagic input)
    (incomplete : input.length < announced input) : leftover input = input := by
  have unfinished : frameSize input = none := by
    rw [frameSize,if_neg]
    intro complete
    omega
  rw [leftover,Framing.split_none unfinished,if_pos (Or.inr magic)]

theorem backlog_incomplete {held : List UInt8} {reads : List Read} (header : protoHeaderSize ≤ held.length)
    (magic : BeginsMagic held) (incomplete : (held ++ (reads.map (·.data)).flatten).length < announced held) :
    (reads.map (·.data)).foldl absorb held = held ++ (reads.map (·.data)).flatten := by
  induction reads generalizing held with
  | nil => simp
  | cons read rest ih =>
    simp only [List.map_cons,List.flatten_cons,← List.append_assoc] at incomplete ⊢
    have same := announced_append header read.data
    have stillMagic := (beginsMagic_append header read.data).mpr magic
    have kept : absorb held read.data = held ++ read.data := by
      rw [absorb]
      split
      · rename_i empty
        rw [empty,List.append_nil]
      · rw [List.length_append] at incomplete
        exact leftover_incomplete stillMagic (by omega)
    rw [List.foldl_cons,kept]
    refine ih ?_ stillMagic ?_
    · rw [List.length_append]; omega
    · rw [same]; exact incomplete

def longHeader : List UInt8 := ProtoHeader.toBytes ⟨protoMagic,ProtoFlags.version,ProtoType.data,65535,0,0,0,0,1,0⟩

def zeroRead : Read := ⟨List.replicate 4096 0,fun _ => 0⟩

def longReads (count : Nat) : List Read := ⟨longHeader,fun _ => 0⟩ :: List.replicate count zeroRead

theorem zeroRead_length : zeroRead.data.length = 4096 := List.length_replicate

theorem longHeader_length : longHeader.length = 26 := ProtoHeader.toBytes_length _

theorem backlog_longReads {count : Nat} (few : count < 16) : (backlog (longReads count)).length = 26 + count * 4096 := by
  have magic : BeginsMagic longHeader := by decide
  have size : announced longHeader = 65561 := by decide
  have first : absorb [] longHeader = longHeader :=
    leftover_incomplete magic (by rw [List.nil_append,size,longHeader_length]; omega)
  have length : (longHeader ++ ((List.replicate count zeroRead).map (·.data)).flatten).length = 26 + count * 4096 := by
    simp [longHeader_length,zeroRead_length]
  have kept := backlog_incomplete (Nat.le_of_eq longHeader_length.symm) magic (by rw [length,size]; omega)
  rw [backlog,longReads,List.map_cons,List.foldl_cons,first,kept,length]

-- One frame of the largest announced length does not fit the buffer: after its
-- header and fifteen full reads not one byte has left, and the next read overflows.
theorem long_frame_overflows :
    (∀ read ∈ longReads 16,read.data.length ≤ 4096) ∧ ¬ NeverOverflows 1 (longReads 16) := by
  refine ⟨?_,?_⟩
  · intro read member
    rcases List.mem_cons.mp member with rfl | others
    · exact Nat.le_trans (Nat.le_of_eq longHeader_length) (by omega)
    · rw [List.eq_of_mem_replicate others,zeroRead_length]
  · intro safe
    have place : longReads 16 = longReads 15 ++ zeroRead :: [] := rfl
    have fits := safe_backlog safe place
    rw [backlog_longReads (by omega),zeroRead_length,readBufferSize] at fits
    omega

end GameServer.ClientSession
