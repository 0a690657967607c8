import GameServer.MTcpCodec
import GameServer.MessageProto

namespace GameServer.RequestPayload
open MTcpCodec

-- The bytes memcpy takes from a place on, with `past` the memory behind the
-- payload: no handler looks at the payload's size before it reads. Only a payload
-- with a byte in it has memory behind it.
def copied (past : Nat → UInt8) (payload : List UInt8) (start size : Nat) : List UInt8 :=
  (List.range size).map fun i => byteAt past payload (start + i)

structure Reading where
  first : StdString
  second : StdString
  reads : List Nat

def Reading.inside (r : Reading) (payload : List UInt8) : Prop := ∀ place ∈ r.reads, place < payload.length

def readPair (past : Nat → UInt8) (payload : List UInt8) : Reading :=
  let size := (byteAt past payload 0).toNat
  let first := copied past payload 1 size
  let next := (byteAt past payload (1 + size)).toNat
  { first := first
    second := copied past payload (1 + size + 1) next
    reads := 0 :: (List.range' 1 size ++ (1 + size) :: List.range' (1 + size + 1) next) }

-- A room code of six bytes, and a password where there is more.
def readJoin (past : Nat → UInt8) (payload : List UInt8) : Reading :=
  let left := payload.length - 6
  { first := copied past payload 0 6
    second := if payload.length > 6 then copied past payload 6 left else []
    reads := List.range' 0 6 ++ if payload.length > 6 then List.range' 6 left else [] }

-- The six bytes go behind the end of an empty string, which stays empty.
def readLeave : Reading := ⟨[],[],List.range' 0 6⟩

def StartsWith (payload first second : List UInt8) : Prop := first.length < 256 ∧ second.length < 256 ∧
  ∃ rest, payload = UInt8.ofNat first.length :: (first ++ UInt8.ofNat second.length :: (second ++ rest))

def spelled (first second : List UInt8) : List UInt8 :=
  UInt8.ofNat first.length :: (first ++ UInt8.ofNat second.length :: second)

section Reads
variable {past : Nat → UInt8} {payload first second : List UInt8}

theorem byteAt_inside {place : Nat} (inside : place < payload.length) : byteAt past payload place = payload.getD place 0 := by
  rw [byteAt,List.getD_eq_getElem _ _ inside,List.getD_eq_getElem _ _ inside]

theorem copied_inside {start size : Nat} (inside : start + size ≤ payload.length) :
    copied past payload start size = (payload.drop start).take size := by
  apply List.ext_getElem
  · rw [copied,List.length_map,List.length_range,List.length_take,List.length_drop]
    omega
  · intro i here there
    rw [copied,List.length_map,List.length_range] at here
    have place : start + i < payload.length := by omega
    simp [copied,byteAt_inside place,place]

theorem readPair_short (past : Nat → UInt8) (payload : List UInt8) :
    (readPair past payload).first.length ≤ 255 ∧ (readPair past payload).second.length ≤ 255 := by
  have size (start : Nat) (byte : UInt8) : (copied past payload start byte.toNat).length ≤ 255 := by
    have bound := UInt8.toNat_lt byte
    rw [copied,List.length_map,List.length_range]
    omega
  exact ⟨size _ _,size _ _⟩

theorem size_toNat {size : Nat} (small : size < 256) : (UInt8.ofNat size).toNat = size := UInt8.toNat_ofNat_of_lt' small

theorem spelled_starts (one : first.length < 256) (two : second.length < 256) :
    StartsWith (spelled first second) first second := ⟨one,two,[],by rw [List.append_nil]; rfl⟩

theorem startsWith_filled (starts : StartsWith payload first second) : payload ≠ [] := by
  obtain ⟨-,-,rest,rfl⟩ := starts
  exact List.cons_ne_nil _ _

variable (past) in
theorem startsWith_inside (starts : StartsWith payload first second) :
    byteAt past payload 0 = UInt8.ofNat first.length ∧ byteAt past payload (1 + first.length) = UInt8.ofNat second.length ∧
      2 + first.length + second.length ≤ payload.length ∧ (payload.drop 1).take first.length = first ∧
      (payload.drop (1 + first.length + 1)).take second.length = second := by
  obtain ⟨-,-,rest,rfl⟩ := starts
  have after : 1 + first.length + 1 = first.length + 2 := by omega
  refine ⟨rfl,?_,?_,?_,?_⟩
  · rw [byteAt_inside (by simp; omega),Nat.add_comm]
    simp
  · simp; omega
  · simp
  · rw [after,List.drop_succ_cons,List.drop_length_add_append 1]
    simp

variable (past) in
theorem readPair_reads (starts : StartsWith payload first second) : (readPair past payload).first = first ∧
    (readPair past payload).second = second ∧ (readPair past payload).inside payload := by
  obtain ⟨one,two,long,name,word⟩ := startsWith_inside past starts
  have size : (byteAt past payload 0).toNat = first.length := by rw [one,size_toNat starts.1]
  have next : (byteAt past payload (1 + first.length)).toNat = second.length := by rw [two,size_toNat starts.2.1]
  unfold readPair
  dsimp only
  rw [size,next,copied_inside (by omega),copied_inside (by omega),name,word]
  refine ⟨rfl,rfl,?_⟩
  intro place member
  simp only [List.mem_cons,List.mem_append,List.mem_range'_1] at member
  omega

theorem readPair_inside (inside : (readPair past payload).inside payload) :
    StartsWith payload (readPair past payload).first (readPair past payload).second := by
  unfold Reading.inside readPair at inside
  unfold readPair
  dsimp only at inside ⊢
  generalize head : byteAt past payload 0 = size at inside ⊢
  generalize middle : byteAt past payload (1 + size.toNat) = next at inside ⊢
  have zero : 0 < payload.length := inside 0 (List.mem_cons_self ..)
  have second_ : 1 + size.toNat < payload.length :=
    inside _ (List.mem_cons_of_mem _ (List.mem_append_right _ (List.mem_cons_self ..)))
  have long : 1 + size.toNat + 1 + next.toNat ≤ payload.length := by
    by_cases none_ : next.toNat = 0
    · omega
    · have last := inside (1 + size.toNat + 1 + (next.toNat - 1)) (List.mem_cons_of_mem _ (List.mem_append_right _
        (List.mem_cons_of_mem _ (List.mem_range'_1.mpr ⟨by omega,by omega⟩))))
      omega
  rw [copied_inside (by omega),copied_inside (by omega)]
  have firstLength : ((payload.drop 1).take size.toNat).length = size.toNat := by
    rw [List.length_take,List.length_drop]; omega
  have secondLength : ((payload.drop (1 + size.toNat + 1)).take next.toNat).length = next.toNat := by
    rw [List.length_take,List.length_drop]; omega
  refine ⟨?_,?_,payload.drop (1 + size.toNat + 1 + next.toNat),?_⟩
  · rw [firstLength]; exact UInt8.toNat_lt size
  · rw [secondLength]; exact UInt8.toNat_lt next
  · rw [firstLength,secondLength,UInt8.ofNat_toNat,UInt8.ofNat_toNat]
    rw [byteAt_inside zero] at head
    rw [byteAt_inside second_] at middle
    -- The payload is cut at the two size bytes and behind the second string.
    have parts (start size : Nat) : payload.drop start = (payload.drop start).take size ++ payload.drop (start + size) := by
      rw [← List.drop_drop,List.take_append_drop]
    have cut : payload.drop (1 + size.toNat) = next :: payload.drop (1 + size.toNat + 1) := by
      rw [List.drop_eq_getElem_cons second_,← middle,List.getD_eq_getElem _ _ second_]
    have start : payload = size :: payload.drop 1 := by
      have whole := List.drop_eq_getElem_cons zero
      rw [List.drop_zero,Nat.zero_add] at whole
      rw [← head,List.getD_eq_getElem _ _ zero]
      exact whole
    rw [← parts,← cut,← parts]
    exact start

theorem readJoin_inside : (readJoin past payload).inside payload ↔ 6 ≤ payload.length := by
  refine ⟨?_,?_⟩
  · intro inside
    have last := inside 5 (List.mem_append_left _ (List.mem_range'_1.mpr ⟨by omega,by omega⟩))
    omega
  · intro long place member
    simp only [readJoin,List.mem_append,List.mem_range'_1] at member
    rcases member with code | password
    · omega
    · split at password
      · rw [List.mem_range'_1] at password
        omega
      · cases password

variable (past) in
theorem readJoin_code (long : 6 ≤ payload.length) : (readJoin past payload).first = payload.take 6 := by
  rw [readJoin,copied_inside (by omega),List.drop_zero]

theorem readLeave_inside : readLeave.inside payload ↔ 6 ≤ payload.length := by
  refine ⟨?_,?_⟩
  · intro inside
    have last := inside 5 (List.mem_range'_1.mpr ⟨by omega,by omega⟩)
    omega
  · intro long place member
    rw [readLeave,List.mem_range'_1] at member
    omega

end Reads
end GameServer.RequestPayload
