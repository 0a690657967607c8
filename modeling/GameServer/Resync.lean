import GameServer.DecoderLoop

namespace GameServer.MTcpCodec
open Foundation

def MagicAt (bytes : List UInt8) (place : Nat) : Prop := (bytes.drop place).take 4 = magicBytes

instance (bytes : List UInt8) (place : Nat) : Decidable (MagicAt bytes place) := inferInstanceAs (Decidable (_ = _))

def EndsInMagic (input : List UInt8) : Prop := ∃ n, 0 < n ∧ n < 4 ∧ n ≤ input.length ∧
  input.drop (input.length - n) = magicBytes.take n

-- Whatever comes next, no magic starts among the bytes the exit at this position throws away.
def KeepsMagic (past : Nat → UInt8) (input : List UInt8) (position : Nat) : Prop := ∀ more place,
  position < place → place < (decodeSync past input).costOffset → ¬ MagicAt (input ++ more) place

section Searches
variable {input bytes more : List UInt8} {position place skipped : Nat}

theorem magicAt_inside (found : MagicAt bytes place) : place + 4 ≤ bytes.length := by
  have size := congrArg List.length found
  have four : magicBytes.length = 4 := rfl
  rw [four,List.length_take,List.length_drop] at size
  omega

theorem magicAt_append (inside : place + 4 ≤ bytes.length) : MagicAt (bytes ++ more) place ↔ MagicAt bytes place := by
  unfold MagicAt
  rw [List.drop_append_of_le_length (by omega),List.take_append_of_le_length (by rw [List.length_drop]; omega)]

theorem magicAt_drop (start : Nat) : MagicAt (bytes.drop start) place ↔ MagicAt bytes (start + place) := by
  unfold MagicAt
  rw [List.drop_drop]

theorem magicAt_cons (byte : UInt8) : MagicAt (byte :: bytes) (place + 1) ↔ MagicAt bytes place := Iff.rfl

theorem scanMagic_some (found : scanMagic bytes = some skipped) :
    MagicAt bytes skipped ∧ ∀ earlier < skipped, ¬ MagicAt bytes earlier := by
  induction bytes generalizing skipped with
  | nil => cases found
  | cons byte rest ih =>
    rw [scanMagic] at found
    split at found
    · rename_i here
      cases found
      exact ⟨here,fun earlier before => absurd before (Nat.not_lt_zero earlier)⟩
    · rename_i other
      obtain ⟨n,later,rfl⟩ := Option.map_eq_some_iff.mp found
      obtain ⟨there,none_⟩ := ih later
      refine ⟨there,?_⟩
      intro earlier before
      cases earlier with
      | zero => exact other
      | succ earlier =>
        rw [magicAt_cons]
        exact none_ earlier (by omega)

theorem scanMagic_none (missing : scanMagic bytes = none) (place : Nat) : ¬ MagicAt bytes place := by
  induction bytes generalizing place with
  | nil =>
    intro found
    have inside := magicAt_inside found
    rw [List.length_nil] at inside
    omega
  | cons byte rest ih =>
    rw [scanMagic] at missing
    split at missing
    · cases missing
    · rename_i other
      cases place with
      | zero => exact other
      | succ place =>
        rw [magicAt_cons]
        exact ih (Option.map_eq_none_iff.mp missing) place

theorem nextMagic_cases (room : position + protoHeaderSize ≤ input.length) :
    (position < findNextMagicOffset input (position + 1) ∧ MagicAt input (findNextMagicOffset input (position + 1)) ∧
        ∀ place, position < place → place < findNextMagicOffset input (position + 1) → ¬ MagicAt input place) ∨
      (findNextMagicOffset input (position + 1) = input.length ∧ ∀ place, position < place → ¬ MagicAt input place) := by
  have header : protoHeaderSize = 26 := rfl
  have behind (place : Nat) (after : position < place) :
      MagicAt input place ↔ MagicAt (input.drop (position + 1)) (place - (position + 1)) := by
    rw [magicAt_drop,Nat.add_sub_cancel' after]
  unfold findNextMagicOffset
  rw [if_neg (by omega)]
  cases scanned : scanMagic (input.drop (position + 1)) with
  | some skipped =>
    obtain ⟨here,none_⟩ := scanMagic_some scanned
    refine Or.inl ⟨by dsimp only; omega,(magicAt_drop _).mp here,?_⟩
    intro place after before
    dsimp only at before
    rw [behind place after]
    exact none_ _ (by omega)
  | none =>
    refine Or.inr ⟨rfl,?_⟩
    intro place after
    rw [behind place after]
    exact scanMagic_none scanned _

theorem straddling_ends (late : input.length < place + 4) (before : place < input.length) (found : MagicAt (input ++ more) place) :
    EndsInMagic input := by
  refine ⟨input.length - place,by omega,by omega,by omega,?_⟩
  have start := congrArg (List.take (input.length - place)) found
  rw [List.take_take,Nat.min_eq_left (by omega),List.drop_append_of_le_length (by omega),
    List.take_append_of_le_length (by rw [List.length_drop]),List.take_of_length_le (by rw [List.length_drop])] at start
  rw [Nat.sub_sub_self (by omega)]
  exact start

theorem ends_straddling {n : Nat} (few : n < 4) (long : n ≤ input.length)
    (ends_ : input.drop (input.length - n) = magicBytes.take n) : MagicAt (input ++ magicBytes.drop n) (input.length - n) := by
  have four : magicBytes.length = 4 := rfl
  unfold MagicAt
  rw [List.drop_append_of_le_length (by omega),ends_,List.take_append_drop,List.take_of_length_le (by rw [four])]

-- A search that finds nothing gives up the whole buffer, and with it the start of a
-- magic that has not come in completely.
theorem resync_exact (past : Nat → UInt8) (input : List UInt8) (position : Nat) (bad : BadMagicAt input position) :
    KeepsMagic past input position ↔ (∃ place > position, MagicAt input place) ∨ ¬ EndsInMagic input := by
  have room := bad.room
  have header : protoHeaderSize = 26 := rfl
  unfold KeepsMagic
  rw [badMagic_cost bad]
  rcases nextMagic_cases room with ⟨after,here,first⟩ | ⟨all,none_⟩
  · refine iff_of_true ?_ (Or.inl ⟨_,after,here⟩)
    intro more place later before found
    have inside := magicAt_inside here
    exact first place later before ((magicAt_append (by omega)).mp found)
  · rw [all]
    refine ⟨?_,?_⟩
    · intro keeps
      apply Or.inr
      rintro ⟨n,some_,few,long,ends_⟩
      exact keeps (magicBytes.drop n) (input.length - n) (by omega) (by omega) (ends_straddling few long ends_)
    · intro either more place later before found
      have clear : ¬ EndsInMagic input := either.resolve_left fun ⟨other,after,here⟩ => none_ other after here
      by_cases inside : place + 4 ≤ input.length
      · exact none_ place later ((magicAt_append inside).mp found)
      · exact clear (straddling_ends (by omega) before found)

end Searches

def junk (last : List UInt8) : List UInt8 := List.replicate 26 0 ++ last

theorem junk_badMagic (last : List UInt8) : BadMagicAt (junk last) 0 := by
  refine ⟨.start,?_,?_⟩
  · rw [junk,List.length_append,List.length_replicate]
    exact Nat.le_add_right _ _
  · have whole : protoHeaderSize ≤ (List.replicate 26 (0 : UInt8)).length := Nat.le_refl 26
    have zeros : headerAt (junk last) 0 = ProtoHeader.ofBytes (List.replicate 26 0) := ProtoHeader.ofBytes_append whole last
    rw [zeros]
    decide +kernel

theorem junk_passed : KeepsMagic (fun _ => 0) (junk [0x48,0x12,0x31,0x23]) 0 :=
  (resync_exact _ _ 0 (junk_badMagic _)).mpr (Or.inl ⟨26,by decide,by decide⟩)

-- The first byte of a frame that is still coming in goes with the junk before it.
theorem half_magic_lost : BadMagicAt (junk [0x48]) 0 ∧ ¬ KeepsMagic (fun _ => 0) (junk [0x48]) 0 := by
  refine ⟨junk_badMagic _,?_⟩
  intro keeps
  have cost : (decodeSync (fun _ => 0) (junk [0x48])).costOffset = 27 := by decide +kernel
  exact keeps [0x12,0x31,0x23] 26 (by decide) (by rw [cost]; decide) (by decide)

end GameServer.MTcpCodec
