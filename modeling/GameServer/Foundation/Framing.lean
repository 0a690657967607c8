import Mathlib.Data.List.Basic

namespace Foundation

-- A self-delimiting framing of streams: `size` finds the frame a stream starts
-- with once all of it is there, and looks at nothing behind that frame.
structure Framing (α : Type*) where
  size : List α → Option Nat
  positive : ∀ {stream n}, size stream = some n → 0 < n
  inside : ∀ {stream n}, size stream = some n → n ≤ stream.length
  stable : ∀ {stream n}, size stream = some n → ∀ more, size (stream ++ more) = some n
  contained : ∀ {stream n}, size stream = some n → size (stream.take n) = some n

namespace Framing
variable {α : Type*} (F : Framing α)

def IsFrame (frame : List α) : Prop := F.size frame = some frame.length

-- The complete frames at the front of a stream, and what is left behind them.
def split (stream : List α) : List (List α) × List α :=
  match _found : F.size stream with
  | none => ([],stream)
  | some n =>
    let rest := split (stream.drop n)
    (stream.take n :: rest.1,rest.2)
termination_by stream.length
decreasing_by
  have positive := F.positive _found
  have inside := F.inside _found
  rw [List.length_drop]
  omega

variable {F}

theorem split_none {stream : List α} (unfinished : F.size stream = none) : F.split stream = ([],stream) := by
  rw [split]
  split
  · rfl
  · rename_i n found
    rw [unfinished] at found
    cases found

theorem split_some {stream : List α} {n : Nat} (found : F.size stream = some n) :
    F.split stream = (stream.take n :: (F.split (stream.drop n)).1,(F.split (stream.drop n)).2) := by
  rw [split]
  split
  · rename_i unfinished
    rw [found] at unfinished
    cases unfinished
  · rename_i m other
    rw [found] at other
    cases other
    rfl

theorem split_frame {frame : List α} (valid : F.IsFrame frame) (more : List α) :
    F.split (frame ++ more) = (frame :: (F.split more).1,(F.split more).2) := by
  rw [split_some (F.stable valid more),List.take_left,List.drop_left]

theorem split_induction {motive : List α → Prop}
    (unfinished : ∀ stream, F.size stream = none → motive stream)
    (framed : ∀ frame more, F.IsFrame frame → motive more → motive (frame ++ more))
    (stream : List α) : motive stream := by
  generalize bound : stream.length = fuel
  induction fuel using Nat.strongRecOn generalizing stream with
  | ind fuel ih =>
    subst bound
    cases found : F.size stream with
    | none => exact unfinished stream found
    | some n =>
      have positive := F.positive found
      have inside := F.inside found
      have valid : F.IsFrame (stream.take n) := by
        rw [IsFrame,List.length_take,Nat.min_eq_left inside]
        exact F.contained found
      have rest := ih (stream.drop n).length (by rw [List.length_drop]; omega) (stream.drop n) rfl
      have whole := framed (stream.take n) (stream.drop n) valid rest
      rwa [List.take_append_drop] at whole

theorem split_flatten (stream : List α) : (F.split stream).1.flatten ++ (F.split stream).2 = stream := by
  induction stream using split_induction (F := F) with
  | unfinished stream unfinished => rw [split_none unfinished]; rfl
  | framed frame more valid ih => rw [split_frame valid,List.flatten_cons,List.append_assoc,ih]

theorem split_drop {stream : List α} {before after : List (List α)} (cut : (F.split stream).1 = before ++ after) :
    stream.drop before.flatten.length = after.flatten ++ (F.split stream).2 := by
  have whole := split_flatten (F := F) stream
  rw [cut,List.flatten_append,List.append_assoc] at whole
  have dropped := congrArg (List.drop before.flatten.length) whole
  rw [List.drop_left] at dropped
  exact dropped.symm

theorem split_rest (stream : List α) : stream.drop (F.split stream).1.flatten.length = (F.split stream).2 := by
  have none_ : (F.split stream).1 = (F.split stream).1 ++ [] := (List.append_nil _).symm
  exact split_drop none_

theorem split_isFrame (stream : List α) : ∀ frame ∈ (F.split stream).1, F.IsFrame frame := by
  induction stream using split_induction (F := F) with
  | unfinished stream unfinished => rw [split_none unfinished]; simp
  | framed frame more valid ih =>
    rw [split_frame valid]
    intro other member
    rcases List.mem_cons.mp member with rfl | later
    · exact valid
    · exact ih other later

theorem split_unfinished (stream : List α) : F.size (F.split stream).2 = none := by
  induction stream using split_induction (F := F) with
  | unfinished stream unfinished => rw [split_none unfinished]; exact unfinished
  | framed frame more valid ih => rw [split_frame valid]; exact ih

theorem split_frames {frames : List (List α)} (valid : ∀ frame ∈ frames, F.IsFrame frame) (more : List α) :
    F.split (frames.flatten ++ more) = (frames ++ (F.split more).1,(F.split more).2) := by
  induction frames with
  | nil => rfl
  | cons frame rest ih =>
    have first : F.IsFrame frame := valid frame (by simp)
    have later : ∀ frame ∈ rest, F.IsFrame frame := fun other member => valid other (by simp [member])
    rw [List.flatten_cons,List.append_assoc,split_frame first,ih later]
    rfl

theorem split_unique {frames : List (List α)} {tail : List α} (valid : ∀ frame ∈ frames, F.IsFrame frame)
    (unfinished : F.size tail = none) : F.split (frames.flatten ++ tail) = (frames,tail) := by
  rw [split_frames valid,split_none unfinished,List.append_nil]

theorem split_append (stream more : List α) :
    F.split (stream ++ more) =
      ((F.split stream).1 ++ (F.split ((F.split stream).2 ++ more)).1,(F.split ((F.split stream).2 ++ more)).2) := by
  have whole : stream ++ more = (F.split stream).1.flatten ++ ((F.split stream).2 ++ more) := by
    rw [← List.append_assoc,split_flatten]
  rw [whole,split_frames (split_isFrame stream)]

theorem size_nil : F.size [] = none := by
  cases found : F.size [] with
  | none => rfl
  | some n =>
    have positive := F.positive found
    have inside := F.inside found
    rw [List.length_nil] at inside
    omega

theorem split_prefix {frames : List (List α)} (valid : ∀ frame ∈ frames, F.IsFrame frame) {stream more : List α}
    (arriving : stream ++ more = frames.flatten) :
    ∃ rest, frames = (F.split stream).1 ++ rest ∧ (F.split stream).2 ++ more = rest.flatten := by
  have whole := split_unique valid size_nil
  rw [List.append_nil,← arriving,split_append] at whole
  obtain ⟨same,empty⟩ := Prod.mk.inj whole
  refine ⟨_,same.symm,?_⟩
  have parts := split_flatten (F := F) ((F.split stream).2 ++ more)
  rw [empty,List.append_nil] at parts
  exact parts.symm

theorem unfinished_short {tail more after frame : List α} (unfinished : F.size tail = none)
    (valid : F.IsFrame frame) (same : tail ++ more = frame ++ after) : tail.length < frame.length := by
  by_cases long : frame.length ≤ tail.length
  · have front : frame <+: tail :=
      List.prefix_of_prefix_length_le (List.prefix_append frame after) (same ▸ List.prefix_append tail more) long
    obtain ⟨extra,rfl⟩ := front
    rw [F.stable valid extra] at unfinished
    cases unfinished
  · omega

-- Some chunk completes a frame and yet ends `margin` or more into a later
-- frame that it does not complete; `held` is what came before the chunks.
def LateCut (margin : Nat) (frames : List (List α)) (held : Nat) (chunks : List (List α)) : Prop :=
  ∃ before chunk after earlier frame later, chunks = before ++ chunk :: after ∧
    frames = earlier ++ frame :: later ∧
    held + before.flatten.length < earlier.flatten.length ∧
    earlier.flatten.length + margin ≤ held + (before ++ [chunk]).flatten.length ∧
    held + (before ++ [chunk]).flatten.length < (earlier ++ [frame]).flatten.length

theorem lateCut_nil {margin held : Nat} {frames : List (List α)} : ¬ LateCut margin frames held [] := by
  intro late
  obtain ⟨before,chunk,after,_,_,_,split,_⟩ := late
  cases before <;> cases split

theorem prefix_unique {whole rest earlier later : List (List α)} {frame tail : List α}
    (same : whole ++ rest = earlier ++ frame :: later)
    (short : ∀ next others, rest = next :: others → tail.length < next.length)
    (low : earlier.flatten.length ≤ whole.flatten.length + tail.length)
    (high : whole.flatten.length + tail.length < (earlier ++ [frame]).flatten.length) : whole = earlier := by
  rcases List.append_eq_append_iff.mp same with ⟨between,left,right⟩ | ⟨between,left,right⟩
  · cases between with
    | nil => simpa using left.symm
    | cons next others =>
      have bound := short next (others ++ frame :: later) right
      rw [left] at low
      simp only [List.flatten_append,List.flatten_cons,List.length_append] at low
      omega
  · cases between with
    | nil => simpa using left
    | cons next others =>
      obtain ⟨rfl,_⟩ := List.cons.inj right
      rw [left] at high
      simp only [List.flatten_append,List.flatten_cons,List.flatten_nil,List.length_append,List.length_nil] at high
      omega

section LateCuts
variable {margin : Nat} {frames rest : List (List α)} {held chunk : List α} {chunks : List (List α)}

theorem held_short (valid : ∀ frame ∈ frames, F.IsFrame frame) (unfinished : F.size held = none)
    {more : List α} (arriving : held ++ more = frames.flatten) {whole : List (List α)}
    (parts : frames = whole ++ rest) (some_ : whole ≠ []) : held.length < whole.flatten.length := by
  obtain ⟨first,others,rfl⟩ := List.exists_cons_of_ne_nil some_
  rw [List.cons_append] at parts
  rw [parts,List.flatten_cons] at arriving
  have bound := unfinished_short unfinished (valid first (by simp [parts])) arriving
  rw [List.flatten_cons,List.length_append]
  omega

theorem lateCut_cons (valid : ∀ frame ∈ frames, F.IsFrame frame) (unfinished : F.size held = none)
    (positive : 0 < margin) (arriving : held ++ (chunk :: chunks).flatten = frames.flatten)
    (parts : frames = (F.split (held ++ chunk)).1 ++ rest)
    (remaining : (F.split (held ++ chunk)).2 ++ chunks.flatten = rest.flatten) :
    LateCut margin frames held.length (chunk :: chunks) ↔
      ((F.split (held ++ chunk)).1 ≠ [] ∧ margin ≤ (F.split (held ++ chunk)).2.length) ∨
        LateCut margin rest (F.split (held ++ chunk)).2.length chunks := by
  have total := congrArg List.length (split_flatten (F := F) (held ++ chunk))
  have tailUnfinished := split_unfinished (F := F) (held ++ chunk)
  revert parts remaining total tailUnfinished
  generalize (F.split (held ++ chunk)).1 = whole
  generalize (F.split (held ++ chunk)).2 = tail
  intro parts remaining total tailUnfinished
  rw [List.length_append,List.length_append] at total
  have short : ∀ next others, rest = next :: others → tail.length < next.length := by
    intro next others same
    rw [same,List.flatten_cons] at remaining
    exact unfinished_short tailUnfinished (valid next (by simp [parts,same])) remaining
  refine ⟨?_,?_⟩
  · intro late
    obtain ⟨before,cut,after,earlier,frame,later,place,order,inside,low,high⟩ := late
    rw [parts] at order
    cases before with
    | nil =>
      obtain ⟨rfl,_⟩ := List.cons.inj place
      simp only [List.nil_append,List.flatten_nil,List.flatten_cons,List.append_nil,List.length_nil] at inside low high
      have same := prefix_unique order short (by omega) (by omega)
      subst same
      refine Or.inl ⟨?_,by omega⟩
      intro none_
      rw [none_,List.flatten_nil,List.length_nil] at inside
      omega
    | cons first before =>
      obtain ⟨rfl,others⟩ := List.cons.inj place
      simp only [List.cons_append,List.flatten_cons,List.flatten_append,List.length_append] at inside low high
      rcases List.append_eq_append_iff.mp order with ⟨between,left,right⟩ | ⟨between,left,right⟩
      · rw [left] at inside low high
        simp only [List.flatten_append,List.length_append] at inside low high
        refine Or.inr ⟨before,cut,after,between,frame,later,others,right,by omega,?_,?_⟩ <;>
          simp only [List.flatten_append,List.flatten_cons,List.length_append] <;> omega
      · rw [left,List.flatten_append,List.length_append] at total
        omega
  · intro late
    rcases late with ⟨some_,past⟩ | ⟨before,cut,after,earlier,frame,later,place,order,inside,low,high⟩
    · have heldBound := held_short valid unfinished arriving parts some_
      cases rest with
      | nil =>
        have empty := congrArg List.length remaining
        rw [List.length_append,List.flatten_nil,List.length_nil] at empty
        omega
      | cons next others =>
        have bound := short next others rfl
        refine ⟨[],chunk,chunks,whole,next,others,rfl,parts,?_,?_,?_⟩ <;>
          simp only [List.nil_append,List.flatten_nil,List.flatten_cons,List.flatten_append,List.append_nil,
            List.length_append,List.length_nil] <;> omega
    · subst place
      simp only [List.flatten_append,List.flatten_cons,List.length_append] at inside low high
      refine ⟨chunk :: before,cut,after,whole ++ earlier,frame,later,rfl,?_,?_,?_,?_⟩
      · rw [parts,order,List.append_assoc]
      all_goals
        simp only [List.cons_append,List.flatten_append,List.flatten_cons,List.length_append]
        omega

end LateCuts

end Framing
end Foundation
