import Mathlib.Data.List.Sort
import Mathlib.Data.Nat.Digits.Defs

namespace Foundation

-- JSON values as far as messages are made of them: numbers are unsigned words,
-- strings and keys are bytes that need not be valid text.
inductive Json where
  | null
  | number (value : UInt64)
  | string (text : List UInt8)
  | array (items : List Json)
  | object (fields : List (List UInt8 × Json))

namespace Json

def ValidText (text : List UInt8) : Prop := text.toByteArray.IsValidUTF8

instance (text : List UInt8) : Decidable (ValidText text) := inferInstanceAs (Decidable (ByteArray.IsValidUTF8 _))

mutual

-- Every string and every key is valid UTF-8.
def spoken : Json → Bool
  | .null => true
  | .number _ => true
  | .string text => decide (ValidText text)
  | .array items => spokenItems items
  | .object fields => spokenFields fields

def spokenItems : List Json → Bool
  | [] => true
  | item :: rest => item.spoken && spokenItems rest

def spokenFields : List (List UInt8 × Json) → Bool
  | [] => true
  | (key,value) :: rest => decide (ValidText key) && value.spoken && spokenFields rest

end

mutual

def bulk : Json → Nat
  | .null => 4
  | .number _ => 20
  | .string text => 6 * text.length + 2
  | .array items => bulkItems items + 2
  | .object fields => bulkFields fields + 2

def bulkItems : List Json → Nat
  | [] => 0
  | item :: rest => item.bulk + 1 + bulkItems rest

def bulkFields : List (List UInt8 × Json) → Nat
  | [] => 0
  | (key,value) :: rest => 6 * key.length + 3 + value.bulk + 1 + bulkFields rest

end

theorem spokenItems_iff {items : List Json} : spokenItems items = true ↔ ∀ item ∈ items, item.spoken = true := by
  induction items with
  | nil => simp [spokenItems]
  | cons item rest ih => simp [spokenItems,ih]

theorem bulkItems_le {items : List Json} {bound : Nat} (small : ∀ item ∈ items, item.bulk ≤ bound) :
    bulkItems items ≤ items.length * (bound + 1) := by
  induction items with
  | nil => exact Nat.zero_le _
  | cons item rest ih =>
    have first := small item (List.mem_cons_self ..)
    have others := ih fun other member => small other (List.mem_cons_of_mem _ member)
    rw [bulkItems,List.length_cons,Nat.succ_mul]
    omega

theorem bulkFields_le {fields : List (List UInt8 × Json)} {b : Nat} (short : ∀ field ∈ fields, field.1.length ≤ b) :
    bulkFields fields ≤ fields.length * (6 * b + 4) + (fields.map fun field => field.2.bulk).sum := by
  induction fields with
  | nil => exact Nat.zero_le _
  | cons field rest ih =>
    obtain ⟨key,value⟩ := field
    have first := short (key,value) (List.mem_cons_self ..)
    have others := ih fun other member => short other (List.mem_cons_of_mem _ member)
    rw [bulkFields,List.length_cons,List.map_cons,List.sum_cons,Nat.add_mul rest.length 1]
    dsimp only at first ⊢
    omega

theorem object_bulk {fields : List (List UInt8 × Json)} {b total : Nat} (short : ∀ field ∈ fields, field.1.length ≤ b)
    (cost : fields.length * (6 * b + 4) + (fields.map fun field => field.2.bulk).sum + 2 ≤ total) :
    (Json.object fields).bulk ≤ total := by
  have inside := bulkFields_le short
  rw [bulk]
  omega

theorem validText_append {first second : List UInt8} (one : ValidText first) (two : ValidText second) :
    ValidText (first ++ second) := by
  unfold ValidText
  rw [List.toByteArray_append]
  exact one.append two

theorem ascii_valid : ∀ byte : Fin 128, ValidText [UInt8.ofNat byte.val] := by decide +kernel

theorem validText_ascii {text : List UInt8} (ascii : ∀ byte ∈ text, byte < 128) : ValidText text := by
  induction text with
  | nil => exact ByteArray.isValidUTF8_empty
  | cons byte rest ih =>
    have small : byte.toNat < 128 := UInt8.lt_iff_toNat_lt.mp (ascii byte (List.mem_cons_self ..))
    have first := ascii_valid ⟨byte.toNat,small⟩
    rw [UInt8.ofNat_toNat] at first
    exact validText_append first (ih fun other member => ascii other (List.mem_cons_of_mem _ member))

theorem bytes_toList (bytes : ByteArray) : bytes.toList = bytes.data.toList := by
  have loop (left : Nat) : ∀ place taken, bytes.size - place = left →
      ByteArray.toList.loop bytes place taken = taken.reverse ++ bytes.data.toList.drop place := by
    induction left with
    | zero =>
      intro place taken none_
      rw [ByteArray.toList.loop,if_neg (by omega),List.drop_eq_nil_of_le,List.append_nil]
      rw [Array.length_toList]
      exact Nat.sub_eq_zero_iff_le.mp none_
    | succ left ih =>
      intro place taken some_
      have inside : place < bytes.size := by omega
      have here : place < bytes.data.toList.length := by rw [Array.length_toList]; exact inside
      have read : bytes.get! place = bytes.data.toList.get ⟨place,here⟩ := getElem!_pos bytes.data place inside
      rw [ByteArray.toList.loop,if_pos inside,ih (place + 1) _ (by omega),List.drop_eq_getElem_cons here,
        List.reverse_cons,List.append_assoc,read]
      rfl
  rw [ByteArray.toList,loop _ 0 [] rfl]
  rfl

theorem utf8_text (text : String) : text.toUTF8.toList = text.toList.flatMap String.utf8EncodeChar := by
  have encoded : text.toByteArray = (text.toList.flatMap String.utf8EncodeChar).toByteArray :=
    (congrArg String.toByteArray (String.ofList_toList (s := text))).symm
  rw [bytes_toList,String.toUTF8_eq_toByteArray,encoded,List.toList_data_toByteArray]

theorem validText_utf8 (text : String) : ValidText text.toUTF8.toList := by
  have encoded : text.toUTF8.toList.toByteArray = text.toList.utf8Encode := by rw [utf8_text]; rfl
  unfold ValidText
  rw [encoded]
  exact ByteArray.isValidUTF8_utf8Encode

theorem utf8_length (text : String) : text.toUTF8.toList.length ≤ 4 * text.length := by
  have bound (chars : List Char) : (chars.flatMap String.utf8EncodeChar).length ≤ 4 * chars.length := by
    induction chars with
    | nil => exact Nat.zero_le _
    | cons first rest ih =>
      have width := Char.utf8Size_le_four first
      rw [List.flatMap_cons,List.length_append,String.length_utf8EncodeChar,List.length_cons]
      omega
  rw [utf8_text,← String.length_toList]
  exact bound text.toList

def escapeByte (byte : UInt8) : List UInt8 :=
  if byte = 0x22 then [0x5C,0x22]
  else if byte = 0x5C then [0x5C,0x5C]
  else if byte = 0x08 then [0x5C,0x62]
  else if byte = 0x09 then [0x5C,0x74]
  else if byte = 0x0A then [0x5C,0x6E]
  else if byte = 0x0C then [0x5C,0x66]
  else if byte = 0x0D then [0x5C,0x72]
  else if byte < 0x20 then
    let digit := byte % 16
    [0x5C,0x75,0x30,0x30,0x30 + byte / 16,if digit < 10 then 0x30 + digit else 0x57 + digit]
  else [byte]

def quoted (text : List UInt8) : List UInt8 := 0x22 :: (text.flatMap escapeByte ++ [0x22])

def digits (value : Nat) : List UInt8 := (Nat.toDigits 10 value).map fun digit => UInt8.ofNat digit.toNat

-- Members are kept in the order of their keys.
def keyOrder (one two : List UInt8 × List UInt8) : Prop := one.1 ≤ two.1

instance (one two : List UInt8 × List UInt8) : Decidable (keyOrder one two) := inferInstanceAs (Decidable (_ ≤ _))

def commas : List (List UInt8) → List UInt8
  | [] => []
  | [text] => text
  | text :: rest => text ++ 0x2C :: commas rest

def memberText (member : List UInt8 × List UInt8) : List UInt8 := quoted member.1 ++ 0x3A :: member.2

mutual

def compactText : Json → List UInt8
  | .null => [0x6E,0x75,0x6C,0x6C]
  | .number value => digits value.toNat
  | .string text => quoted text
  | .array items => 0x5B :: (commas (compactItems items) ++ [0x5D])
  | .object fields =>
    let members := (compactFields fields).insertionSort keyOrder
    0x7B :: (commas (members.map memberText) ++ [0x7D])

def compactItems : List Json → List (List UInt8)
  | [] => []
  | item :: rest => item.compactText :: compactItems rest

def compactFields : List (List UInt8 × Json) → List (List UInt8 × List UInt8)
  | [] => []
  | (key,value) :: rest => (key,value.compactText) :: compactFields rest

end

theorem escapeByte_length (byte : UInt8) : (escapeByte byte).length ≤ 6 := by
  unfold escapeByte
  repeat' split
  all_goals simp

theorem quoted_length (text : List UInt8) : (quoted text).length ≤ 6 * text.length + 2 := by
  have escaped : (text.flatMap escapeByte).length ≤ 6 * text.length := by
    induction text with
    | nil => exact Nat.zero_le _
    | cons byte rest ih =>
      have first := escapeByte_length byte
      rw [List.flatMap_cons,List.length_append,List.length_cons]
      omega
  rw [quoted,List.length_cons,List.length_append,List.length_singleton]
  omega

theorem digits_length (value : UInt64) : (digits value.toNat).length ≤ 20 := by
  rw [digits,List.length_map]
  apply Nat.toDigits_length 10 value.toNat 20 (by decide)
  have bound := UInt64.toNat_lt value
  omega

def room (texts : List (List UInt8)) : Nat := (texts.map fun text => text.length + 1).sum

theorem commas_length (texts : List (List UInt8)) : (commas texts).length ≤ room texts := by
  induction texts with
  | nil => exact Nat.zero_le _
  | cons text rest ih =>
    rw [room,List.map_cons,List.sum_cons,← room]
    cases rest with
    | nil => rw [commas]; omega
    | cons other others =>
      change (text ++ 0x2C :: commas (other :: others)).length ≤ _
      rw [List.length_append,List.length_cons]
      omega

theorem sorted_room (members : List (List UInt8 × List UInt8)) :
    room ((members.insertionSort keyOrder).map memberText) = room (members.map memberText) := by
  have same := (List.perm_insertionSort keyOrder members).map memberText
  exact (same.map fun text => text.length + 1).sum_nat

mutual

theorem compactText_length (value : Json) : value.compactText.length ≤ value.bulk := by
  cases value with
  | null => exact Nat.le_refl 4
  | number value => exact digits_length value
  | string text => exact quoted_length text
  | array items =>
    have inside := compactItems_room items
    have between := commas_length (compactItems items)
    rw [compactText,bulk,List.length_cons,List.length_append,List.length_singleton]
    omega
  | object fields =>
    have inside := compactFields_room fields
    have between := commas_length (((compactFields fields).insertionSort keyOrder).map memberText)
    rw [sorted_room] at between
    change (0x7B :: (commas (((compactFields fields).insertionSort keyOrder).map memberText) ++ [0x7D])).length ≤ _
    rw [bulk,List.length_cons,List.length_append,List.length_singleton]
    omega

theorem compactItems_room (items : List Json) : room (compactItems items) ≤ bulkItems items := by
  cases items with
  | nil => exact Nat.le_refl 0
  | cons item rest =>
    have first := compactText_length item
    have others := compactItems_room rest
    rw [compactItems,room,List.map_cons,List.sum_cons,← room,bulkItems]
    omega

theorem compactFields_room (fields : List (List UInt8 × Json)) :
    room ((compactFields fields).map memberText) ≤ bulkFields fields := by
  match fields with
  | [] => exact Nat.le_refl 0
  | (key,value) :: rest =>
    have name := quoted_length key
    have first := compactText_length value
    have others := compactFields_room rest
    rw [compactFields,List.map_cons,room,List.map_cons,List.sum_cons,← room,bulkFields,memberText,List.length_append,
      List.length_cons]
    dsimp only
    omega

end

theorem compactText_ne (value : Json) : value.compactText ≠ [] := by
  cases value with
  | number value =>
    rw [compactText,digits]
    intro empty
    have size := congrArg List.length empty
    rw [List.length_map,List.length_nil] at size
    have some_ : 0 < (Nat.toDigits 10 value.toNat).length := Nat.length_toDigits_pos
    omega
  | _ => simp [compactText,quoted]

end Json

-- The library that turns values into text. No text is a thrown exception, and a
-- text is as long as the compact one, in whatever order it has the members.
structure JsonLibrary where
  dump : Json → Option (List UInt8)
  throws : ∀ value, dump value = none ↔ value.spoken = false
  sized : ∀ value text, dump value = some text → text.length = value.compactText.length

theorem JsonLibrary.bounded (library : JsonLibrary) (value : Json) (text : List UInt8)
    (dumped : library.dump value = some text) : text ≠ [] ∧ text.length ≤ value.bulk := by
  have size := library.sized value text dumped
  refine ⟨?_,by rw [size]; exact Json.compactText_length value⟩
  rintro rfl
  have some_ := List.length_pos_of_ne_nil (Json.compactText_ne value)
  rw [List.length_nil] at size
  omega

namespace Json

def compactDump (value : Json) : Option (List UInt8) := if value.spoken then some value.compactText else none

theorem compactDump_throws (value : Json) : compactDump value = none ↔ value.spoken = false := by
  unfold compactDump
  cases value.spoken <;> simp

theorem compactDump_sized (value : Json) (text : List UInt8) (dumped : compactDump value = some text) :
    text.length = value.compactText.length := by
  unfold compactDump at dumped
  split at dumped
  · cases dumped; rfl
  · cases dumped

-- The library as it writes plain values: no indentation, throwing at invalid UTF-8.
def compact : JsonLibrary := ⟨compactDump,compactDump_throws,compactDump_sized⟩

end Json
end Foundation
