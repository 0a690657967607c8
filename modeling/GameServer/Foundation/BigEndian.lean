import Mathlib.Data.Nat.Digits.Defs

namespace Foundation.BigEndian

def toBytes : Nat → Nat → List UInt8
  | 0,_ => []
  | width+1,value => UInt8.ofNat (value / 256 ^ width) :: toBytes width value

def ofBytes : List UInt8 → Nat
  | [] => 0
  | byte :: rest => byte.toNat * 256 ^ rest.length + ofBytes rest

@[simp] theorem toBytes_length (width value : Nat) : (toBytes width value).length = width := by
  induction width with
  | zero => rfl
  | succ width ih => simp [toBytes,ih]

theorem ofBytes_toBytes (width value : Nat) : ofBytes (toBytes width value) = value % 256 ^ width := by
  induction width with
  | zero => simp [toBytes,ofBytes,Nat.mod_one]
  | succ width ih =>
    have digit : (UInt8.ofNat (value / 256 ^ width)).toNat = value / 256 ^ width % 256 := by simp
    rw [toBytes,ofBytes,toBytes_length,ih,digit,Nat.pow_succ,Nat.mod_mul,Nat.mul_comm]
    omega

theorem ofBytes_digits (bytes : List UInt8) : ofBytes bytes = Nat.ofDigits 256 (bytes.reverse.map UInt8.toNat) := by
  induction bytes with
  | nil => rfl
  | cons byte rest ih =>
    rw [List.reverse_cons,List.map_append,Nat.ofDigits_append,List.length_map,List.length_reverse,ofBytes,ih,
      List.map_singleton,Nat.ofDigits_singleton,Nat.mul_comm,Nat.add_comm]

theorem digits_bound (bytes : List UInt8) : ∀ digit ∈ bytes.reverse.map UInt8.toNat, digit < 256 := by
  intro digit member
  obtain ⟨byte,_,rfl⟩ := List.mem_map.mp member
  exact byte.toNat_lt

theorem ofBytes_lt (bytes : List UInt8) : ofBytes bytes < 256 ^ bytes.length := by
  have bound := Nat.ofDigits_lt_base_pow_length (by decide) (digits_bound bytes)
  rw [List.length_map,List.length_reverse] at bound
  rw [ofBytes_digits]
  exact bound

theorem ofBytes_injective {bytes other : List UInt8} (size : bytes.length = other.length)
    (same : ofBytes bytes = ofBytes other) : bytes = other := by
  have lengths : (bytes.reverse.map UInt8.toNat).length = (other.reverse.map UInt8.toNat).length := by
    rw [List.length_map,List.length_map,List.length_reverse,List.length_reverse,size]
  rw [ofBytes_digits,ofBytes_digits] at same
  have digits := Nat.ofDigits_inj_of_len_eq (by decide) lengths (digits_bound bytes) (digits_bound other) same
  exact List.reverse_inj.mp ((List.map_inj_right fun _ _ equal => UInt8.toNat_inj.mp equal).mp digits)

def field (record : List UInt8) (place width : Nat) : Nat := ofBytes ((record.drop place).take width)

@[simp] theorem field_here (width value : Nat) (after : List UInt8) :
    field (toBytes width value ++ after) 0 width = value % 256 ^ width := by
  rw [field,List.drop_zero,List.take_append_of_le_length (by simp),List.take_of_length_le (by simp),
    ofBytes_toBytes]

theorem field_skip {before : List UInt8} {place : Nat} (passed : before.length ≤ place)
    (after : List UInt8) (width : Nat) :
    field (before ++ after) place width = field after (place - before.length) width := by
  simp [field,List.drop_append,List.drop_of_length_le passed]

@[simp] theorem field_cons (byte : UInt8) (rest : List UInt8) (place width : Nat) :
    field (byte :: rest) (place + 1) width = field rest place width := rfl

theorem field_prefix {record after : List UInt8} {place width : Nat} (inside : place + width ≤ record.length) :
    field (record ++ after) place width = field record place width := by
  rw [field,field,List.drop_append_of_le_length (by omega),
    List.take_append_of_le_length (by rw [List.length_drop]; omega)]

end Foundation.BigEndian
