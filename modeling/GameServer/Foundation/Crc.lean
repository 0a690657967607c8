import Mathlib.Algebra.Field.ZMod
import Mathlib.Data.Nat.Digits.Defs
import Mathlib.RingTheory.AdjoinRoot

namespace Foundation.Crc
open Polynomial

-- The polynomial of the `width` low bits of a word, read from the low end: the
-- lowest bit stands for the highest power.
noncomputable def mirror : Nat → Nat → (ZMod 2)[X]
  | 0,_ => 0
  | width+1,value => (if value.testBit 0 then X ^ width else 0) + mirror width (value / 2)

section Mirrors
variable {width more value other : Nat}

theorem mirror_degree (width value : Nat) : (mirror width value).degree < width := by
  induction width generalizing value with
  | zero => simp [mirror]
  | succ width ih =>
    have low : (if value.testBit 0 then X ^ width else 0 : (ZMod 2)[X]).degree < ((width + 1 : Nat) : WithBot Nat) := by
      split
      · rw [degree_X_pow]
        exact Nat.cast_lt.mpr (Nat.lt_succ_self width)
      · rw [degree_zero]
        exact WithBot.bot_lt_coe _
    have high : (mirror width (value / 2)).degree < ((width + 1 : Nat) : WithBot Nat) :=
      lt_trans (ih (value / 2)) (Nat.cast_lt.mpr (Nat.lt_succ_self width))
    exact lt_of_le_of_lt (degree_add_le _ _) (max_lt low high)

theorem mirror_xor (width value other : Nat) : mirror width (value ^^^ other) = mirror width value + mirror width other := by
  induction width generalizing value other with
  | zero => simp [mirror]
  | succ width ih =>
    have both : (X ^ width + X ^ width : (ZMod 2)[X]) = 0 := CharTwo.add_self_eq_zero _
    rw [mirror,mirror,mirror,Nat.xor_div_two,ih,Nat.testBit_xor]
    cases value.testBit 0 <;> cases other.testBit 0 <;> simp [add_left_comm,← add_assoc,both]

@[simp] theorem mirror_zero (width : Nat) : mirror width 0 = 0 := by
  induction width with
  | zero => rfl
  | succ width ih => simp [mirror,ih]

theorem mirror_append (width more : Nat) {value : Nat} (small : value < 2 ^ width) (other : Nat) :
    mirror (width + more) (value + 2 ^ width * other) = X ^ more * mirror width value + mirror more other := by
  induction width generalizing value with
  | zero =>
    have none_ : value = 0 := by omega
    simp [mirror,none_]
  | succ width ih =>
    have half : (value + 2 ^ (width + 1) * other) / 2 = value / 2 + 2 ^ width * other := by
      rw [Nat.pow_succ,Nat.mul_right_comm,Nat.add_mul_div_right _ _ (by omega)]
    have parity : (value + 2 ^ (width + 1) * other).testBit 0 = value.testBit 0 := by
      rw [Nat.pow_succ,Nat.mul_right_comm,Nat.testBit_zero,Nat.testBit_zero,Nat.add_mul_mod_self_right]
    have smaller : value / 2 < 2 ^ width := by rw [Nat.pow_succ] at small; omega
    have rest := ih smaller
    rw [Nat.add_right_comm,mirror,mirror,half,parity,rest,mul_add,add_assoc]
    split
    · rw [← pow_add,Nat.add_comm more width]
    · simp

theorem mirror_widen (width more : Nat) {value : Nat} (small : value < 2 ^ width) :
    mirror (width + more) value = X ^ more * mirror width value := by
  simpa using mirror_append width more small 0

theorem mirror_injective (small : value < 2 ^ width) (low : other < 2 ^ width) (same : mirror width value = mirror width other) :
    value = other := by
  induction width generalizing value other with
  | zero => omega
  | succ width ih =>
    have first := congrArg (coeff · width) same
    have above (half : Nat) : (mirror width half).coeff width = 0 := coeff_eq_zero_of_degree_lt (mirror_degree _ _)
    have parity : value.testBit 0 = other.testBit 0 := by
      simp only [mirror,coeff_add,above,add_zero] at first
      cases one : value.testBit 0 <;> cases two : other.testBit 0 <;> simp [one,two] at first ⊢
    rw [mirror,mirror,parity] at same
    have smaller : value / 2 < 2 ^ width := by rw [Nat.pow_succ] at small; omega
    have lower : other / 2 < 2 ^ width := by rw [Nat.pow_succ] at low; omega
    have halves := ih smaller lower (add_left_cancel same)
    rw [Nat.testBit_zero,Nat.testBit_zero,decide_eq_decide] at parity
    omega

-- The highest bit stands for the constant term.
theorem mirror_constant (width value : Nat) :
    (mirror (width + 1) value).coeff 0 = if value.testBit width then 1 else 0 := by
  induction width generalizing value with
  | zero => cases bit : value.testBit 0 <;> simp [mirror,bit]
  | succ width ih =>
    have high : (value / 2).testBit width = value.testBit (width + 1) := Nat.testBit_div_two value width
    have low : (if value.testBit 0 then X ^ (width + 1) else 0 : (ZMod 2)[X]).coeff 0 = 0 := by
      split
      · rw [coeff_X_pow,if_neg (Nat.succ_ne_zero width).symm]
      · rfl
    rw [mirror,coeff_add,low,zero_add,ih,high]

end Mirrors

-- A register of `width` bits whose taps are the generator without its leading term, mirrored.
noncomputable def generator (width taps : Nat) : (ZMod 2)[X] := X ^ width + mirror width taps

-- One step of the division on the mirrored register.
def shift (taps value : Nat) : Nat := if value.testBit 0 then value / 2 ^^^ taps else value / 2

-- What remains after an operand of `size` bits has been taken in behind the register.
def Remains (width taps size value operand result : Nat) : Prop :=
  mirror width result = (mirror size operand * X ^ width + mirror width value * X ^ size) %ₘ generator width taps

section Division
variable {width taps size more value operand other result next : Nat}

theorem generator_monic (width taps : Nat) : (generator width taps).Monic := monic_X_pow_add (mirror_degree width taps)

theorem generator_degree (width taps : Nat) : (generator width taps).degree = width := by
  rw [generator,degree_add_eq_left_of_degree_lt,degree_X_pow]
  rw [degree_X_pow]
  exact mirror_degree width taps

-- A register stands for its class modulo the generator.
noncomputable def residue (width taps : Nat) (p : (ZMod 2)[X]) : AdjoinRoot (generator width taps) := AdjoinRoot.mk _ p

theorem residue_small {p q : (ZMod 2)[X]} (small : p.degree < width) (low : q.degree < width)
    (same : residue width taps p = residue width taps q) : p = q := by
  have divides := AdjoinRoot.mk_eq_mk.mp same
  have short : (p - q).degree < (generator width taps).degree := by
    rw [generator_degree]
    exact lt_of_le_of_lt (degree_sub_le p q) (max_lt small low)
  exact sub_eq_zero.mp (eq_zero_of_dvd_of_degree_lt divides short)

theorem remains_iff : Remains width taps size value operand result ↔ residue width taps (mirror width result) =
    residue width taps (mirror size operand * X ^ width + mirror width value * X ^ size) := by
  have kept (p : (ZMod 2)[X]) : residue width taps (p %ₘ generator width taps) = residue width taps p :=
    AdjoinRoot.mk_eq_mk.mpr (dvd_modByMonic_sub p _)
  refine ⟨?_,?_⟩
  · intro remains
    rw [remains,kept]
  · intro same
    have below : ((mirror size operand * X ^ width + mirror width value * X ^ size) %ₘ generator width taps).degree < width := by
      rw [← generator_degree width taps]
      exact degree_modByMonic_lt _ (generator_monic width taps)
    exact residue_small (mirror_degree width result) below (same.trans (kept _).symm)

theorem residue_add (p q : (ZMod 2)[X]) : residue width taps (p + q) = residue width taps p + residue width taps q :=
  map_add _ p q

theorem residue_mul (p q : (ZMod 2)[X]) : residue width taps (p * q) = residue width taps p * residue width taps q :=
  map_mul _ p q

theorem remains_unique (fits : result < 2 ^ width) (low : next < 2 ^ width)
    (one : Remains width taps size value operand result) (two : Remains width taps size value operand next) : result = next :=
  mirror_injective fits low (Eq.trans one (Eq.symm two))

theorem remains_empty (width taps value : Nat) : Remains width taps 0 value 0 value := by
  rw [remains_iff]
  simp

theorem remains_append {low high : Nat} (small : low < 2 ^ size) (first : Remains width taps size value low result)
    (second : Remains width taps more result high next) :
    Remains width taps (size + more) value (low + 2 ^ size * high) next := by
  rw [remains_iff] at first second ⊢
  rw [second,mirror_append size more small]
  simp only [residue_add,residue_mul] at first second ⊢
  rw [first]
  simp only [pow_add,residue_mul]
  ring

theorem shift_residue (fits : value < 2 ^ width) (positive : 0 < width) :
    residue width taps (mirror width (shift taps value)) = residue width taps (X * mirror width value) := by
  obtain ⟨n,rfl⟩ : ∃ n, width = n + 1 := ⟨width - 1,by omega⟩
  have half : value / 2 < 2 ^ n := by rw [Nat.pow_succ] at fits; omega
  have widened := mirror_widen n 1 half
  rw [pow_one] at widened
  have whole : X * mirror (n + 1) value = (if value.testBit 0 then X ^ (n + 1) else 0) + mirror (n + 1) (value / 2) := by
    rw [mirror,widened,mul_add,mul_ite,mul_zero,pow_succ']
  have gone : residue (n + 1) taps (X ^ (n + 1)) = residue (n + 1) taps (mirror (n + 1) taps) := by
    have divides : generator (n + 1) taps ∣ X ^ (n + 1) - mirror (n + 1) taps := by
      rw [CharTwo.sub_eq_add,generator]
    exact AdjoinRoot.mk_eq_mk.mpr divides
  rw [whole,shift]
  split
  · rw [mirror_xor,residue_add,residue_add,gone]
    exact add_comm _ _
  · rw [zero_add]

theorem shift_fits (small : taps < 2 ^ width) (fits : value < 2 ^ width) : shift taps value < 2 ^ width := by
  have half : value / 2 < 2 ^ width := by omega
  unfold shift
  split
  · exact Nat.xor_lt_two_pow half small
  · exact half

theorem shifts_fit (small : taps < 2 ^ width) (fits : value < 2 ^ width) (count : Nat) : (shift taps)^[count] value < 2 ^ width := by
  induction count with
  | zero => exact fits
  | succ count ih =>
    rw [Function.iterate_succ_apply']
    exact shift_fits small ih

theorem shifts_residue (small : taps < 2 ^ width) (fits : value < 2 ^ width) (positive : 0 < width) (count : Nat) :
    residue width taps (mirror width ((shift taps)^[count] value)) = residue width taps (mirror width value * X ^ count) := by
  induction count with
  | zero => simp
  | succ count ih =>
    rw [Function.iterate_succ_apply',shift_residue (shifts_fit small fits count) positive,residue_mul,ih,pow_succ',
      ← residue_mul]
    ring_nf

theorem shifts_remain (small : taps < 2 ^ width) (fits : value < 2 ^ width) (narrow : operand < 2 ^ size) (inside : size ≤ width)
    (positive : 0 < width) : Remains width taps size value operand ((shift taps)^[size] (value ^^^ operand)) := by
  have wide : operand < 2 ^ width := Nat.lt_of_lt_of_le narrow (Nat.pow_le_pow_right (by omega) inside)
  have placed := mirror_widen size (width - size) narrow
  rw [Nat.add_sub_cancel' inside] at placed
  rw [remains_iff,shifts_residue small (Nat.xor_lt_two_pow fits wide) positive,mirror_xor,placed,add_mul,mul_right_comm,
    ← pow_add,Nat.sub_add_cancel inside,add_comm,mul_comm (X ^ width)]

-- With a constant term the generator divides no power of X.
theorem generator_coprime (constant : (mirror width taps).coeff 0 = 1) (positive : 0 < width) (power : Nat) :
    IsCoprime (generator width taps) (X ^ power) := by
  apply IsCoprime.pow_right
  refine ⟨1,-divX (generator width taps),?_⟩
  have one : (generator width taps).coeff 0 = 1 := by
    rw [generator,coeff_add,constant,coeff_X_pow,if_neg (Nat.ne_of_lt positive),zero_add]
  have parts := divX_mul_X_add (generator width taps)
  rw [one,C_1] at parts
  linear_combination -parts

theorem residue_cancel (constant : (mirror width taps).coeff 0 = 1) (positive : 0 < width) {power : Nat} {p q : (ZMod 2)[X]}
    (same : residue width taps (p * X ^ power) = residue width taps (q * X ^ power)) :
    residue width taps p = residue width taps q := by
  have divides := AdjoinRoot.mk_eq_mk.mp same
  rw [← sub_mul] at divides
  exact AdjoinRoot.mk_eq_mk.mpr ((generator_coprime constant positive power).dvd_of_dvd_mul_right divides)

theorem operand_injective (constant : (mirror width taps).coeff 0 = 1) (positive : 0 < width) (inside : size ≤ width)
    (narrow : operand < 2 ^ size) (low : other < 2 ^ size) (one : Remains width taps size value operand result)
    (two : Remains width taps size value other result) : operand = other := by
  rw [remains_iff] at one two
  have same := one.symm.trans two
  rw [residue_add,residue_add] at same
  have mirrors := residue_cancel constant positive (add_right_cancel same)
  have short (word : Nat) : (mirror size word).degree < width := lt_of_lt_of_le (mirror_degree size word) (Nat.cast_le.mpr inside)
  exact mirror_injective narrow low (residue_small (short operand) (short other) mirrors)

theorem register_injective (constant : (mirror width taps).coeff 0 = 1) (positive : 0 < width)
    (fits : value < 2 ^ width) (low : other < 2 ^ width) (one : Remains width taps size value operand result)
    (two : Remains width taps size other operand result) : value = other := by
  rw [remains_iff] at one two
  have same := one.symm.trans two
  rw [residue_add,residue_add] at same
  have mirrors := residue_cancel constant positive (add_left_cancel same)
  exact mirror_injective fits low (residue_small (mirror_degree _ _) (mirror_degree _ _) mirrors)

end Division

def word (bytes : List UInt8) : Nat := Nat.ofDigits 256 (bytes.map UInt8.toNat)

theorem word_cons (byte : UInt8) (rest : List UInt8) : word (byte :: rest) = byte.toNat + 2 ^ 8 * word rest :=
  Nat.ofDigits_cons

theorem word_digits (bytes : List UInt8) : ∀ digit ∈ bytes.map UInt8.toNat, digit < 256 := by
  intro digit member
  obtain ⟨byte,_,rfl⟩ := List.mem_map.mp member
  exact byte.toNat_lt

theorem word_lt (bytes : List UInt8) : word bytes < 2 ^ (8 * bytes.length) := by
  have bound := Nat.ofDigits_lt_base_pow_length (by decide) (word_digits bytes)
  rw [List.length_map] at bound
  rw [Nat.pow_mul]
  exact bound

theorem word_injective {bytes other : List UInt8} (size : bytes.length = other.length) (same : word bytes = word other) :
    bytes = other := by
  have lengths : (bytes.map UInt8.toNat).length = (other.map UInt8.toNat).length := by
    rw [List.length_map,List.length_map,size]
  have digits := Nat.ofDigits_inj_of_len_eq (by decide) lengths (word_digits bytes) (word_digits other) same
  exact (List.map_inj_right fun _ _ equal => UInt8.toNat_inj.mp equal).mp digits

section Loops
variable {σ : Type*} {width taps : Nat} {register : σ → Nat} {step : σ → UInt8 → σ}

theorem bytes_remain (each : ∀ s byte, Remains width taps 8 (register s) byte.toNat (register (step s byte)))
    (bytes : List UInt8) (s : σ) :
    Remains width taps (8 * bytes.length) (register s) (word bytes) (register (bytes.foldl step s)) := by
  induction bytes generalizing s with
  | nil => exact remains_empty width taps (register s)
  | cons byte rest ih =>
    have whole := remains_append byte.toNat_lt (each s byte) (ih (step s byte))
    rw [List.length_cons,Nat.mul_succ,Nat.add_comm,word_cons]
    exact whole

theorem burst_detected (each : ∀ s byte, Remains width taps 8 (register s) byte.toNat (register (step s byte)))
    (fits : ∀ s, register s < 2 ^ width) (constant : (mirror width taps).coeff 0 = 1) (positive : 0 < width)
    {window other : List UInt8} (size : window.length = other.length) (short : 8 * window.length ≤ width)
    (before after : List UInt8) (s : σ)
    (same : register ((before ++ (window ++ after)).foldl step s) = register ((before ++ (other ++ after)).foldl step s)) :
    window = other := by
  rw [List.foldl_append,List.foldl_append,List.foldl_append,List.foldl_append] at same
  generalize before.foldl step s = start at same
  have rest := bytes_remain each after (other.foldl step start)
  rw [← same] at rest
  have behind := register_injective constant positive (fits _) (fits _) (bytes_remain each after (window.foldl step start)) rest
  have one := bytes_remain each window start
  have two := bytes_remain each other start
  rw [behind,size] at one
  have narrow := word_lt window
  rw [size] at narrow short
  exact word_injective size (operand_injective constant positive short narrow (word_lt other) one two)

end Loops

-- The loop that takes `width` items at a time while there are so many, and what it leaves.
def strides {σ α : Type*} (width : Nat) (step : σ → List α → σ) (s : σ) (items : List α) : σ × List α :=
  if _more : 0 < width ∧ width ≤ items.length then strides width step (step s (items.take width)) (items.drop width)
  else (s,items)
termination_by items.length
decreasing_by rw [List.length_drop]; omega

theorem strides_fold {σ τ α : Type*} {width : Nat} {step : σ → List α → σ} {single : τ → α → τ} {view : σ → τ}
    (each : ∀ s (chunk : List α), chunk.length = width → view (step s chunk) = chunk.foldl single (view s))
    (s : σ) (items : List α) :
    (strides width step s items).2.foldl single (view (strides width step s items).1) = items.foldl single (view s) := by
  induction s, items using strides.induct width step with
  | case1 s items more ih =>
    rw [strides,dif_pos more,ih,each s _ (List.length_take_of_le more.2),← List.foldl_append,List.take_append_drop]
  | case2 s items more =>
    rw [strides,dif_neg more]

end Foundation.Crc
