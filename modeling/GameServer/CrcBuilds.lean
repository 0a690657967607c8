import GameServer.Foundation.Crc
import GameServer.MTcpCodec

namespace GameServer
open Foundation Crc

-- The crc32 instructions of SSE4.2, as the compiler names them.
structure Sse42 where
  mmCrc32U8 : UInt32 → UInt8 → UInt32
  mmCrc32U32 : UInt32 → UInt32 → UInt32
  mmCrc32U64 : UInt64 → UInt64 → UInt64

structure ArmCrc32 where
  crc32cb : UInt32 → UInt8 → UInt32
  crc32cw : UInt32 → UInt32 → UInt32

-- A memcpy of so many bytes into a variable, on a little-endian host.
def loadU32 (bytes : List UInt8) : UInt32 := UInt32.ofNat (word bytes)
def loadU64 (bytes : List UInt8) : UInt64 := UInt64.ofNat (word bytes)

namespace Sse42

-- From words on the two x86 builds do the same; the accumulator has 64 bits on both.
def wordsThenBytes (cpu : Sse42) (crc : UInt64) (bytes : List UInt8) : UInt32 :=
  let words := strides 4 (fun crc chunk => (cpu.mmCrc32U32 (UInt64.toUInt32 crc) (loadU32 chunk)).toUInt64) crc bytes
  let crc := words.2.foldl (fun crc byte => (cpu.mmCrc32U8 (UInt64.toUInt32 crc) byte).toUInt64) words.1
  (crc ^^^ 0xFFFFFFFF).toUInt32

def crc32CX8664 (cpu : Sse42) (bytes : List UInt8) : UInt32 :=
  let quads := strides 8 (fun crc chunk => cpu.mmCrc32U64 crc (loadU64 chunk)) 0xFFFFFFFF bytes
  cpu.wordsThenBytes quads.1 quads.2

def crc32CI386 (cpu : Sse42) (bytes : List UInt8) : UInt32 := cpu.wordsThenBytes 0xFFFFFFFF bytes

end Sse42

def ArmCrc32.crc32CArm (cpu : ArmCrc32) (bytes : List UInt8) : UInt32 :=
  let words := strides 4 (fun crc chunk => cpu.crc32cw crc (loadU32 chunk)) 0xFFFFFFFF bytes
  words.2.foldl cpu.crc32cb words.1 ^^^ 0xFFFFFFFF

-- The remainder of accumulator and operand on division by the CRC-32C polynomial, bits reflected.
def Crc32CRemainder (size : Nat) (crc : UInt32) (operand : Nat) (result : UInt32) : Prop :=
  Remains 32 crcPoly.toNat size crc.toNat operand result.toNat

-- What the vendors say of their instructions. The 64-bit form looks at the low half
-- of its accumulator and clears the high half of its result.
structure Sse42.Documented (cpu : Sse42) : Prop where
  byte : ∀ crc v, Crc32CRemainder 8 crc v.toNat (cpu.mmCrc32U8 crc v)
  word : ∀ crc v, Crc32CRemainder 32 crc v.toNat (cpu.mmCrc32U32 crc v)
  quad : ∀ crc v, cpu.mmCrc32U64 crc v = (cpu.mmCrc32U64 crc v).toUInt32.toUInt64 ∧
    Crc32CRemainder 64 crc.toUInt32 v.toNat (cpu.mmCrc32U64 crc v).toUInt32

structure ArmCrc32.Documented (cpu : ArmCrc32) : Prop where
  byte : ∀ crc v, Crc32CRemainder 8 crc v.toNat (cpu.crc32cb crc v)
  word : ∀ crc v, Crc32CRemainder 32 crc v.toNat (cpu.crc32cw crc v)

section Remainders
variable {crc result : UInt32} {bytes : List UInt8}

theorem crcBit_toNat (crc : UInt32) : (crcBit crc).toNat = shift crcPoly.toNat crc.toNat := by
  have low : (crc &&& 1).toNat = crc.toNat % 2 := by
    rw [UInt32.toNat_and]
    exact Nat.and_two_pow_sub_one_eq_mod crc.toNat 1
  have half : (crc >>> 1).toNat = crc.toNat / 2 := by
    rw [UInt32.toNat_shiftRight]
    exact Nat.shiftRight_eq_div_pow crc.toNat 1
  have parts : crcBit crc = (crc >>> 1) ^^^ (crcPoly &&& (0 - (crc &&& 1))) := rfl
  rw [parts,shift,Nat.testBit_zero]
  by_cases odd : crc.toNat % 2 = 1
  · have one : crc &&& 1 = 1 := UInt32.toNat_inj.mp (low.trans odd)
    have mask : crcPoly &&& (0 - 1) = crcPoly := by decide
    rw [one,mask,if_pos (decide_eq_true odd),UInt32.toNat_xor,half]
  · have zero : crc &&& 1 = 0 := UInt32.toNat_inj.mp (low.trans (by rw [UInt32.toNat_zero]; omega))
    have mask : crcPoly &&& (0 - 0) = 0 := by decide
    rw [zero,mask,UInt32.xor_zero,half,if_neg (by simpa using odd)]

theorem crcBits_toNat (count : Nat) (crc : UInt32) : (crcBit^[count] crc).toNat = (shift crcPoly.toNat)^[count] crc.toNat := by
  induction count with
  | zero => rfl
  | succ count ih => rw [Function.iterate_succ_apply',Function.iterate_succ_apply',crcBit_toNat,ih]

theorem crcBits_remainder {size : Nat} {operand : UInt32} (narrow : operand.toNat < 2 ^ size) (inside : size ≤ 32) :
    Crc32CRemainder size crc operand.toNat (crcBit^[size] (crc ^^^ operand)) := by
  unfold Crc32CRemainder
  rw [crcBits_toNat,UInt32.toNat_xor]
  exact shifts_remain crcPoly.toNat_lt crc.toNat_lt narrow inside (by omega)

theorem crcByte_remainder (crc : UInt32) (byte : UInt8) : Crc32CRemainder 8 crc byte.toNat (crcByte crc byte) := by
  have narrow : byte.toUInt32.toNat < 2 ^ 8 := by rw [UInt8.toNat_toUInt32]; exact byte.toNat_lt
  have taken : Crc32CRemainder 8 crc byte.toUInt32.toNat (crcBit^[8] (crc ^^^ byte.toUInt32)) :=
    crcBits_remainder narrow (by omega)
  rwa [UInt8.toNat_toUInt32] at taken

theorem crcBytes_remainder (crc : UInt32) (bytes : List UInt8) :
    Crc32CRemainder (8 * bytes.length) crc (word bytes) (bytes.foldl crcByte crc) :=
  bytes_remain crcByte_remainder bytes crc

theorem remainder_bytes {size : Nat} (taken : Crc32CRemainder size crc (word bytes) result)
    (whole : 8 * bytes.length = size) : result = bytes.foldl crcByte crc := by
  have portable := crcBytes_remainder crc bytes
  rw [whole] at portable
  exact UInt32.toNat_inj.mp (remains_unique result.toNat_lt (UInt32.toNat_lt _) taken portable)

theorem loadU32_toNat (whole : bytes.length = 4) : (loadU32 bytes).toNat = word bytes := by
  have bound := word_lt bytes
  rw [whole] at bound
  exact UInt32.toNat_ofNat_of_lt' bound

theorem loadU64_toNat (whole : bytes.length = 8) : (loadU64 bytes).toNat = word bytes := by
  have bound := word_lt bytes
  rw [whole] at bound
  exact UInt64.toNat_ofNat_of_lt' bound

theorem remainder_byte {byte : UInt8} (taken : Crc32CRemainder 8 crc byte.toNat result) : result = crcByte crc byte :=
  UInt32.toNat_inj.mp (remains_unique result.toNat_lt (UInt32.toNat_lt _) taken (crcByte_remainder crc byte))

end Remainders

section Builds
variable {sse : Sse42} {arm : ArmCrc32}

theorem words_then_bytes (documented : sse.Documented) (crc : UInt64) (bytes : List UInt8) :
    sse.wordsThenBytes crc bytes = bytes.foldl crcByte crc.toUInt32 ^^^ 0xFFFFFFFF := by
  have word : ∀ (crc : UInt64) (chunk : List UInt8), chunk.length = 4 →
      (sse.mmCrc32U32 crc.toUInt32 (loadU32 chunk)).toUInt64.toUInt32 = chunk.foldl crcByte crc.toUInt32 := by
    intro crc chunk whole
    have taken := documented.word crc.toUInt32 (loadU32 chunk)
    rw [loadU32_toNat whole] at taken
    rw [UInt32.toUInt32_toUInt64]
    exact remainder_bytes taken (by rw [whole])
  have byte (crc : UInt64) (bytes : List UInt8) :
      (bytes.foldl (fun crc byte => (sse.mmCrc32U8 (UInt64.toUInt32 crc) byte).toUInt64) crc).toUInt32 =
        bytes.foldl crcByte crc.toUInt32 := by
    induction bytes generalizing crc with
    | nil => rfl
    | cons head rest ih =>
      rw [List.foldl_cons,List.foldl_cons,ih,UInt32.toUInt32_toUInt64,remainder_byte (documented.byte _ _)]
  have inverted (crc : UInt64) : (crc ^^^ 0xFFFFFFFF).toUInt32 = crc.toUInt32 ^^^ 0xFFFFFFFF := UInt64.toUInt32_xor crc _
  unfold Sse42.wordsThenBytes
  dsimp only
  rw [inverted,byte,strides_fold word]

theorem x8664_agrees (documented : sse.Documented) (bytes : List UInt8) : sse.crc32CX8664 bytes = crc32C bytes := by
  have quad : ∀ (crc : UInt64) (chunk : List UInt8), chunk.length = 8 →
      (sse.mmCrc32U64 crc (loadU64 chunk)).toUInt32 = chunk.foldl crcByte crc.toUInt32 := by
    intro crc chunk whole
    have taken := (documented.quad crc (loadU64 chunk)).2
    rw [loadU64_toNat whole] at taken
    exact remainder_bytes taken (by rw [whole])
  unfold Sse42.crc32CX8664
  dsimp only
  rw [words_then_bytes documented,strides_fold quad]
  rfl

theorem i386_agrees (documented : sse.Documented) (bytes : List UInt8) : sse.crc32CI386 bytes = crc32C bytes :=
  words_then_bytes documented 0xFFFFFFFF bytes

theorem arm_agrees (documented : arm.Documented) (bytes : List UInt8) : arm.crc32CArm bytes = crc32C bytes := by
  have word : ∀ (crc : UInt32) (chunk : List UInt8), chunk.length = 4 →
      arm.crc32cw crc (loadU32 chunk) = chunk.foldl crcByte crc := by
    intro crc chunk whole
    have taken := documented.word crc (loadU32 chunk)
    rw [loadU32_toNat whole] at taken
    exact remainder_bytes taken (by rw [whole])
  have byte : arm.crc32cb = crcByte := by
    funext crc byte
    exact remainder_byte (documented.byte crc byte)
  have folded := @strides_fold _ _ _ 4 (fun crc chunk => arm.crc32cw crc (loadU32 chunk)) crcByte id word 0xFFFFFFFF bytes
  unfold ArmCrc32.crc32CArm
  dsimp only
  rw [byte]
  exact congrArg (· ^^^ 0xFFFFFFFF) folded

-- Whichever instructions a build uses, it returns what the bit-by-bit loop does.
theorem builds_agree (sse_ : sse.Documented) (arm_ : arm.Documented) (bytes : List UInt8) :
    sse.crc32CX8664 bytes = crc32C bytes ∧ sse.crc32CI386 bytes = crc32C bytes ∧ arm.crc32CArm bytes = crc32C bytes :=
  ⟨x8664_agrees sse_ bytes,i386_agrees sse_ bytes,arm_agrees arm_ bytes⟩

end Builds

def softWord (crc v : UInt32) : UInt32 := crcBit^[32] (crc ^^^ v)

def softSse42 : Sse42 where
  mmCrc32U8 := crcByte
  mmCrc32U32 := softWord
  mmCrc32U64 crc v := (softWord (softWord crc.toUInt32 v.toUInt32) (v >>> 32).toUInt32).toUInt64

def softArm : ArmCrc32 := ⟨crcByte,softWord⟩

theorem softWord_remainder (crc v : UInt32) : Crc32CRemainder 32 crc v.toNat (softWord crc v) :=
  crcBits_remainder v.toNat_lt (Nat.le_refl 32)

theorem softSse42_documented : softSse42.Documented := by
  refine ⟨crcByte_remainder,softWord_remainder,?_⟩
  intro crc v
  have halves : v.toNat = v.toUInt32.toNat + 2 ^ 32 * (v >>> 32).toUInt32.toNat := by
    have bound := v.toNat_lt
    rw [UInt64.toNat_toUInt32,UInt64.toNat_toUInt32,UInt64.toNat_shiftRight]
    have high : v.toNat >>> (UInt64.toNat 32 % 64) = v.toNat / 2 ^ 32 := Nat.shiftRight_eq_div_pow v.toNat 32
    rw [high]
    omega
  have both := remains_append v.toUInt32.toNat_lt (softWord_remainder crc.toUInt32 v.toUInt32)
    (softWord_remainder (softWord crc.toUInt32 v.toUInt32) (v >>> 32).toUInt32)
  rw [← halves] at both
  refine ⟨by simp [softSse42],?_⟩
  simp only [softSse42,UInt32.toUInt32_toUInt64]
  exact both

theorem softArm_documented : softArm.Documented := ⟨crcByte_remainder,softWord_remainder⟩

-- The check value of the digits 1 to 9.
theorem nine_digits_agree : softSse42.crc32CX8664 (stdString "123456789") = 0xE3069283 ∧
    softSse42.crc32CI386 (stdString "123456789") = 0xE3069283 ∧ softArm.crc32CArm (stdString "123456789") = 0xE3069283 := by
  have check : crc32C (stdString "123456789") = 0xE3069283 := by decide +kernel
  obtain ⟨x8664,i386,armed⟩ := builds_agree softSse42_documented softArm_documented (stdString "123456789")
  exact ⟨x8664.trans check,i386.trans check,armed.trans check⟩

end GameServer
