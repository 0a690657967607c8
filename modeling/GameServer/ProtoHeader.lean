import Mathlib.Data.Nat.Bitwise
import GameServer.Foundation.BigEndian
import GameServer.MessageProto

namespace GameServer
open Foundation

def protoHeaderSize : Nat := 26
def protoMagic : UInt32 := 0x48123123

namespace ProtoFlags
def version : UInt8 := 1
def fullMsg : UInt16 := 0x0
def fragmented : UInt16 := 0x1
def checksum : UInt16 := 0x2
def endPart : UInt16 := 0x4
end ProtoFlags

namespace ProtoType
def heartBeat : UInt8 := 0
def control : UInt8 := 1
def data : UInt8 := 2
end ProtoType

-- The packed struct, fields in host order. On the wire they are big-endian.
structure ProtoHeader where
  header : UInt32
  version : UInt8
  protoType : UInt8
  payloadLen : UInt16
  flags : UInt16
  msgIdHigh : UInt32
  msgIdLow : UInt32
  seq : UInt16
  total : UInt16
  checksum : UInt32
deriving DecidableEq, Repr

namespace ProtoHeader

def toBytes (h : ProtoHeader) : List UInt8 :=
  BigEndian.toBytes 4 h.header.toNat ++ h.version :: h.protoType :: (BigEndian.toBytes 2 h.payloadLen.toNat ++
    (BigEndian.toBytes 2 h.flags.toNat ++ (BigEndian.toBytes 4 h.msgIdHigh.toNat ++
      (BigEndian.toBytes 4 h.msgIdLow.toNat ++ (BigEndian.toBytes 2 h.seq.toNat ++
        (BigEndian.toBytes 2 h.total.toNat ++ BigEndian.toBytes 4 h.checksum.toNat))))))

def ofBytes (bytes : List UInt8) : ProtoHeader where
  header := UInt32.ofNat (BigEndian.field bytes 0 4)
  version := bytes.getD 4 0
  protoType := bytes.getD 5 0
  payloadLen := UInt16.ofNat (BigEndian.field bytes 6 2)
  flags := UInt16.ofNat (BigEndian.field bytes 8 2)
  msgIdHigh := UInt32.ofNat (BigEndian.field bytes 10 4)
  msgIdLow := UInt32.ofNat (BigEndian.field bytes 14 4)
  seq := UInt16.ofNat (BigEndian.field bytes 18 2)
  total := UInt16.ofNat (BigEndian.field bytes 20 2)
  checksum := UInt32.ofNat (BigEndian.field bytes 22 4)

@[simp] theorem toBytes_length (h : ProtoHeader) : h.toBytes.length = protoHeaderSize := by
  simp [toBytes,protoHeaderSize]

theorem ofBytes_toBytes (h : ProtoHeader) (after : List UInt8) : ofBytes (h.toBytes ++ after) = h := by
  rcases h with ⟨header,version,protoType,payloadLen,flags,msgIdHigh,msgIdLow,seq,total,checksum⟩
  simp [ofBytes,toBytes,BigEndian.field_skip,List.getElem?_append_right]

theorem ofBytes_append {bytes : List UInt8} (whole : protoHeaderSize ≤ bytes.length) (after : List UInt8) :
    ofBytes (bytes ++ after) = ofBytes bytes := by
  have size : 26 ≤ bytes.length := whole
  have kept (place width : Nat) (inside : place + width ≤ 26) :
      BigEndian.field (bytes ++ after) place width = BigEndian.field bytes place width :=
    BigEndian.field_prefix (Nat.le_trans inside size)
  have byte (place : Nat) (inside : place < 26) : (bytes ++ after).getD place 0 = bytes.getD place 0 := by
    simp [List.getD_eq_getElem?_getD,List.getElem?_append_left (Nat.lt_of_lt_of_le inside size)]
  simp only [ofBytes,kept,byte,Nat.reduceAdd,Nat.reduceLeDiff,Nat.reduceLT]

end ProtoHeader

-- The two halves of a message id as the codec splits and joins them.
def idHigh (id : MsgId) : UInt32 := (id >>> 32).toUInt32
def idLow (id : MsgId) : UInt32 := (id &&& 0xFFFFFFFF).toUInt32
def joinId (high low : UInt32) : MsgId := high.toUInt64 <<< 32 ||| low.toUInt64

theorem join_halves (id : MsgId) : joinId (idHigh id) (idLow id) = id := by
  apply UInt64.toNat_inj.mp
  have bound : id.toNat < 2 ^ 64 := id.toNat_lt
  simp only [joinId,idHigh,idLow,UInt64.toNat_or,UInt64.toNat_shiftLeft,UInt64.toNat_shiftRight,
    UInt64.toNat_and,UInt64.toNat_toUInt32,UInt32.toNat_toUInt64,UInt64.reduceToNat,Nat.reduceMod]
  have low : (id.toNat &&& 4294967295) % 2 ^ 32 = id.toNat % 2 ^ 32 := by
    rw [show (4294967295 : Nat) = 2 ^ 32 - 1 from rfl,Nat.and_two_pow_sub_one_eq_mod]
    exact Nat.mod_mod _ _
  have high : (id.toNat >>> 32 % 2 ^ 32) <<< 32 % 2 ^ 64 = (id.toNat / 2 ^ 32) <<< 32 := by
    rw [Nat.shiftRight_eq_div_pow,Nat.shiftLeft_eq,Nat.shiftLeft_eq]
    omega
  have small : id.toNat % 2 ^ 32 < 2 ^ 32 := by omega
  rw [low,high,← Nat.shiftLeft_add_eq_or_of_lt small,Nat.shiftLeft_eq]
  omega

end GameServer
