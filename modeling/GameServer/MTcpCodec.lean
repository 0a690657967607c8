import GameServer.ProtoHeader

namespace GameServer
open Foundation

-- The portable path of Crc32C: reflected polynomial, one bit at a time.
def crcPoly : UInt32 := 0x82F63B78

def crcBit (crc : UInt32) : UInt32 :=
  let mask := 0 - (crc &&& 1)
  (crc >>> 1) ^^^ (crcPoly &&& mask)

def crcByte (crc : UInt32) (byte : UInt8) : UInt32 := crcBit^[8] (crc ^^^ byte.toUInt32)

def crc32C (bytes : List UInt8) : UInt32 := bytes.foldl crcByte 0xFFFFFFFF ^^^ 0xFFFFFFFF

structure EncodeMessage where
  msgId : MsgId
  protoType : UInt8
  mainType : UInt8
  subType : UInt8
  payload : List UInt8
deriving DecidableEq, Repr

structure EncodeResult where
  success : Bool
  errorMsg : String
  encodedMessage : List UInt8
deriving DecidableEq, Repr

structure DecodedMessage where
  msgId : MsgId
  protoType : UInt8
  mainType : UInt8
  subType : UInt8
  payload : List UInt8
deriving DecidableEq, Repr

structure DecodeResult where
  success : Bool
  errorMsg : String
  messages : List DecodedMessage
  costOffset : Nat
deriving DecidableEq, Repr

namespace MTcpCodec

def chunkSize : Nat := 4 * 1024
def maxDataSize : Nat := 10 * 1024 * 1024

def createHeartbeatFrame (msgId : MsgId) : List UInt8 :=
  ProtoHeader.toBytes ⟨protoMagic,ProtoFlags.version,ProtoType.heartBeat,0,0,idHigh msgId,idLow msgId,0,0,0⟩

def totalFrames (size : Nat) : Nat := (size + chunkSize - 1) / chunkSize

def fragment (payload : List UInt8) (seq : Nat) : List UInt8 :=
  let offset := seq * chunkSize
  let remain := payload.length - offset
  (payload.drop offset).take (min chunkSize remain)

def frameFlags (total seq : Nat) : UInt16 :=
  if total = 1 then ProtoFlags.checksum ||| ProtoFlags.fullMsg
  else if seq + 1 = total then ProtoFlags.checksum ||| ProtoFlags.fragmented ||| ProtoFlags.endPart
  else ProtoFlags.checksum ||| ProtoFlags.fragmented

-- The two type bytes travel in front of the fragment, inside the frame's payload.
def encodeFrame (msg : EncodeMessage) (total seq : Nat) : List UInt8 :=
  let body := msg.mainType :: msg.subType :: fragment msg.payload seq
  ProtoHeader.toBytes
    { header := protoMagic
      version := ProtoFlags.version
      protoType := ProtoType.data
      payloadLen := UInt16.ofNat body.length
      flags := frameFlags total seq
      msgIdHigh := idHigh msg.msgId
      msgIdLow := idLow msg.msgId
      seq := UInt16.ofNat seq
      total := UInt16.ofNat total
      checksum := crc32C body } ++ body

def encodeSync (msg : EncodeMessage) : EncodeResult :=
  if msg.payload.isEmpty || msg.payload.length > maxDataSize then
    ⟨false,"TcpCodec Input Size Err, size :" ++ toString msg.payload.length,[]⟩
  else
    let total := totalFrames msg.payload.length
    if total > 65535 then ⟨false,"TcpCodec too many fragments",[]⟩
    else if msg.protoType = ProtoType.heartBeat then
      if !msg.payload.isEmpty then ⟨false,"Heartbeat message should not have payload",[]⟩
      else ⟨true,"",createHeartbeatFrame msg.msgId⟩
    else ⟨decide (0 < total),"",(List.range total).flatMap (encodeFrame msg total)⟩

def magicBytes : List UInt8 := BigEndian.toBytes 4 protoMagic.toNat

def scanMagic : List UInt8 → Option Nat
  | [] => none
  | byte :: rest => if (byte :: rest).take 4 = magicBytes then some 0 else (scanMagic rest).map (· + 1)

def findNextMagicOffset (input : List UInt8) (start : Nat) : Nat :=
  if input.length < 4 ∨ start ≥ input.length then input.length
  else match scanMagic (input.drop start) with
    | some skipped => start + skipped
    | none => input.length

-- The decoder copies the type bytes without looking at the end of its input:
-- `past` is the memory that follows it.
def byteAt (past : Nat → UInt8) (input : List UInt8) (place : Nat) : UInt8 :=
  input.getD place (past (place - input.length))

def decodeFrame (past : Nat → UInt8) (input : List UInt8) (offset : Nat) : DecodedMessage :=
  let hdr := ProtoHeader.ofBytes (input.drop offset)
  let msgId := joinId hdr.msgIdHigh hdr.msgIdLow
  if hdr.protoType = ProtoType.heartBeat then ⟨msgId,ProtoType.heartBeat,0,0,[]⟩
  else
    let body := offset + protoHeaderSize
    { msgId := msgId
      protoType := 0
      mainType := byteAt past input body
      subType := byteAt past input (body + 1)
      payload := (input.drop (body + 2)).take (hdr.payloadLen.toNat - 2) }

def decodeLoop (past : Nat → UInt8) (input : List UInt8) (offset : Nat)
    (messages : List DecodedMessage) : DecodeResult :=
  if offset + protoHeaderSize ≤ input.length then
    let hdr := ProtoHeader.ofBytes (input.drop offset)
    if hdr.header ≠ protoMagic then
      ⟨false,"TcpCodec Decode Invalid Magic",messages,findNextMagicOffset input (offset + 1)⟩
    else
      let frameLen := protoHeaderSize + hdr.payloadLen.toNat
      if offset + frameLen > input.length then
        ⟨false,"TcpCodec Decode Input Too Short For Payload",messages,offset⟩
      else decodeLoop past input (offset + frameLen) (messages ++ [decodeFrame past input offset])
  else ⟨true,"",messages,offset⟩
termination_by input.length - offset
decreasing_by simp only [protoHeaderSize] at *; omega

def decodeSync (past : Nat → UInt8) (input : List UInt8) : DecodeResult :=
  if input.length < protoHeaderSize then ⟨false,"TcpCodec Decode Input Too Short",[],0⟩
  else decodeLoop past input 0 []

end MTcpCodec
end GameServer
