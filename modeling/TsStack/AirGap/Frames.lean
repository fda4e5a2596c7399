import TsStack.AirGap.Coding
import TsStack.Lib.Base64
import TsStack.Lib.LittleEndian

/-
  The parts of an air-gap stream: how an encoder writes them
  and how a decoder reads them.

  Texts are UTF-16 code units.  The key of a session, a text
  of its fields in the source, is the record of them.
-/

-- Constants and Checksums

open List

namespace TsStack.AirGap

/- A text of UTF-16 code units. -/
abbrev PartText :=
  List UInt16

def asciiText (chars : String) : PartText :=
  chars.toList.map fun char => UInt16.ofNat char.toNat

def AIR_GAP_PREFIX : PartText :=
  asciiText "air-gap:"

def AIR_GAP_WIRE_VERSION : UInt8 := 1

def SESSION_ID_BYTES : Nat := 8

def HEADER_BYTES : Nat := 23

def DEFAULT_BLOCK_BYTES : Int := 1200

def MAX_BLOCK_BYTES : Nat := 2048

def MAX_MESSAGE_BYTES : Nat := 65536

def MAX_BLOCK_COUNT : Nat := 0xffff

def MAX_SEQ_EXCLUSIVE : Nat := 2 ^ 32

def SESSION_SWITCH_PARTS : Nat := 3

def MAX_TRACKED_SEQS : Nat := 65536

def MAX_PENDING_PARTS : Nat := 1024

def MAX_PENDING_INDICES : Nat := 4096

def estimatePartCharLength (blockBytes : Nat) : Nat :=
  let bytes := HEADER_BYTES + blockBytes
  let remainder := bytes % 3
  AIR_GAP_PREFIX.length + (bytes / 3 * 4 + if remainder = 0 then 0 else remainder + 1)

def MAX_PART_CHARS : Nat :=
  estimatePartCharLength MAX_BLOCK_BYTES

def BASE64URL : PartText :=
  asciiText "ABCDEFGHIJKLMNOPQRSTUVWXYZabcdefghijklmnopqrstuvwxyz0123456789-_"

def toB64url (bytes : Bytes) : PartText :=
  Base64.encode BASE64URL bytes

/- As `atob` reads, so left-over bits are dropped. -/
def fromB64url (text : PartText) : Option Bytes :=
  Base64.decodeForgiving BASE64URL text

def crcBit (c : UInt32) : UInt32 :=
  if c &&& 1 = 0 then c >>> 1 else (0xedb88320 : UInt32) ^^^ (c >>> 1)

def CRC_TABLE (n : UInt32) : UInt32 :=
  Nat.repeat crcBit 8 n

def crc32 (bytes : Bytes) : Nat :=
  let c := bytes.foldl
    (fun c byte => CRC_TABLE ((c ^^^ byte.toUInt32) &&& 0xff) ^^^ (c >>> 8)) 0xffffffff
  (c ^^^ 0xffffffff).toNat

theorem crc32_lt (bytes : Bytes) : crc32 bytes < 256 ^ 4 :=
  UInt32.toNat_lt _

def ceilDiv (length blockBytes : Nat) : Nat :=
  (length + blockBytes - 1) / blockBytes

theorem le_ceilDiv_mul {length blockBytes : Nat} (hBytes : 0 < blockBytes) :
  length ≤ ceilDiv length blockBytes * blockBytes := by
  have hMod := Nat.div_add_mod (length + blockBytes - 1) blockBytes
  have hLt := Nat.mod_lt (length + blockBytes - 1) hBytes
  rw [Nat.mul_comm] at hMod
  unfold ceilDiv
  omega

theorem ceilDiv_pos {length blockBytes : Nat} (hBytes : 0 < blockBytes) (hLen : length ≠ 0) :
  1 ≤ ceilDiv length blockBytes :=
  Nat.div_pos (by omega) hBytes

-- Encoders

structure AirGapEncoder where
  message : Bytes
  blockBytes : Nat
  session : Bytes
  message_ne : message.length ≠ 0
  message_le : message.length ≤ MAX_MESSAGE_BYTES
  blockBytes_pos : 0 < blockBytes
  blockBytes_le : blockBytes ≤ MAX_BLOCK_BYTES
  blockCount_le : ceilDiv message.length blockBytes ≤ MAX_BLOCK_COUNT
  session_length : session.length = SESSION_ID_BYTES

/- The text of an `AirGapError`. -/
structure AirGapError where
  message : String
deriving DecidableEq

theorem toNat_pos_of_range {value max : Int} (hRange : ¬(value < 1 ∨ max < value)) :
  0 < value.toNat := by
  omega

theorem toNat_le_of_range {value : Int} {max : Nat} (hRange : ¬(value < 1 ∨ (max : Int) < value)) :
  value.toNat ≤ max := by
  omega

namespace AirGapEncoder

def create (message : Bytes) (blockBytes : Option Int) (sessionId : Option Bytes)
  (random : Fin 8 → UInt8) : Except AirGapError AirGapEncoder :=
  let blockBytes := blockBytes.getD DEFAULT_BLOCK_BYTES
  let session := sessionId.getD (List.ofFn random)
  if hEmpty : message.length = 0 then throw ⟨"cannot encode an empty message"⟩
  else if hMessage : MAX_MESSAGE_BYTES < message.length then
    throw ⟨"message of " ++ toString message.length ++
      " bytes exceeds the " ++ toString MAX_MESSAGE_BYTES ++ "-byte maximum"⟩
  else if hBytes : blockBytes < 1 ∨ (MAX_BLOCK_BYTES : Int) < blockBytes then
    throw ⟨"blockBytes must be an integer between 1 and " ++
      toString MAX_BLOCK_BYTES ++ ", received " ++ toString blockBytes⟩
  else if hCount : MAX_BLOCK_COUNT < ceilDiv message.length blockBytes.toNat then
    throw ⟨"blockBytes of " ++ toString blockBytes ++ " needs " ++
      toString (ceilDiv message.length blockBytes.toNat) ++
      " blocks, over the " ++ toString MAX_BLOCK_COUNT ++ " the header can carry"⟩
  else if hSession : session.length ≠ SESSION_ID_BYTES then
    throw ⟨"sessionId must be exactly " ++ toString SESSION_ID_BYTES ++ " bytes, received " ++
      toString session.length⟩
  else
    return {
      message
      blockBytes := blockBytes.toNat
      session
      message_ne := hEmpty
      message_le := Nat.le_of_not_lt hMessage
      blockBytes_pos := toNat_pos_of_range hBytes
      blockBytes_le := toNat_le_of_range hBytes
      blockCount_le := Nat.le_of_not_lt hCount
      session_length := Decidable.not_not.mp hSession }

variable (encoder : AirGapEncoder)

def blockCount : Nat :=
  ceilDiv encoder.message.length encoder.blockBytes

def messageLength : Nat :=
  encoder.message.length

def crc : Nat :=
  crc32 encoder.message

def padded : Bytes :=
  encoder.message ++ List.replicate
      (encoder.blockCount * encoder.blockBytes - encoder.message.length) 0

def block (index : Nat) : Bytes :=
  (encoder.padded.drop (index * encoder.blockBytes)).take encoder.blockBytes

def partBlocks (seq : Nat) : List Nat :=
  if seq < encoder.blockCount then [seq]
  else blocksForPart seq encoder.blockCount encoder.blockCount

def zeros : Bytes :=
  List.replicate encoder.blockBytes 0

def payloadAt (seq : Nat) : Bytes :=
  if seq < encoder.blockCount then encoder.block seq
  else
    mixed xorInto encoder.block (blocksForPart seq encoder.blockCount
        encoder.blockCount) encoder.zeros

end AirGapEncoder

def beBytes (width number : Nat) : Bytes :=
  (LittleEndian.leBytes width number).reverse

def beNat (bytes : Bytes) : Nat :=
  LittleEndian.leToNat bytes.reverse

def AirGapEncoder.partBytes (encoder : AirGapEncoder) (seq : Nat) : Bytes :=
  [AIR_GAP_WIRE_VERSION] ++ encoder.session ++ beBytes 4 seq ++ beBytes 2 encoder.blockCount ++
    beBytes 4 encoder.messageLength ++ beBytes 4 encoder.crc ++ encoder.payloadAt seq

def AirGapEncoder.partAt (encoder : AirGapEncoder) (seq : Nat) : Except AirGapError PartText :=
  if MAX_SEQ_EXCLUSIVE ≤ seq then
    throw ⟨"part sequence must be a 32-bit unsigned integer, received " ++ toString seq⟩
  else return AIR_GAP_PREFIX ++ toB64url (encoder.partBytes seq)

-- Reading Parts

structure SessionKey where
  session : Bytes
  total : Nat
  msgLen : Nat
  crc : Nat
deriving DecidableEq

structure ParsedPart where
  key : SessionKey
  seq : Nat
  total : Nat
  msgLen : Nat
  crc : Nat
  payload : Bytes
deriving DecidableEq

def getUint (bytes : Bytes) (offset width : Nat) : Nat :=
  beNat ((bytes.drop offset).take width)

def parseBytes (bytes : Bytes) : Option ParsedPart :=
  let session := (bytes.drop 1).take 8
  let seq := getUint bytes 9 4
  let total := getUint bytes 13 2
  let msgLen := getUint bytes 15 4
  let crc := getUint bytes 19 4
  let payload := bytes.drop HEADER_BYTES
  if bytes.length ≤ HEADER_BYTES ∨ HEADER_BYTES + MAX_BLOCK_BYTES < bytes.length then none
  else if bytes.head? ≠ some AIR_GAP_WIRE_VERSION then none
  else if total = 0 ∨ msgLen = 0 ∨ MAX_MESSAGE_BYTES < msgLen then none
  else if ceilDiv msgLen payload.length ≠ total then none
  else
    some {
      key := { session, total, msgLen, crc }
      seq, total, msgLen, crc, payload }

def parse (text : PartText) : Option ParsedPart :=
  if AIR_GAP_PREFIX.isPrefixOf text = false then none
  else if MAX_PART_CHARS < text.length then none
  else (fromB64url (text.drop AIR_GAP_PREFIX.length)).bind parseBytes

namespace AirGapEncoder

variable (encoder : AirGapEncoder)

def key : SessionKey := {
  session := encoder.session
  total := encoder.blockCount
  msgLen := encoder.messageLength
  crc := encoder.crc }

def part (seq : Nat) : ParsedPart := {
  key := encoder.key
  seq
  total := encoder.blockCount
  msgLen := encoder.messageLength
  crc := encoder.crc
  payload := encoder.payloadAt seq }

-- Blocks of a Message

theorem blockCount_pos : 1 ≤ encoder.blockCount :=
  ceilDiv_pos encoder.blockBytes_pos encoder.message_ne

theorem length_padded : encoder.padded.length = encoder.blockCount * encoder.blockBytes := by
  have hLe : encoder.message.length ≤ encoder.blockCount * encoder.blockBytes :=
    le_ceilDiv_mul encoder.blockBytes_pos
  unfold padded
  rw [length_append, length_replicate]
  omega

theorem length_block {index : Nat} (hIdx : index < encoder.blockCount) :
  (encoder.block index).length = encoder.blockBytes := by
  have hMul : (index + 1) * encoder.blockBytes ≤ encoder.blockCount * encoder.blockBytes :=
    Nat.mul_le_mul_right _ hIdx
  rw [Nat.add_mul, Nat.one_mul] at hMul
  unfold block
  rw [length_take, length_drop, length_padded]
  omega

theorem payloadAt_eq (seq : Nat) :
  encoder.payloadAt seq = mixed xorInto encoder.block (encoder.partBlocks seq)
      encoder.zeros := by
  unfold payloadAt partBlocks
  by_cases hSeq : seq < encoder.blockCount
  · have hBlock := encoder.length_block hSeq
    have hZeros := xorInto_zeros (encoder.block seq)
    rw [hBlock] at hZeros
    rw [if_pos hSeq, if_pos hSeq]
    exact hZeros.symm
  · rw [if_neg hSeq, if_neg hSeq]

theorem length_payloadAt (seq : Nat) : (encoder.payloadAt seq).length = encoder.blockBytes := by
  rw [payloadAt_eq, length_mixed]
  exact length_replicate

end AirGapEncoder

-- Parts Return

@[simp] theorem length_beBytes (width number : Nat) : (beBytes width number).length = width := by
  unfold beBytes
  rw [length_reverse, LittleEndian.length_leBytes]

theorem beNat_beBytes {width number : Nat} (hNum : number < 256 ^ width) :
  beNat (beBytes width number) = number := by
  unfold beNat beBytes
  rw [reverse_reverse]
  exact LittleEndian.leToNat_leBytes hNum

theorem take_drop_append
  {α : Type} {start middle rest : List α} {offset width : Nat} (hOff : start.length = offset)
  (hWidth : middle.length = width) : ((start ++ middle ++ rest).drop offset).take width =
    middle := by
  rw [← hOff, ← hWidth, append_assoc, drop_left, take_left]

theorem getUint_append
  {start rest : Bytes} {offset width number : Nat} (hOff : start.length = offset)
  (hNum : number < 256 ^ width) : getUint (start ++ beBytes width number ++ rest) offset width =
    number := by
  unfold getUint
  rw [take_drop_append hOff (length_beBytes width number)]
  exact beNat_beBytes hNum

variable (encoder : AirGapEncoder)

theorem length_partBytes (seq : Nat) :
  (encoder.partBytes seq).length = HEADER_BYTES + encoder.blockBytes := by
  have hSession : encoder.session.length = 8 := encoder.session_length
  unfold AirGapEncoder.partBytes HEADER_BYTES
  simp only [length_append, length_cons, length_nil, length_beBytes, hSession,
    encoder.length_payloadAt]

theorem parseBytes_partBytes {seq : Nat} (hSeq : seq < MAX_SEQ_EXCLUSIVE) :
  parseBytes (encoder.partBytes seq) = some (encoder.part seq) := by
  have hSession : encoder.session.length = 8 := encoder.session_length
  have hLen := length_partBytes encoder seq
  have hBytes := encoder.blockBytes_pos
  have hBytesLe := encoder.blockBytes_le
  have hMsgLe := encoder.message_le
  have hCountLe := encoder.blockCount_le
  have hCount := encoder.blockCount_pos
  unfold MAX_SEQ_EXCLUSIVE at hSeq
  unfold MAX_MESSAGE_BYTES at hMsgLe
  unfold MAX_BLOCK_COUNT at hCountLe
  have hName : ((encoder.partBytes seq).drop 1).take 8 =
        encoder.session := by
    unfold AirGapEncoder.partBytes
    simp only [append_assoc]
    rw [← append_assoc]
    exact take_drop_append rfl hSession
  have hSeqField : getUint (encoder.partBytes seq) 9 4 = seq := by
    unfold AirGapEncoder.partBytes
    rw [append_assoc, append_assoc, append_assoc]
    exact getUint_append (by simp [hSession]) (by omega)
  have hTotalField : getUint (encoder.partBytes seq) 13 2 =
        encoder.blockCount := by
    unfold AirGapEncoder.partBytes
    rw [append_assoc, append_assoc]
    exact getUint_append (by simp [hSession]) (by unfold AirGapEncoder.blockCount; omega)
  have hLenField : getUint (encoder.partBytes seq) 15 4 =
        encoder.messageLength := by
    unfold AirGapEncoder.partBytes
    rw [append_assoc]
    exact getUint_append (by simp [hSession]) (by unfold AirGapEncoder.messageLength; omega)
  have hCrcField : getUint (encoder.partBytes seq) 19 4 =
        encoder.crc := by
    unfold AirGapEncoder.partBytes
    exact getUint_append (by simp [hSession]) (crc32_lt encoder.message)
  have hPayload : (encoder.partBytes seq).drop HEADER_BYTES = encoder.payloadAt seq := by
    unfold AirGapEncoder.partBytes
    apply drop_left'
    simp [hSession, HEADER_BYTES]
  have hHead : (encoder.partBytes seq).head? = some AIR_GAP_WIRE_VERSION := by
    unfold AirGapEncoder.partBytes
    simp only [append_assoc, cons_append, head?_cons]
  have hSize : ¬((encoder.partBytes seq).length ≤ HEADER_BYTES ∨
        HEADER_BYTES + MAX_BLOCK_BYTES < (encoder.partBytes seq).length) := by
    rw [hLen]
    omega
  have hShape : ¬(encoder.blockCount = 0 ∨ encoder.messageLength = 0 ∨
        MAX_MESSAGE_BYTES < encoder.messageLength) := by
    have hNe := encoder.message_ne
    unfold AirGapEncoder.messageLength MAX_MESSAGE_BYTES
    omega
  unfold parseBytes
  rw [hName, hSeqField, hTotalField, hLenField, hCrcField, hPayload, hHead]
  simp only
  rw [encoder.length_payloadAt, if_neg hSize, if_neg (fun hNe => hNe rfl),
    if_neg hShape, if_neg (fun hNe => hNe rfl)]
  rfl

theorem fromB64url_toB64url (bytes : Bytes) : fromB64url (toB64url bytes) = some bytes :=
  Base64.decodeForgiving_encode (by decide +kernel) (by decide +kernel) bytes

theorem parse_partAt {seq : Nat} {text : PartText} (hText : encoder.partAt seq = .ok text) :
  parse text = some (encoder.part seq) := by
  unfold AirGapEncoder.partAt at hText
  split at hText
  · cases hText
  rename_i hSeq
  have hEq := Except.ok.inj hText
  subst hEq
  have hLen :
      ¬ MAX_PART_CHARS < (AIR_GAP_PREFIX ++ toB64url (encoder.partBytes seq)).length := by
    have hBytesLe := encoder.blockBytes_le
    have hPre : AIR_GAP_PREFIX.length = 8 := rfl
    have hMax : MAX_PART_CHARS = 2770 := rfl
    unfold toB64url
    rw [length_append, Base64.length_encode, length_partBytes, hPre, hMax]
    unfold MAX_BLOCK_BYTES at hBytesLe
    unfold HEADER_BYTES
    omega
  have hStarts :
      ¬ AIR_GAP_PREFIX.isPrefixOf (AIR_GAP_PREFIX ++ toB64url (encoder.partBytes seq)) = false := by
    rw [Bool.not_eq_false]
    exact isPrefixOf_iff_prefix.mpr (prefix_append _ _)
  unfold parse
  rw [if_neg hStarts, if_neg hLen, drop_left, fromB64url_toB64url]
  exact parseBytes_partBytes encoder (Nat.lt_of_not_le hSeq)

end TsStack.AirGap
