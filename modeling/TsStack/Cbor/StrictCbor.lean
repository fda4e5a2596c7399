import TsStack.Cbor.Utf8
import TsStack.Lib.LittleEndian
import TsStack.Lib.ListParser

/-
  Strict DAG-CBOR: the encoder and the decoder of
  `strictCbor.ts`.

  A number of the language is its 64 bits; a bigint is an
  integer.  The depth that is left takes the place of the
  depth reached, so both recursions are on it.
-/

-- Values

namespace TsStack.Cbor

/- A text of the language, by its code units. -/
abbrev CborText := List UInt16

inductive StrictCborValue where
| integer (value : Int)
| number (bits : UInt64)
| bytes (value : List UInt8)
| text (value : CborText)
| null
| boolean (value : Bool)
| array (items : List StrictCborValue)
| map (entries : List (CborText × StrictCborValue))
| link (cid : List UInt8)

structure StrictCborError where
  message : String
deriving DecidableEq, Repr

abbrev Encoded := Except StrictCborError (List UInt8)

def STRICT_CBOR_MAX_DEPTH : Nat := 1024

def MAX_UINT64 : Nat := 2 ^ 64 - 1

def MAX_SAFE_INTEGER : Nat := 2 ^ 53 - 1

def CID_TAG : Nat := 42

def tooDeep : StrictCborError :=
  ⟨"nesting deeper than 1024"⟩

-- Numbers

variable (bits : UInt64)

def exponentOf : Nat :=
  bits.toNat / 2 ^ 52 % 2048

def fractionOf : Nat :=
  bits.toNat % 2 ^ 52

def isFinite : Bool :=
  exponentOf bits != 2047

def integralSize : Option Nat :=
  let exponent := exponentOf bits
  let mantissa := 2 ^ 52 + fractionOf bits
  if exponent = 2047 then none
  else if exponent = 0 then if fractionOf bits = 0 then some 0 else none
  else if 1075 ≤ exponent then some (mantissa * 2 ^ (exponent - 1075))
  else if mantissa % 2 ^ (1075 - exponent) = 0 then some (mantissa / 2 ^ (1075 - exponent))
  else none

def integerOf : Option Int :=
  (integralSize bits).map fun (size : Nat) =>
    if 2 ^ 63 ≤ bits.toNat then -(size : Int) else (size : Int)

-- Encoding

open LittleEndian

/- Filled from the last byte. -/
def bigEndian (value size : Nat) : List UInt8 :=
  (leBytes size value).reverse

/- Minimal definite-length header. -/
def header (major value : Nat) : List UInt8 :=
  let m := major <<< 5
  if value < 24 then [UInt8.ofNat (m ||| value)]
  else if value < 0x100 then [UInt8.ofNat (m ||| 24), UInt8.ofNat value]
  else if value < 0x10000 then UInt8.ofNat (m ||| 25) :: bigEndian value 2
  else if value < 0x100000000 then UInt8.ofNat (m ||| 26) :: bigEndian value 4
  else UInt8.ofNat (m ||| 27) :: bigEndian value 8

/- The first byte that differs decides, or the length. -/
def compareBytes : List UInt8 → List UInt8 → Int
| x :: a, y :: b =>
  if x ≠ y then (x.toNat : Int) - y.toNat
  else compareBytes a b
| a, b => (a.length : Int) - b.length

def textBytes (text : CborText) : List UInt8 :=
  UnicodeText.encodeUtf8 (UnicodeText.scalars text)

def encodedText (text : CborText) : List UInt8 :=
  header 3 (textBytes text).length ++ textBytes text

def encodeText (text : CborText) : Encoded :=
  if UnicodeText.isWellFormed text then .ok (encodedText text)
  else .error ⟨"text contains a lone surrogate"⟩

def isCid (bytes : List UInt8) : Bool :=
  bytes.head? == some 0

def encodeInteger (value : Int) : Encoded :=
  if 0 ≤ value then
    if value.toNat > MAX_UINT64 then .error ⟨"integer outside -2^64..2^64-1"⟩
    else .ok (header 0 value.toNat)
  else
    let argument := (-1 - value).toNat
    if argument > MAX_UINT64 then .error ⟨"integer outside -2^64..2^64-1"⟩
    else .ok (header 1 argument)

def encodeFloat : Encoded :=
  if isFinite bits then .ok (0xfb :: bigEndian bits.toNat 8)
  else .error ⟨"number must be a safe integer or a finite float"⟩

def encodeNumber : Encoded :=
  match integerOf bits with
  | some value =>
    if value.natAbs > MAX_SAFE_INTEGER then
      .error ⟨"number must be a safe integer or a finite float"⟩
    else encodeInteger value
  | none => encodeFloat bits

def encodeLink (cid : List UInt8) : Encoded :=
  if isCid cid then .ok (0xd8 :: UInt8.ofNat CID_TAG :: (header 2 cid.length ++ cid))
  else .error ⟨"invalid CID"⟩

def encodeArray
  (encodeValue : StrictCborValue → Encoded) (items : List StrictCborValue) : Encoded := do
  let parts ← items.mapM encodeValue
  return header 4 items.length ++ parts.flatten

def encodeKey (entry : CborText × StrictCborValue) :
  Except StrictCborError (List UInt8 × StrictCborValue) := do
  let key ← encodeText entry.1
  return (key, entry.2)

def encodeEntry
  (encodeValue : StrictCborValue → Encoded) (entry : List UInt8 × StrictCborValue) : Encoded := do
  let value ← encodeValue entry.2
  return entry.1 ++ value

def encodeMap
  (encodeValue : StrictCborValue → Encoded) (entries : List (CborText × StrictCborValue)) :
  Encoded := do
  let keyed ← entries.mapM encodeKey
  let sorted := keyed.mergeSort fun a b => decide (compareBytes a.1 b.1 ≤ 0)
  let parts ← sorted.mapM (encodeEntry encodeValue)
  return header 5 entries.length ++ parts.flatten

def encodeWith (number : UInt64 → Encoded) (array : List StrictCborValue → Encoded)
  (map : List (CborText × StrictCborValue) → Encoded) :
  StrictCborValue → Encoded
| .integer value => encodeInteger value
| .number bits => number bits
| .text value => encodeText value
| .null => .ok [0xf6]
| .boolean true => .ok [0xf5]
| .boolean false => .ok [0xf4]
| .bytes value => .ok (header 2 value.length ++ value)
| .link cid => encodeLink cid
| .array items => array items
| .map entries => map entries

def encodeBy (number : UInt64 → Encoded) :
  Nat → StrictCborValue → Encoded
| 0 => encodeWith number (fun _ => .error tooDeep) (fun _ => .error tooDeep)
| fuel + 1 =>
  encodeWith number (encodeArray (encodeBy number fuel)) (encodeMap (encodeBy number fuel))

def encodeValue : Nat → StrictCborValue → Encoded :=
  encodeBy encodeNumber

/- The map itself is the first container. -/
def encodeStrictCbor (entries : List (CborText × StrictCborValue)) : Encoded :=
  encodeMap (encodeValue (STRICT_CBOR_MAX_DEPTH - 1)) entries

-- Reading

open ListParser

abbrev CborReader := ListParser StrictCborError UInt8

def failing {α : Type} (message : String) : CborReader α :=
  ListParser.fail ⟨message⟩

def truncated : StrictCborError := ⟨"truncated input"⟩

def byte : CborReader UInt8
| [] => .error truncated
| b :: rest => .ok (b, rest)

structure Head where
  major : Nat
  info : Nat
  argument : Nat
deriving DecidableEq, Repr

def bigEndianValue (bytes : List UInt8) : Nat :=
  bytes.foldl (fun v x => v <<< 8 ||| x.toNat) 0

def leastArgument (info : Nat) : Nat :=
  if info = 24 then 24
  else if info = 25 then 0x100
  else if info = 26 then 0x10000
  else 0x100000000

def head : CborReader Head := do
  let b ← byte
  let major := b.toNat >>> 5
  let info := b.toNat &&& 0x1f
  if info < 24 then return ⟨major, info, info⟩
  else if info > 27 then
    failing (if info = 31 then "indefinite length"
        else "reserved additional info")
  else
    let bytes ← ListParser.take truncated (1 <<< (info - 24))
    let v := bigEndianValue bytes
    if major = 7 then
      if info = 24 ∧ v < 32 then failing "non-minimal header"
      else return ⟨major, info, v⟩
    else if v < leastArgument info then failing "non-minimal header"
    else return ⟨major, info, v⟩

def count (total v : Nat) : CborReader Nat :=
  if v > total then failing "length exceeds input" else pure v

def decodeText (bytes : List UInt8) : CborReader CborText :=
  if validUtf8 bytes then pure (UnicodeText.units ((UnicodeText.decodeUtf8 bytes).getD []))
  else failing "invalid UTF-8"

def decodeSimpleOrFloat (info v : Nat) : CborReader StrictCborValue :=
  if info = 27 then
    if isFinite (UInt64.ofNat v) then pure (.number (UInt64.ofNat v))
    else failing "non-finite float"
  else if info = 25 ∨ info = 26 then failing "float must be 64-bit"
  else if v = 20 then pure (.boolean false)
  else if v = 21 then pure (.boolean true)
  else if v = 22 then pure .null
  else failing "simple value not allowed"

/- What a head other than a tag begins. -/
def decodeContent (total : Nat) (arrayBody mapBody : Nat → CborReader StrictCborValue)
  (h : Head) : CborReader StrictCborValue :=
  match h.major with
  | 0 => pure (.integer h.argument)
  | 1 => pure (.integer (-1 - h.argument))
  | 2 => do
      let n ← count total h.argument
      let value ← ListParser.take truncated n
      return .bytes value
  | 3 => do
      let n ← count total h.argument
      let bytes ← ListParser.take truncated n
      let value ← decodeText bytes
      return .text value
  | 4 => do
      let n ← count total h.argument
      arrayBody n
  | 5 => do
      let n ← count total h.argument
      mapBody n
  | _ => decodeSimpleOrFloat h.info h.argument

def skipTags : Nat → Bool → CborReader (Bool × Head)
| 0, _ => ListParser.fail truncated
| fuel + 1, chained => do
    let h ← head
    if h.major ≠ 6 then return (chained, h)
    else if h.argument ≠ CID_TAG then failing "only tag 42 is allowed"
    else skipTags fuel true

/- A link holds a byte string, and no further tag. -/
def linkOf (chained : Bool) :
  StrictCborValue → CborReader StrictCborValue
| .bytes cid =>
  if chained = false ∧ isCid cid = true then pure (.link cid)
  else failing "invalid CID"
| _ => failing "invalid CID"

def decodeLink (total : Nat) (arrayBody mapBody : Nat → CborReader StrictCborValue)
  (tag : Nat) : CborReader StrictCborValue :=
  if tag ≠ CID_TAG then failing "only tag 42 is allowed"
  else do
    let (chained, h) ← skipTags (total + 1) false
    let content ← decodeContent total arrayBody mapBody h
    linkOf chained content

def decodeWith (total : Nat) (arrayBody mapBody : Nat → CborReader StrictCborValue) :
  CborReader StrictCborValue := do
  let h ← head
  if h.major = 6 then decodeLink total arrayBody mapBody h.argument
  else decodeContent total arrayBody mapBody h

def decodeArrayBody
  (decodeValue : CborReader StrictCborValue) (n : Nat) : CborReader StrictCborValue := do
  let items ← decodeValue.times n
  return .array items

def readKey (total : Nat) : CborReader CborText := do
  let h ← head
  if h.major ≠ 3 then failing "map key must be text"
  else
    let n ← count total h.argument
    let bytes ← ListParser.take truncated n
    decodeText bytes

def ascends (previous : Option (List UInt8)) (encodedKey : List UInt8) : Bool :=
  previous.all fun before => decide (compareBytes before encodedKey < 0)

/- Keys ascend, so no entry is defined twice. -/
def decodeEntries (total : Nat) (decodeValue : CborReader StrictCborValue) :
  Nat → Option (List UInt8) → CborReader (List (CborText × StrictCborValue))
| 0, _ => pure []
| n + 1, previous => do
    let (encodedKey, key) ← (readKey total).consumed
    if ascends previous encodedKey then
      let value ← decodeValue
      let entries ← decodeEntries total decodeValue n (some encodedKey)
      return (key, value) :: entries
    else failing "map keys unsorted or duplicated"

def decodeMapBody (total : Nat) (decodeValue : CborReader StrictCborValue)
  (n : Nat) : CborReader StrictCborValue := do
  let entries ← decodeEntries total decodeValue n none
  return .map entries

def decodeValue (total : Nat) :
  Nat → CborReader StrictCborValue
| 0 => decodeWith total (fun _ => ListParser.fail tooDeep) (fun _ => ListParser.fail tooDeep)
| fuel + 1 =>
  decodeWith total (decodeArrayBody (decodeValue total fuel))
    (decodeMapBody total (decodeValue total fuel))

def decodeTop (total : Nat) :
  CborReader (List (CborText × StrictCborValue)) := do
  let h ← head
  if h.major ≠ 5 then failing "top level must be a map"
  else
    let n ← count total h.argument
    decodeEntries total (decodeValue total (STRICT_CBOR_MAX_DEPTH - 1)) n none

def decodeStrictCbor (bytes : List UInt8) :
  Except StrictCborError (List (CborText × StrictCborValue)) := do
  let (entries, rest) ← decodeTop bytes.length bytes
  if rest.length ≠ 0 then throw ⟨"trailing bytes"⟩
  else return entries

end TsStack.Cbor
