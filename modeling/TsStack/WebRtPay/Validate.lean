import TsStack.Lib.Base64
import TsStack.Lib.JsonText

/-
  Checks of values that arrive from peers or applications, on
  payments and on payment requests.

  Texts are UTF-16 code units.  A number is an integer, or
  another number of which the whole part is known.  Whether a
  text in the form of an identity key names a point of the
  curve is a parameter, and so is the SDK's reader of Atomic
  BEEF, a function of the bytes.
-/

-- Errors and Values

namespace TsStack.WebRtPay

open Base64

/- A text of UTF-16 code units. -/
abbrev JsText :=
  List UInt16

inductive WebRTPayErrorCode where
| protocol
| invalidPayment
deriving DecidableEq

structure WebRTPayError where
  code : WebRTPayErrorCode
  message : String
deriving DecidableEq

def malformed (message : String) : WebRTPayError :=
  ⟨.protocol, message⟩

def invalidPayment (message : String) : WebRTPayError :=
  ⟨.invalidPayment, message⟩

inductive Number where
| integer (value : Int)
| other (whole : Int)
deriving DecidableEq

def MAX_SAFE_INTEGER : Int := 9007199254740991

def isIntInRange (value : Number) (min max : Int) : Bool :=
  match value with
  | .integer value =>
    decide (value.natAbs ≤ MAX_SAFE_INTEGER) && decide (min ≤ value) && decide (value ≤ max)
  | .other _ => false

def optional : Option Json → Option Json
| some .null => none
| value => value

def plainRecord :
  Option Json → Option (List (JsText × Json))
| some (.object members) => some members
| _ => none

def field (record : List (JsText × Json)) (name : String) : Option Json :=
  Json.member record (Json.text name)

def isShortString (value : JsText) (maxChars : Nat) : Bool :=
  decide (value.length ≤ maxChars)

/- A control character of either range. -/
def isControl (unit : UInt16) : Bool :=
  decide (unit.toNat < 0x20) || (decide (0x7f ≤ unit.toNat) && decide (unit.toNat < 0xa0))

def isBoundedText (value : JsText) (maxBytes : Nat) : Bool :=
  decide (0 < value.length) &&
    decide (value.length ≤ maxBytes) &&
    decide ((UnicodeText.encodeUtf8 (UnicodeText.scalars value)).length ≤ maxBytes) &&
    !value.any isControl

-- Base 64

def B64 : JsText :=
  Json.text "ABCDEFGHIJKLMNOPQRSTUVWXYZabcdefghijklmnopqrstuvwxyz0123456789+/"

def B64URL : JsText :=
  Json.text "ABCDEFGHIJKLMNOPQRSTUVWXYZabcdefghijklmnopqrstuvwxyz0123456789-_"

/- The character `=`. -/
def padding : UInt16 := 61

def toBase64 (bytes : List UInt8) : JsText :=
  Base64.encodePadded B64 padding bytes

def fromBase64 (text : JsText) : Option (List UInt8) :=
  Base64.decodePadded B64 padding text

def toBase64Url (bytes : List UInt8) : JsText :=
  Base64.encode B64URL bytes

def SID_BYTES : Nat := 16

def newId (random : List UInt8) : JsText :=
  toBase64Url random

/- A character of the class `[A-Za-z0-9_-]`. -/
def isMessageIdChar (unit : UInt16) : Bool :=
  (65 ≤ unit.toNat && unit.toNat ≤ 90) ||
    (97 ≤ unit.toNat && unit.toNat ≤ 122) || (48 ≤ unit.toNat && unit.toNat ≤ 57) ||
    unit == 95 || unit == 45

def isMessageId (value : JsText) : Bool :=
  decide (1 ≤ value.length) && decide (value.length ≤ 64) && value.all isMessageIdChar

theorem fromBase64_toBase64 (bytes : List UInt8) : fromBase64 (toBase64 bytes) = some bytes :=
  decodePadded_encodePadded (by decide +kernel) (by decide +kernel) (by decide +kernel) bytes

theorem length_toBase64 (bytes : List UInt8) :
  (toBase64 bytes).length = 4 * ((bytes.length + 2) / 3) :=
  length_encodePadded B64 padding bytes

/- The client's payment ids are message ids. -/
theorem isMessageId_newId {random : List UInt8} (hRandom : random.length = SID_BYTES) :
  isMessageId (newId random) = true := by
  have hLen : (newId random).length = 22 := by
    unfold newId toBase64Url
    rw [length_encode, hRandom]
    rfl
  have hGroups : ∀ value ∈ sextets random, value < B64URL.length := by
    have hAlphabet : B64URL.length = 64 := by decide +kernel
    rw [hAlphabet]
    exact sextets_lt random
  have hAll : B64URL.all isMessageIdChar = true := by decide +kernel
  rw [List.all_eq_true] at hAll
  have hChars : (newId random).all isMessageIdChar = true := by
    rw [List.all_eq_true]
    intro unit hUnit
    exact hAll unit (mem_of_mem_digits hGroups hUnit)
  unfold isMessageId
  rw [hLen, hChars]
  rfl

-- Payment Tokens

structure CustomInstructions where
  derivationPrefix : JsText
  derivationSuffix : JsText
deriving DecidableEq

structure PaymentToken (τ : Type) where
  customInstructions : CustomInstructions
  transaction : τ
  amount : Number
  outputIndex : Option Number
deriving DecidableEq

def MAX_SATOSHIS : Int := 2100000000000000

def MAX_DERIVATION_CHARS : Nat := 400

def MAX_UINT32 : Int := 0xffffffff

def maxMessageBytes : Nat := 33554432

def isDerivationString (value : JsText) : Bool :=
  decide (value.length ≠ 0) &&
    decide (value.length ≤ MAX_DERIVATION_CHARS) &&
    (fromBase64 value).isSome

structure TokenFields (τ : Type) where
  derivationPrefix : JsText
  derivationSuffix : JsText
  amount : Number
  outputIndex : Number
  transaction : τ

def tokenFields {τ : Type} (token : PaymentToken τ) (fallbackOutputIndex : Option Number) :
  Except WebRTPayError (TokenFields τ) :=
  let derivationPrefix := token.customInstructions.derivationPrefix
  let derivationSuffix := token.customInstructions.derivationSuffix
  let outputIndex := (token.outputIndex <|> fallbackOutputIndex).getD (.integer 0)
  if !isDerivationString derivationPrefix || !isDerivationString derivationSuffix then
    throw (invalidPayment "Payment derivation prefix or suffix is invalid")
  else if !isIntInRange token.amount 1 MAX_SATOSHIS then
    throw (invalidPayment "Payment amount is invalid")
  else if !isIntInRange outputIndex 0 MAX_UINT32 then
    throw (invalidPayment "Payment output index is invalid")
  else
    return {
      derivationPrefix, derivationSuffix
      amount := token.amount
      outputIndex
      transaction := token.transaction }

inductive TransactionBytes where
| uint8Array (bytes : List UInt8)
| numbers (items : List Number)
deriving DecidableEq

/- An integer from 0 to 255, as `(b & 255) === b` says. -/
def isByte : Number → Bool
| .integer value => value % 256 == value
| .other _ => false

def isByteArray : TransactionBytes → Bool
| .uint8Array _ => true
| .numbers items => items.all isByte

/- The byte a typed array makes of a number. -/
def toUint8 : Number → UInt8
| .integer value => UInt8.ofNat (value % 256).toNat
| .other whole => UInt8.ofNat (whole % 256).toNat

/- `Uint8Array.from`. -/
def TransactionBytes.bytes :
  TransactionBytes → List UInt8
| .uint8Array bytes => bytes
| .numbers items => items.map toUint8

/- `Array.from` of a typed array. -/
def byteNumbers (bytes : List UInt8) : List Number :=
  bytes.map fun byte => .integer byte.toNat

structure PaymentOutput where
  satoshis : Number
  lockingScript : JsText
deriving DecidableEq

structure PaymentTransaction where
  outputs : List PaymentOutput
  txid : JsText

def parsePaymentTransaction
  (fromAtomicBEEF : List UInt8 → Option PaymentTransaction) (bytes : List UInt8) :
  Except WebRTPayError PaymentTransaction :=
  if bytes.length = 0 ∨ maxMessageBytes < bytes.length then
    throw (invalidPayment "Payment transaction size is out of range")
  else
    match fromAtomicBEEF bytes with
    | some tx => return tx
    | none => throw (invalidPayment "Payment transaction is not valid Atomic BEEF")

theorem byteNumbers_bytes {items : List Number} (hBytes : isByteArray (.numbers items) = true) :
  byteNumbers (TransactionBytes.numbers items).bytes =
    items := by
  have hItems : ∀ item ∈ items, isByte item = true := List.all_eq_true.mp hBytes
  have hEach : ∀ item ∈ items, Number.integer (toUint8 item).toNat = id item := by
    intro item hItem
    have hByte := hItems item hItem
    cases item with
    | other whole => cases hByte
    | integer value =>
      simp only [isByte, beq_iff_eq] at hByte
      have hBound : (value % 256).toNat < 256 := by omega
      have hValue : (value % 256).toNat = value := by omega
      change Number.integer (UInt8.ofNat (value % 256).toNat).toNat = Number.integer value
      rw [UInt8.toNat_ofNat', Nat.mod_eq_of_lt hBound, hValue]
  unfold byteNumbers TransactionBytes.bytes
  rw [List.map_map]
  change items.map (fun item => Number.integer (toUint8 item).toNat) = items
  rw [List.map_congr_left hEach, List.map_id]

-- Payment Requests

def MAX_REQUEST_ID_BYTES : Nat := 1024

def MAX_DESCRIPTION_BYTES : Nat := 2000

def isLowerHexChar (unit : UInt16) : Bool :=
  (48 ≤ unit.toNat && unit.toNat ≤ 57) || (97 ≤ unit.toNat && unit.toNat ≤ 102)

/- Sixty-four digits of base 16 in lower case. -/
def isLowerHex64 (value : JsText) : Bool :=
  decide (value.length = 64) && value.all isLowerHexChar

/-
  A compressed public key: `isPoint` says whether it is read
  as a point of the curve and written the same.
-/
def isIdentityKey (isPoint : JsText → Bool) (value : JsText) : Bool :=
  decide (value.length = 66) && (value.take 2 == Json.text "02" ||
      value.take 2 == Json.text "03") &&
    (value.drop 2).all isLowerHexChar && isPoint value

inductive PaymentRequestMessage where
| new (requestId senderIdentityKey : JsText)
    (amount : Number) (description : JsText) (expiresAt : Number) (requestProof : JsText)
| cancellation
    (requestId senderIdentityKey requestProof : JsText)

def normalizePaymentRequest (isPoint : JsText → Bool) (value : Option Json) (sender : JsText) :
  Except WebRTPayError PaymentRequestMessage :=
  match plainRecord value with
  | none => throw (malformed "Payment request is not an object")
  | some r =>
    match field r "senderIdentityKey" with
    | some (.string claimed) =>
      if !isIdentityKey isPoint sender || claimed != sender then
        throw (malformed "Payment request sender does not match the peer")
      else
        match field r "requestId" with
        | some (.string requestId) =>
          if !isBoundedText requestId MAX_REQUEST_ID_BYTES then
            throw (malformed "Payment request ID is invalid")
          else afterId r sender requestId
        | _ => throw (malformed "Payment request ID is invalid")
    | _ => throw (malformed "Payment request sender does not match the peer")
where
  afterId
      (r : List (JsText × Json))
      (sender requestId : JsText) :
      Except WebRTPayError PaymentRequestMessage :=
    match field r "requestProof" with
    | some (.string requestProof) =>
      if !isLowerHex64 requestProof then throw (malformed "Payment request proof is invalid")
      else
        match optional (field r "cancelled") with
        | some (.bool true) => return .cancellation requestId sender requestProof
        | none | some (.bool false) => afterCancelled r sender requestId requestProof
        | some _ => throw (malformed "Payment request cancelled flag is invalid")
    | _ => throw (malformed "Payment request proof is invalid")
  afterCancelled
      (r : List (JsText × Json))
      (sender requestId requestProof : JsText) :
      Except WebRTPayError PaymentRequestMessage :=
    match field r "amount", field r "expiresAt" with
    | some (.number amount), some (.number expiresAt) =>
      if !isIntInRange (.integer amount) 1 MAX_SAFE_INTEGER ||
          !isIntInRange (.integer expiresAt) 1 MAX_SAFE_INTEGER then
        throw (malformed "Payment request amount or expiry is invalid")
      else
        match field r "description" with
        | some (.string description) =>
          if !isBoundedText description MAX_DESCRIPTION_BYTES then
            throw (malformed "Payment request description is invalid")
          else
            return .new requestId sender (.integer amount)
              description (.integer expiresAt) requestProof
        | _ => throw (malformed "Payment request description is invalid")
    | _, _ => throw (malformed "Payment request amount or expiry is invalid")

inductive PaymentRequestResponse where
| declined (requestId : JsText) (note : Option JsText)
| paid (requestId : JsText) (amountPaid : Number)
    (note : Option JsText)

def normalizePaymentRequestResponse (value : Option Json) :
  Except WebRTPayError PaymentRequestResponse :=
  match plainRecord value with
  | none => throw (malformed "Payment request response is not an object")
  | some r =>
    match field r "requestId" with
    | some (.string requestId) =>
      if !isBoundedText requestId MAX_REQUEST_ID_BYTES then
        throw (malformed "Payment request response ID is invalid")
      else
        match optional (field r "note") with
        | none => withNote r requestId none
        | some (.string note) =>
          if !isBoundedText note MAX_DESCRIPTION_BYTES then
            throw (malformed "Payment request response note is invalid")
          else withNote r requestId (some note)
        | some _ => throw (malformed "Payment request response note is invalid")
    | _ => throw (malformed "Payment request response ID is invalid")
where
  withNote
      (r : List (JsText × Json))
      (requestId : JsText)
      (note : Option JsText) :
      Except WebRTPayError PaymentRequestResponse :=
    match field r "status" with
    | some (.string status) =>
      if status = Json.text "declined" then return .declined requestId note
      else
        match field r "amountPaid" with
        | some (.number amountPaid) =>
          if status ≠ Json.text "paid" ∨ isIntInRange (.integer amountPaid) 1
                MAX_SAFE_INTEGER = false then
            throw (malformed "Payment request response status or amount is invalid")
          else return .paid requestId (.integer amountPaid) note
        | _ => throw (malformed "Payment request response status or amount is invalid")
    | _ => throw (malformed "Payment request response status or amount is invalid")

end TsStack.WebRtPay
