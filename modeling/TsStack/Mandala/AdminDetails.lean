import TsStack.Cbor.RoundTrip
import TsStack.Mandala.AssetState
import TsStack.Primitives.Decimal
import TsStack.Primitives.Hash

/-
  Admin details and their codec, `mandala/details.ts`.

  The fields of a record are a value for each field it may
  have.  `publicKeyHex` stands for what the key library makes
  of 33 bytes: the compressed form of the point, and nothing
  where it throws.
-/

-- Kinds and Fields

namespace TsStack.MandalaDetails

open Cbor Mandala

def textOf (text : String) : CborText :=
  UnicodeText.units text.toList

def kindName : AdminKind → CborText
| .issue => textOf "issue"
| .redeem => textOf "redeem"
| .reissue => textOf "reissue"
| .pause => textOf "pause"
| .unpause => textOf "unpause"
| .blockIdentity => textOf "blockIdentity"
| .unblockIdentity => textOf "unblockIdentity"
| .allowIdentity => textOf "allowIdentity"
| .unallowIdentity => textOf "unallowIdentity"
| .setAccessMode => textOf "setAccessMode"
| .freezeOutput => textOf "freezeOutput"
| .unfreezeOutput => textOf "unfreezeOutput"
| .setFeeRate => textOf "setFeeRate"
| .admitIdentity => textOf "admitIdentity"
| .revokeIdentity => textOf "revokeIdentity"

def ADMIN_KINDS : List AdminKind :=
  [.issue, .redeem, .reissue, .pause, .unpause, .blockIdentity, .unblockIdentity, .allowIdentity,
    .unallowIdentity, .setAccessMode, .freezeOutput, .unfreezeOutput, .setFeeRate]

def REGISTRY_KINDS : List AdminKind :=
  [.admitIdentity, .revokeIdentity]

inductive Field where
| bankRef
| outpoint
| recipient
| identityKey
| mode
| feeRatePerKb
| reason
deriving DecidableEq, Repr

def Field.name : Field → CborText
| .bankRef => textOf "bankRef"
| .outpoint => textOf "outpoint"
| .recipient => textOf "recipient"
| .identityKey => textOf "identityKey"
| .mode => textOf "mode"
| .feeRatePerKb => textOf "feeRatePerKb"
| .reason => textOf "reason"

abbrev FieldValue : Field → Type
| .bankRef => Bytes
| .outpoint => JsString
| .recipient => JsString
| .identityKey => JsString
| .mode => AccessMode
| .feeRatePerKb => Option UInt64
| .reason => CborText

/- The fields that are present. -/
abbrev FieldValues :=
  (field : Field) → Option (FieldValue field)

structure AdminDetails where
  kind : AdminKind
  fields : FieldValues

/- Keys of a kind.  Every kind also accepts `reason`. -/
structure KindSchema where
  required : List Field
  optional : List Field

def NO_KEYS : KindSchema := ⟨[], []⟩
def IDENTITY : KindSchema := ⟨[.identityKey], []⟩
def OUTPOINT : KindSchema := ⟨[.outpoint], []⟩

def SCHEMAS : AdminKind → KindSchema
| .issue => ⟨[], [.bankRef]⟩
| .redeem => NO_KEYS
| .reissue => ⟨[.outpoint, .recipient], []⟩
| .pause => NO_KEYS
| .unpause => NO_KEYS
| .blockIdentity => IDENTITY
| .unblockIdentity => IDENTITY
| .allowIdentity => IDENTITY
| .unallowIdentity => IDENTITY
| .setAccessMode => ⟨[.mode], []⟩
| .freezeOutput => OUTPOINT
| .unfreezeOutput => OUTPOINT
| .setFeeRate => ⟨[.feeRatePerKb], []⟩
| .admitIdentity => IDENTITY
| .revokeIdentity => IDENTITY

def keysOf (schema : KindSchema) : List Field :=
  schema.required ++ schema.optional ++ [.reason]

-- Field Readers

def BANK_REF_BYTES : Nat := 32
def TXID_BYTES : Nat := 32
def OUTPOINT_BYTES : Nat := 36
def KEY_BYTES : Nat := 33
def MAX_VOUT : Nat := 0xffffffff

def readBytes (value : StrictCborValue) (length : Nat) : Option Bytes :=
  match value with
  | .bytes bytes => if bytes.length = length then some bytes else none
  | _ => none

def readBankRef (value : StrictCborValue) : Option Bytes :=
  readBytes value BANK_REF_BYTES

/- `<display txid>.<vout>`. -/
def outpointText (txid : Bytes) (vout : Nat) : JsString :=
  toHex txid ++ '.' :: Nat.toDigits 10 vout

/- The txid in natural order, then the vout. -/
def readOutpoint (value : StrictCborValue) : Option JsString :=
  (readBytes value OUTPOINT_BYTES).map fun bytes =>
    outpointText (bytes.take TXID_BYTES).reverse (LittleEndian.leToNat (bytes.drop TXID_BYTES))

/- Compressed, and the same when it is encoded again. -/
def readPublicKey
  (publicKeyHex : Bytes → Option JsString) (value : StrictCborValue) : Option JsString := do
  let bytes ← readBytes value KEY_BYTES
  let hex := toHex bytes
  if publicKeyHex bytes = some hex then some hex else none

def modeName : AccessMode → CborText
| .denylist => textOf "denylist"
| .allowlist => textOf "allowlist"

def readMode : StrictCborValue → Option AccessMode
| .text value =>
  if value = modeName .denylist then some .denylist
  else if value = modeName .allowlist then some .allowlist
  else none
| _ => none

/- `Number` of a safe integer that is not negative. -/
def numberOf (value : Nat) : UInt64 :=
  if value = 0 then 0
  else
    let size := Nat.log2 value
    UInt64.ofNat ((1023 + size) * 2 ^ 52 + (value * 2 ^ (52 - size) - 2 ^ 52))

def readFeeRate : StrictCborValue → Option (Option UInt64)
| .null => some none
| .integer value =>
  if 1 ≤ value ∧ value ≤ MAX_SAFE_INTEGER then some (some (numberOf value.toNat))
  else none
| _ => none

def readText : StrictCborValue → Option CborText
| .text value => some value
| _ => none

def FEE_RATE_RULE : String :=
  "feeRatePerKb must be a safe integer >= 1 or null"

def Field.read (publicKeyHex : Bytes → Option JsString) :
  (field : Field) → StrictCborValue → Option (FieldValue field)
| .bankRef, value => readBankRef value
| .outpoint, value => readOutpoint value
| .recipient, value => readPublicKey publicKeyHex value
| .identityKey, value => readPublicKey publicKeyHex value
| .mode, value => readMode value
| .feeRatePerKb, value => readFeeRate value
| .reason, value => readText value

def Field.rule : Field → String
| .bankRef => "bankRef must be 32 bytes"
| .outpoint => "outpoint must be 36 bytes"
| .recipient => "recipient must be a 33-byte compressed public key"
| .identityKey => "identityKey must be a 33-byte compressed public key"
| .mode => "mode must be denylist or allowlist"
| .feeRatePerKb => FEE_RATE_RULE
| .reason => "reason must be text"

-- Decoding

inductive MandalaRejectCode where
| ERR_SHAPE
deriving DecidableEq, Repr

structure MandalaReject where
  code : MandalaRejectCode
  reason : CborText
deriving DecidableEq, Repr

def detailsSchema (outputIndex : Nat) (detail : CborText) : MandalaReject :=
  ⟨.ERR_SHAPE, textOf "output " ++ UnicodeText.units (Nat.toDigits 10 outputIndex) ++
      textOf ": admin details violate the schema (" ++ detail ++ textOf ")"⟩

abbrev Fail := CborText → MandalaReject

def isLowercaseHexDigit (char : Char) : Bool :=
  isDigit char || ('a' ≤ char && char ≤ 'f')

def isLowercaseHex (text : JsString) : Bool :=
  text != [] && text.length % 2 == 0 && text.all isLowercaseHexDigit

def decodeMap (bytes : Bytes) (fail : Fail) : Except MandalaReject CborEntries :=
  match decodeStrictCbor bytes with
  | .ok map => .ok map
  | .error e => .error (fail (textOf e.message))

def lookup (map : CborEntries) (key : CborText) : Option StrictCborValue :=
  (map.find? fun entry => entry.1 == key).map (·.2)

def cborKeyRank (key : CborText) : JsString :=
  let bytes := textBytes key
  List.leftpad 4 '0' (Nat.toDigits 16 bytes.length) ++ toHex bytes

def firstInCborOrder (keys : List CborText) : Option CborText :=
  (keys.mergeSort fun a b => decide (cborKeyRank a < cborKeyRank b)).head?

def kindOf (kind : CborText) : Option AdminKind :=
  (ADMIN_KINDS ++ REGISTRY_KINDS).find? fun known => kindName known == kind

def readKind
  (map : CborEntries) (allowed : List CborText) (fail : Fail) : Except MandalaReject AdminKind :=
  match lookup map (textOf "kind") with
  | none => .error (fail (textOf "missing key kind"))
  | some (.text kind) =>
    match kindOf kind with
    | some known =>
      if kind ∈ allowed then .ok known
      else .error (fail (textOf "kind " ++ kind ++ textOf " is not allowed"))
    | none => .error (fail (textOf "kind " ++ kind ++ textOf " is not allowed"))
  | some _ => .error (fail (textOf "kind must be text"))

def knownKeys (schema : KindSchema) : List CborText :=
  textOf "kind" :: (keysOf schema).map Field.name

def rejectUnknownKeys
  (map : CborEntries) (schema : KindSchema) (fail : Fail) : Except MandalaReject Unit :=
  match firstInCborOrder ((map.map Prod.fst).filter fun key =>
        !(knownKeys schema).contains key) with
  | some unknown => .error (fail (textOf "unknown key " ++ unknown))
  | none => .ok ()

def readField (publicKeyHex : Bytes → Option JsString) (field : Field) (value : StrictCborValue)
  (fail : Fail) : Except MandalaReject (FieldValue field) :=
  match field.read publicKeyHex value with
  | some decoded => .ok decoded
  | none => .error (fail (textOf field.rule))

def readFieldsFrom
  (publicKeyHex : Bytes → Option JsString) (map : CborEntries) (schema : KindSchema)
  (fail : Fail) :
  List Field → FieldValues → Except MandalaReject FieldValues
| [], fields => .ok fields
| field :: rest, fields =>
  match lookup map field.name with
  | some value => do
      let decoded ← readField publicKeyHex field value fail
      readFieldsFrom publicKeyHex map schema fail rest (Function.update fields field (some decoded))
  | none =>
    if schema.required.contains field then .error (fail (textOf "missing key " ++ field.name))
    else readFieldsFrom publicKeyHex map schema fail rest fields

def readFields (publicKeyHex : Bytes → Option JsString) (map : CborEntries) (schema : KindSchema)
  (fail : Fail) : Except MandalaReject FieldValues :=
  readFieldsFrom publicKeyHex map schema fail (keysOf schema) (fun _ => none)

structure DecodedDetails where
  details : AdminDetails
  commitment : Bytes

def decodeAdminDetails
  (publicKeyHex : Bytes → Option JsString) (detailsHex : JsString) (allowed : List CborText)
  (outputIndex : Nat) : Except MandalaReject DecodedDetails :=
  let fail := detailsSchema outputIndex
  if isLowercaseHex detailsHex then
    match hexToUint8Array detailsHex with
    | .error _ => .error (fail (textOf "details must be lowercase hex"))
    | .ok bytes => do
        let map ← decodeMap bytes fail
        let kind ← readKind map allowed fail
        let schema := SCHEMAS kind
        rejectUnknownKeys map schema fail
        let fields ← readFields publicKeyHex map schema fail
        return ⟨⟨kind, fields⟩, sha256 bytes⟩
  else .error (fail (textOf "details must be lowercase hex"))

-- Encoding

/- A number without leading zeros, of ten digits at most. -/
def isVoutText : JsString → Bool
| ['0'] => true
| char :: rest =>
  isDigit char && char != '0' && rest.all isDigit && decide (rest.length ≤ 9)
| [] => false

/- `OUTPOINT_TEXT`: the two groups it captures. -/
def matchOutpoint (outpoint : JsString) : Option (JsString × JsString) :=
  let txid := outpoint.take 64
  match outpoint.drop 64 with
  | '.' :: vout =>
    if txid.length = 64 ∧ txid.all isLowercaseHexDigit ∧ isVoutText vout then some (txid, vout)
    else none
  | _ => none

def outpointError : JsError :=
  .error "outpoint must be <64 lowercase hex txid>.<vout 0..4294967295>"

def outpointBytes (outpoint : JsString) : Except JsError Bytes :=
  match matchOutpoint outpoint with
  | none => .error outpointError
  | some (txidText, voutText) =>
    let vout := numberOfDigits voutText
    if vout > MAX_VOUT then .error outpointError
    else do
      let txid ← hexToUint8Array txidText
      return txid.reverse ++ LittleEndian.leBytes 4 vout

def keyBytes (hex : JsString) : Except JsError Bytes :=
  hexToUint8Array hex

def Field.encode :
  (field : Field) → FieldValue field → Except JsError StrictCborValue
| .bankRef, value => .ok (.bytes value)
| .outpoint, value => do
    let bytes ← outpointBytes value
    return .bytes bytes
| .recipient, value => do
    let bytes ← keyBytes value
    return .bytes bytes
| .identityKey, value => do
    let bytes ← keyBytes value
    return .bytes bytes
| .mode, value => .ok (.text (modeName value))
| .feeRatePerKb, none => .ok .null
| .feeRatePerKb, some value => .ok (.number value)
| .reason, value => .ok (.text value)

def allFields : List Field :=
  [.bankRef, .outpoint, .recipient, .identityKey, .mode, .feeRatePerKb, .reason]

def fieldEntries (fields : FieldValues) :
  List Field → Except JsError CborEntries
| [] => .ok []
| field :: rest =>
  match fields field with
  | some decoded => do
      let value ← field.encode decoded
      let entries ← fieldEntries fields rest
      return (field.name, value) :: entries
  | none => fieldEntries fields rest

def detailEntries (d : AdminDetails) :
  Except JsError CborEntries := do
  let entries ← fieldEntries d.fields allFields
  return (textOf "kind", .text (kindName d.kind)) :: entries

/- Absent keys are left out, and no schema is checked. -/
def encodeAdminDetails (d : AdminDetails) :
  Except JsError Bytes := do
  let entries ← detailEntries d
  match encodeStrictCbor entries with
  | .ok bytes => .ok bytes
  | .error e => .error (.error e.message)

end TsStack.MandalaDetails
