import TsStack.Primitives.TransactionSignature
import TsStack.Script.SpendState

/-
  Signature and public key handling of `script/Spend.ts`.
-/

-- Signature Format

namespace TsStack

/- An element as a number; past the end it is `undefined`. -/
def elementAt (buf : Bytes) (i : Nat) : Option Nat :=
  buf[i]?.map UInt8.toNat

/- The checks on one integer of `isChecksigFormatHelper`: negative or excessively padded. -/
def isBadInteger (buf : Bytes) (offset length : Nat) : Bool :=
  let first := (elementAt buf offset).getD 0
  let second := (elementAt buf (offset + 1)).getD 0
  first &&& 0x80 ≠ 0 || (length > 1 && elementAt buf offset = some 0 && second &&& 0x80 = 0)

def isChecksigFormatHelper (buf : Bytes) : Bool :=
  if buf.length < 9 || buf.length > 73 then false
  else if elementAt buf 0 ≠ some 0x30 then false
  else if elementAt buf 1 ≠ some (buf.length - 3) then false
  else
    let rLen := (elementAt buf 3).getD 0
    if elementAt buf 2 ≠ some 0x02 then false
    else if rLen = 0 then false
    else if 5 + rLen ≥ buf.length then false
    else
      let sMarkerOffset := 4 + rLen
      let sLen := (elementAt buf (sMarkerOffset + 1)).getD 0
      if elementAt buf sMarkerOffset ≠ some 0x02 then false
      else if sLen = 0 then false
      else if isBadInteger buf 4 rLen then false
      else if isBadInteger buf (sMarkerOffset + 2) sLen then false
      else rLen + sLen + 7 = buf.length

-- Lax Signatures

/- The signed 32-bit value of an integer. -/
def toInt32 (n : Int) : Int :=
  (n + 2 ^ 31) % 2 ^ 32 - 2 ^ 31

def elementAtInt (buf : Bytes) (i : Int) : Option Nat :=
  if i < 0 then none else elementAt buf i.toNat

/- The index an argument of `Array.prototype.slice` means. -/
def sliceIndex (length : Nat) (i : Int) : Nat :=
  if i < 0 then (length + i).toNat else min i.toNat length

/- `Array.prototype.slice`. -/
def sliceInt (buf : Bytes) (start stop : Int) : Bytes :=
  let first := sliceIndex buf.length start
  (buf.drop first).take (sliceIndex buf.length stop - first)

/- The length bytes of `#readLaxDERLength`. -/
def readLengthBytes (buf : Bytes) :
  Nat → Int → Int → Int × Int
| 0, position, length => (length, position)
| count + 1, position, length =>
  readLengthBytes buf count (position + 1)
    (toInt32 (length * 256) + (elementAtInt buf position).getD 0)

def readLaxDERLength (buf : Bytes) (position : Int) : Except JsError (Int × Int) :=
  match elementAtInt buf position with
  | none => .error (.error "Invalid DER length")
  | some first =>
    if first &&& 0x80 = 0 then .ok (first, position + 1)
    else
      let lengthBytes := first &&& 0x7f
      if lengthBytes = 0 ∨ position + 1 + lengthBytes > buf.length then
        .error (.error "Invalid DER length")
      else .ok (readLengthBytes buf lengthBytes (position + 1) 0)

/- The big-endian number of a byte string. -/
def beToNat (bytes : Bytes) : Nat :=
  LittleEndian.leToNat bytes.reverse

def parseLaxDERInteger (buf : Bytes) (position sequenceEnd : Int) :
  Except JsError (Int × Int) :=
  if position ≥ sequenceEnd ∨ elementAtInt buf position ≠ some 0x02 then
    .error (.error "Invalid DER integer")
  else do
    let (length, position) ← readLaxDERLength buf (position + 1)
    if position + length > sequenceEnd then .error (.error "Invalid DER integer length")
    else
      let bytes := sliceInt buf position (position + length)
      return (beToNat bytes, position + length)

/- `#parseLaxChecksigSignature` of a non-empty array. -/
def parseLaxChecksigSignature (buf : Bytes) : Except JsError TransactionSignature :=
  let scope := (buf.getLastD 0).toNat
  let der := buf.dropLast
  if elementAt der 0 ≠ some 0x30 then .error (.error "Signature DER must start with 0x30")
  else do
    let (sequenceLength, position) ← readLaxDERLength der 1
    let sequenceEnd := min (position + sequenceLength) der.length
    let (r, position) ← parseLaxDERInteger der position sequenceEnd
    let (s, _) ← parseLaxDERInteger der position sequenceEnd
    return { r := r, s := s, scope := scope }

-- Encoding Checks

namespace TransactionSignature

/- Half of the group order, the largest low `s`. -/
def maxLowS : Int :=
  0x7FFFFFFFFFFFFFFFFFFFFFFFFFFFFFFF5D576E7357A4501DDFE92F46681B20A0

def hasLowS (sig : TransactionSignature) : Bool :=
  1 ≤ sig.s && sig.s ≤ maxLowS

/- `fromChecksigFormat`, with `Signature.fromDER`. -/
def fromChecksigFormat (fromDER : Bytes → Except JsError (Int × Int))
  (buf : Bytes) : Except JsError TransactionSignature :=
  if buf = [] then .ok { r := 1, s := 1, scope := 1 }
  else do
    let (r, s) ← fromDER buf.dropLast
    return { r := r, s := s, scope := (buf.getLastD 0).toNat }

end TransactionSignature

namespace SpendParams

open TransactionSignature

variable (params : SpendParams)

def isDefinedHashType (scope : Nat) : Bool :=
  SIGHASH_ALL ≤ scope &&& 0x1f && scope &&& 0x1f ≤ SIGHASH_SINGLE

/- `#enforceSignatureHashType` throws nothing. -/
def acceptsHashType (sig : TransactionSignature) : Bool :=
  if params.shouldEnforceStrictEncoding then
    let usesChronicle := sig.scope &&& SIGHASH_CHRONICLE ≠ 0
    let chronicleEnabled :=
      if params.hasExplicitFlags then params.hasFlag "CHRONICLE"
      else params.isAfterChronicle
    isDefinedHashType sig.scope && !(usesChronicle && !chronicleEnabled)
  else true

/- `#enforceSignatureForkId` throws nothing. -/
def acceptsForkId (sig : TransactionSignature) : Bool :=
  if params.hasExplicitFlags && params.hasFlag "STRICTENC"
  then
    let hasForkId := sig.scope &&& SIGHASH_FORKID ≠ 0
    let needsForkId := params.hasFlag "SIGHASH_FORKID"
    !(needsForkId && !hasForkId) && !(!needsForkId && !params.isAfterGenesis && hasForkId)
  else true

/-
  The `try` block of `#checkSignatureEncoding` throws
  nothing; its `catch` replaces every error it throws.
-/
def acceptsSignature (buf : Bytes) : Bool :=
  match params.crypto.fromChecksigFormat buf with
  | .error _ => false
  | .ok sig =>
    params.acceptsHashType sig && params.acceptsForkId sig &&
      !(params.shouldEnforceLowS && !sig.hasLowS)

def parseChecksigSignature (buf : Bytes) : Except JsError TransactionSignature :=
  match params.crypto.fromChecksigFormat buf with
  | .ok sig => .ok sig
  | .error error =>
    if params.shouldEnforceDerSignatures then .error error
    else if buf = [] then params.crypto.fromChecksigFormat buf
    else parseLaxChecksigSignature buf

end SpendParams

namespace Spend

def checkSignatureEncoding (buf : Bytes) : SpendM Unit := do
  let params ← read
  errorIf (buf ≠ [] ∧ params.shouldEnforceDerSignatures = true ∧
      (isChecksigFormatHelper buf = false ∨ params.acceptsSignature buf = false))
    "The signature format is invalid."

def checkPublicKeyEncoding (buf : Bytes) : SpendM Unit := do
  let params ← read
  if params.shouldEnforceStrictEncoding then
    errorIf (buf.length = 0) "Public key is empty."
    errorIf (buf.length < 33) ("The public key is too short, it must be at least " ++ "33 bytes.")
    if elementAt buf 0 = some 0x04 then
      errorIf (buf.length ≠ 65) "The non-compressed public key must be 65 bytes."
    else if elementAt buf 0 = some 0x02 ∨ elementAt buf 0 = some 0x03 then
      errorIf (buf.length ≠ 33) "The compressed public key must be 33 bytes."
    else scriptEvaluationError "The public key is in an unknown format."
    errorIf ((params.crypto.publicKeyFromDER buf).isOk = false)
      "The public key is in an unknown format."
  else pure ()

-- Subscripts and Verification

open TransactionSignature

def chunkValues (spend : Spend) (chunks : List (Option SpendChunk)) : ChunkArray :=
  chunks.map fun chunk =>
    chunk.map fun chunk =>
      { op := chunk.op
        data := chunk.data.map (spend.arrays.getD · [])
        invalidLength := chunk.invalidLength }

def contextScript (spend : Spend) : SpendScript :=
  match spend.context with
  | .unlockingScript => spend.unlockingScript
  | .lockingScript => spend.lockingScript

def scriptCodeChunks (spend : Spend) : List (Option SpendChunk) :=
  spend.contextScript.chunks.drop (match spend.lastCodeSeparator with
    | none => 0
    | some separator => separator + 1)

/- `new Script(chunks)`. -/
def subscriptOf (spend : Spend) (chunks : List (Option SpendChunk)) : Script :=
  { Script.ofChunks [] with
    chunkArray := spend.chunkValues chunks }

def deleteSignature (subscript : Script) (bufSig : Bytes) : Except JsError Script := do
  let pushed ← (Script.ofChunks []).writeBin bufSig
  subscript.findAndDelete (.other pushed)

def deletesSignature (params : SpendParams) (scope : Nat) : Bool :=
  scope &&& SIGHASH_FORKID = 0 || (params.hasExplicitFlags && !params.hasFlag "SIGHASH_FORKID")

/- The `try` block of `OP_CHECKSIG`. -/
def verifyChecksig
  (params : SpendParams) (spend : Spend) (bufSig bufPubkey : Bytes) : Except JsError Bool := do
  let sig ← params.parseChecksigSignature bufSig
  let chunks :=
    match spend.context with
    | .unlockingScript => spend.scriptCodeChunks ++ spend.lockingScript.chunks
    | .lockingScript => spend.scriptCodeChunks
  let subscript := spend.subscriptOf chunks
  let subscript ←
    if deletesSignature params sig.scope then deleteSignature subscript bufSig
    else pure subscript
  let pubkey ← params.crypto.publicKeyFromDER bufPubkey
  params.crypto.verify sig pubkey subscript

/- `fSuccess` of `OP_CHECKSIG`. -/
def checksigSucceeds (params : SpendParams) (spend : Spend) (bufSig bufPubkey : Bytes) : Bool :=
  if bufSig = [] then false
  else
    match verifyChecksig params spend bufSig bufPubkey with
    | .ok success => success
    | .error _ => false

/- `fOk` of one comparison in `OP_CHECKMULTISIG`. -/
def multisigKeyMatches
  (params : SpendParams) (subscript : Script) (bufSig bufPubkey : Bytes) : Bool :=
  if bufSig = [] then false
  else
    let result : Except JsError Bool := do
      let sig ← params.parseChecksigSignature bufSig
      let pubkey ← params.crypto.publicKeyFromDER bufPubkey
      params.crypto.verify sig pubkey subscript
    match result with
    | .ok success => success
    | .error _ => false

end Spend

end TsStack
