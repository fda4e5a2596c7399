import TsStack.Lib.StateProgram
import TsStack.Transaction.Transaction

/-
  The signature preimages of
  `primitives/TransactionSignature.ts`.

  A formatting program reads the transaction objects and may
  read and fill a cache of hashes, which stays as it was
  filled when the program throws.
-/

-- Parameters

namespace TsStack

open LittleEndian

structure SignatureHashCache where
  hashPrevouts : Option Bytes := none
  hashSequence : Option Bytes := none
  hashOutputsAll : Option Bytes := none
  hashOutputsSingle : Option (MemoTable Nat Bytes) := none

structure TransactionSignatureFormatParams where
  sourceTXID : JsString
  sourceOutputIndex : Nat
  sourceSatoshis : Nat
  transactionVersion : Nat
  otherInputs : List TransactionInput
  allInputs : Option (List TransactionInput)
  outputs : List TransactionOutput
  inputIndex : Nat
  subscript : Bytes
  inputSequence : Nat
  lockTime : Nat
  scope : Nat
  ignoreChronicle : Bool
  sighashForkIdEnabled : Bool

abbrev SignatureFormat :=
  StateProgram TransactionHeap JsError (Option SignatureHashCache)

namespace TransactionSignature

abbrev SIGHASH_ALL : Nat := 0x01
abbrev SIGHASH_NONE : Nat := 0x02
abbrev SIGHASH_SINGLE : Nat := 0x03
abbrev SIGHASH_CHRONICLE : Nat := 0x20
abbrev SIGHASH_FORKID : Nat := 0x40
abbrev SIGHASH_ANYONECANPAY : Nat := 0x80

end TransactionSignature

/- `Writer.writeUInt64LE`; `-1` is the dummy amount. -/
def writeUInt64LE (n : Int) : Except JsError Bytes :=
  if n = -1 then .ok (List.replicate 8 0xff)
  else if n.natAbs ≤ maxSafeInteger then .ok (leBytes 8 n.natAbs)
  else .error (.error "The number is larger than 2 ^ 53 (unsafe)")

/- `writer.writeReverse(toArray(txid, 'hex'))`. -/
def writeReverseHex (txid : JsString) : Except JsError Bytes := do
  let bytes ← hexToUint8Array txid
  return bytes.reverse

def TransactionHeap.hashBinary
  (heap : TransactionHeap) (ref : TransactionRef) : Except JsError Bytes := do
  let bytes ← heap.serialize ref
  return hash256 bytes

-- Original Digests

def originalPushLength (source : Bytes) (position opcode : Nat) : Option (Nat × Nat) :=
  let byte := fun (offset : Nat) => (source.getD (position + offset) 0).toNat
  if 0 < opcode ∧ opcode < 0x4c then some (opcode, position)
  else if opcode = 0x4c then
    if source.length - position < 1 then none
    else some (byte 0, position + 1)
  else if opcode = 0x4d then
    if source.length - position < 2 then none
    else some (byte 0 + 256 * byte 1, position + 2)
  else if opcode = 0x4e then
    if source.length - position < 4 then none
    else some (byte 0 + 256 * byte 1 + 65536 * byte 2 + 16777216 * byte 3, position + 4)
  else some (0, position)

/- The local variables of `originalScriptCode`. -/
structure ScriptWalk where
  bytes : Bytes := []
  position : Nat := 0
  segmentStart : Nat := 0
  separators : Nat := 0

def ScriptWalk.appendSegment (walk : ScriptWalk) (source : Bytes) (stop : Nat) : Bytes :=
  walk.bytes ++ (source.take stop).drop walk.segmentStart

/- The loop of `originalScriptCode`, a byte or more a turn. -/
def walkScript (source : Bytes) : Nat → ScriptWalk → ScriptWalk
| 0, walk => walk
| turns + 1, walk =>
  match source[walk.position]? with
  | none => walk
  | some opcode =>
    let position := walk.position + 1
    match originalPushLength source position opcode.toNat with
    | none => { walk with position := position }
    | some (length, next) =>
      if source.length - next < length then { walk with position := next }
      else if opcode = 0xab then
        walkScript source turns
          { bytes := walk.appendSegment source walk.position
            position := next + length
            segmentStart := next + length
            separators := walk.separators + 1 }
      else walkScript source turns { walk with position := next + length }

/- `originalScriptCode`: the bytes and `encodedLength`. -/
def originalScriptCode (source : Bytes) : Bytes × Nat :=
  let walk := walkScript source source.length {}
  (walk.appendSegment source walk.position, source.length - walk.separators)

/- An input as `formatOTDA` writes it. -/
structure OtdaInput where
  sourceTXID : JsString
  sourceOutputIndex : Nat
  sequence : Nat
  script : Bytes
  scriptLength : Option Nat := none

/- An output as `formatOTDA` writes it. -/
structure OtdaOutput where
  satoshis : Int
  script : Bytes

def OtdaInput.write (input : OtdaInput) : Except JsError Bytes := do
  let txid ← writeReverseHex input.sourceTXID
  return txid ++ leBytes 4 input.sourceOutputIndex ++ varIntNum
        (input.scriptLength.getD input.script.length) ++
      input.script ++ leBytes 4 input.sequence

def OtdaOutput.write (output : OtdaOutput) : Except JsError Bytes := do
  let satoshis ← writeUInt64LE output.satoshis
  return satoshis ++ varIntNum output.script.length ++ output.script

variable (heap : TransactionHeap)

/- `input.sourceTXID ?? input.sourceTransaction?.id('hex')`. -/
def TransactionInput.resolvedTXID (input : TransactionInput) :
  Except JsError (Option JsString) :=
  match input.sourceTXID, input.sourceTransaction with
  | some sourceTXID, _ => .ok (some sourceTXID)
  | none, some source => do
      let txid ← heap.id source
      return some txid
  | none, none => .ok none

def otherOtdaInput (zeroSequence : Bool) (input : TransactionInput) :
  Except JsError OtdaInput := do
  let txid ← input.resolvedTXID heap
  return {
    sourceTXID := txid.getD []
    sourceOutputIndex := input.sourceOutputIndex
    sequence :=
      if zeroSequence then 0
      else input.sequence.getD 0xffffffff
    script := [] }

/- `inputs.splice(index, 0, input)`. -/
def spliceInput {α : Type} (inputs : List α) (index : Nat) (input : α) : List α :=
  inputs.take index ++ input :: inputs.drop index

/- The inputs of `formatOTDA`, unless anyone can pay. -/
def otdaInputs (zeroSequence : Bool) (params : TransactionSignatureFormatParams)
  (currentInput : OtdaInput) : Except JsError (List OtdaInput) :=
  match params.allInputs with
  | some allInputs =>
    allInputs.zipIdx.mapM fun entry =>
      if entry.2 = params.inputIndex then .ok currentInput
      else otherOtdaInput heap zeroSequence entry.1
  | none => do
      let inputs ← params.otherInputs.mapM (otherOtdaInput heap zeroSequence)
      return spliceInput inputs params.inputIndex currentInput

variable (params : TransactionSignatureFormatParams)

/- The outputs of `formatOTDA`. -/
def otdaOutputs (isSingle isNone : Bool) : List OtdaOutput :=
  let written := fun (output : TransactionOutput) =>
    ({ satoshis := (output.satoshis.getD 0 : Nat)
       script := output.lockingScript } : OtdaOutput)
  if isSingle then
    List.replicate params.inputIndex { satoshis := -1, script := [] } ++
      (params.outputs[params.inputIndex]?.map written).toList
  else if isNone then []
  else params.outputs.map written

def writeCounted (parts : List Bytes) : Bytes :=
  varIntNum parts.length ++ parts.flatten

def formatOTDA (params : TransactionSignatureFormatParams) :
  Except JsError Bytes := do
  let isAnyoneCanPay : Bool := params.scope &&& TransactionSignature.SIGHASH_ANYONECANPAY =
      TransactionSignature.SIGHASH_ANYONECANPAY
  let isSingle : Bool := params.scope &&& 31 = TransactionSignature.SIGHASH_SINGLE
  let isNone : Bool := params.scope &&& 31 = TransactionSignature.SIGHASH_NONE
  let subscript := originalScriptCode params.subscript
  let currentInput : OtdaInput :=
    { sourceTXID := params.sourceTXID
      sourceOutputIndex := params.sourceOutputIndex
      sequence := params.inputSequence
      script := subscript.1
      scriptLength := some subscript.2 }
  let inputs ←
    if isAnyoneCanPay then pure [currentInput]
    else otdaInputs heap (isSingle || isNone) params currentInput
  let writtenInputs ← inputs.mapM OtdaInput.write
  let writtenOutputs ← (otdaOutputs params isSingle isNone).mapM OtdaOutput.write
  return leBytes 4 params.transactionVersion ++
    writeCounted writtenInputs ++ writeCounted writtenOutputs ++
        leBytes 4 params.lockTime ++ leBytes 4 params.scope

-- BIP143

open TransactionSignature

def zeroHash : Bytes :=
  List.replicate 32 0

def bip143Inputs (currentInput : TransactionInput) :
  List TransactionInput :=
  match params.allInputs with
  | some allInputs => allInputs
  | none => spliceInput params.otherInputs params.inputIndex currentInput

variable (inputs : List TransactionInput)

/- `bip143InputAt` at each index. -/
def bip143InputsAt (inputIndex : Nat) (currentInput : TransactionInput) :
  List TransactionInput :=
  inputs.mapIdx fun index input => if index = inputIndex then currentInput else input

/- What `hashPrevouts` writes for an input. -/
def writePrevout (input : TransactionInput) : Except JsError Bytes := do
  let source ←
    match input.sourceTXID, input.sourceTransaction with
    | none, none => .error (.error "Missing sourceTransaction for input")
    | none, some source => heap.hashBinary source
    | some sourceTXID, _ => writeReverseHex sourceTXID
  return source ++ leBytes 4 input.sourceOutputIndex

def hashPrevouts (inputIndex : Nat)
  (currentInput : TransactionInput) :
  Except JsError Bytes := do
  let written ← (bip143InputsAt inputs inputIndex currentInput).mapM (writePrevout heap)
  return hash256 written.flatten

def hashSequences (inputIndex : Nat) (currentInput : TransactionInput) : Bytes :=
  hash256 ((bip143InputsAt inputs inputIndex currentInput).map
      fun input => leBytes 4 (input.sequence.getD 0xffffffff)).flatten

def writeBip143Output (output : TransactionOutput) : Except JsError Bytes := do
  let satoshis ← writeUInt64LE (output.satoshis.getD 0 : Nat)
  return satoshis ++ varIntNum output.lockingScript.length ++ output.lockingScript

def hashOutputs
  (outputs : List TransactionOutput) (outputIndex : Option Nat) : Except JsError Bytes :=
  match outputIndex with
  | none => do
      let written ← outputs.mapM writeBip143Output
      return hash256 written.flatten
  | some index =>
    match outputs[index]? with
    | none => .error (.error ("Output at index " ++ toString index ++ " does not exist"))
    | some output => do
        let written ← writeBip143Output output
        return hash256 written

def cachedHash (lookup : SignatureHashCache → Option Bytes)
  (remember : Bytes → SignatureHashCache → SignatureHashCache)
  (compute : TransactionHeap → Except JsError Bytes) :
  SignatureFormat Bytes := do
  let cache ← get
  match cache.bind lookup with
  | some hash => return hash
  | none => do
      let heap ← readThe TransactionHeap
      let hash ← StateProgram.ofExcept (compute heap)
      modify fun cache => cache.map (remember hash)
      return hash

def bip143PrevoutsHash (currentInput : TransactionInput) : SignatureFormat Bytes :=
  if params.scope &&& SIGHASH_ANYONECANPAY ≠ 0 then pure zeroHash
  else
    cachedHash (fun cache => cache.hashPrevouts) (fun hash cache =>
        { cache with hashPrevouts := some hash })
      (fun heap => hashPrevouts heap inputs params.inputIndex currentInput)

def bip143SequenceHash (currentInput : TransactionInput) : SignatureFormat Bytes :=
  let baseScope := params.scope &&& 31
  if params.scope &&& SIGHASH_ANYONECANPAY ≠ 0 ∨
      baseScope = SIGHASH_SINGLE ∨ baseScope = SIGHASH_NONE then
    pure zeroHash
  else
    cachedHash (fun cache => cache.hashSequence) (fun hash cache =>
        { cache with hashSequence := some hash })
      (fun _ => .ok (hashSequences inputs params.inputIndex currentInput))

def bip143OutputsHash :
  SignatureFormat Bytes :=
  let baseScope := params.scope &&& 31
  if baseScope ≠ SIGHASH_SINGLE ∧ baseScope ≠ SIGHASH_NONE then
    cachedHash (fun cache => cache.hashOutputsAll) (fun hash cache =>
        { cache with hashOutputsAll := some hash })
      (fun _ => hashOutputs params.outputs none)
  else if baseScope ≠ SIGHASH_SINGLE ∨ params.outputs.length ≤ params.inputIndex then pure zeroHash
  else
    cachedHash (fun cache => cache.hashOutputsSingle.bind fun table => table.get? params.inputIndex)
      (fun hash cache =>
        { cache with
          hashOutputsSingle := some ((cache.hashOutputsSingle.getD []).set
                params.inputIndex hash) })
      (fun _ => hashOutputs params.outputs (some params.inputIndex))

def TransactionSignatureFormatParams.currentInput :
  TransactionInput :=
  { sourceTXID := some params.sourceTXID
    sourceOutputIndex := params.sourceOutputIndex
    sequence := some params.inputSequence }

/- What `formatBip143` writes after its hashes are known. -/
def writeBip143 (prevouts sequences outputs : Bytes) :
  Except JsError Bytes := do
  let txid ← writeReverseHex params.sourceTXID
  let satoshis ← writeUInt64LE (params.sourceSatoshis : Nat)
  let sequence := params.currentInput.sequence.getD 0xffffffff
  return leBytes 4 params.transactionVersion ++
    prevouts ++ sequences ++ txid ++ leBytes 4 params.sourceOutputIndex ++
        varIntNum params.subscript.length ++ params.subscript ++ satoshis ++
            leBytes 4 sequence ++ outputs ++ leBytes 4 params.lockTime ++ leBytes 4 params.scope

def formatBip143 :
  SignatureFormat Bytes := do
  let currentInput := params.currentInput
  let inputs := bip143Inputs params currentInput
  let prevouts ← bip143PrevoutsHash params inputs currentInput
  let sequences ← bip143SequenceHash params inputs currentInput
  let outputs ← bip143OutputsHash params
  StateProgram.ofExcept (writeBip143 params prevouts sequences outputs)

def formatBytes :
  SignatureFormat Bytes := do
  let hasForkId : Bool := params.scope &&& SIGHASH_FORKID ≠ 0
  let hasChronicle : Bool := !params.ignoreChronicle && params.scope &&& SIGHASH_CHRONICLE ≠ 0
  if hasForkId && params.sighashForkIdEnabled && !hasChronicle then formatBip143 params
  else if !params.sighashForkIdEnabled || !hasForkId || hasChronicle then
    let heap ← readThe TransactionHeap
    StateProgram.ofExcept (formatOTDA heap params)
  else return []

end TsStack
