import TsStack.Lib.StateProgram
import TsStack.Script.Script

/-
  The state of the interpreter in `script/Spend.ts` and the
  helpers its opcodes are written with.

  Stacks are lists with the top first.  Opcodes push a
  chunk's data array without copying it, so such an item is
  a reference to the array; an array made by the interpreter
  is referenced from one place only and is its bytes.
-/

-- Data

namespace TsStack

inductive StackItem where
| own (bytes : Bytes)
| chunkData (ref : Nat)
deriving DecidableEq, Repr

def StackItem.bytes (arrays : List Bytes) : StackItem → Bytes
| .own bytes => bytes
| .chunkData ref => arrays.getD ref []

structure SpendChunk where
  op : Nat
  data : Option Nat := none
  invalidLength : Option Bool := none
deriving DecidableEq, Repr

/-
  A script: its chunks, holes included, and the length of
  `toUint8Array()`, which edits in place do not change.
-/
structure SpendScript where
  chunks : List (Option SpendChunk)
  byteLength : Except JsError Nat

inductive SpendContext where
| unlockingScript
| lockingScript
deriving DecidableEq, Repr

/- The fields the interpreter changes. -/
structure Spend where
  unlockingScript : SpendScript
  lockingScript : SpendScript
  arrays : List Bytes
  context : SpendContext := .unlockingScript
  programCounter : Nat := 0
  lastCodeSeparator : Option Nat := none
  stack : List StackItem := []
  altStack : List StackItem := []
  ifStack : List Bool := []
  elseStack : List Bool := []
  stackMem : Int := 0
  altStackMem : Int := 0
  executedOpCount : Nat := 0
  returningFromConditional : Bool := false

structure TransactionSignature where
  r : Int
  s : Int
  scope : Nat
deriving DecidableEq, Repr

structure PublicKey where
  x : Nat
  y : Nat
deriving DecidableEq, Repr

/-
  Hash functions and signature primitives.  `verify` hashes the transaction for a signature's
  scope and a subscript, and verifies the signature on it.
-/
structure SpendCrypto where
  ripemd160 : Bytes → Bytes
  sha1 : Bytes → Bytes
  sha256 : Bytes → Bytes
  hash160 : Bytes → Bytes
  hash256 : Bytes → Bytes
  fromChecksigFormat : Bytes → Except JsError TransactionSignature
  publicKeyFromDER : Bytes → Except JsError PublicKey
  verify : TransactionSignature → PublicKey → Script → Except JsError Bool

/-
  The fields the interpreter only reads.  A memory limit is
  an integer; without one there is no bound.
-/
structure SpendParams where
  transactionVersion : Nat
  inputSequence : Nat
  lockTime : Nat
  memoryLimit : Option Int
  isRelaxedOverride : Bool
  verifyFlags : Option (List String)
  crypto : SpendCrypto

inductive ScriptResource where
| stack
| altStack
| elementSize
deriving DecidableEq, Repr

/- What a step can throw. -/
inductive SpendError where
| scriptEvaluation (message : String)
| resourceLimit
    (resource : ScriptResource) (limit attempted : Int)
| thrown (error : JsError)
deriving DecidableEq, Repr

abbrev SpendM :=
  StateProgram SpendParams SpendError Spend

-- Flags

namespace SpendParams

variable (params : SpendParams)

def isRelaxed : Bool :=
  params.isRelaxedOverride || params.transactionVersion > 1

def hasExplicitFlags : Bool :=
  params.verifyFlags.isSome

def hasFlag (flag : String) : Bool :=
  params.verifyFlags.any (·.contains flag)

def isAfterGenesis : Bool :=
  if params.hasExplicitFlags then
    params.hasFlag "UTXO_AFTER_GENESIS" || params.hasFlag "UTXO_AFTER_CHRONICLE"
  else params.isRelaxed

def isAfterChronicle : Bool :=
  if params.hasExplicitFlags then params.hasFlag "UTXO_AFTER_CHRONICLE"
  else params.isRelaxed

def enforceNonMalleability : Bool :=
  !(params.hasFlag "CHRONICLE" && params.transactionVersion > 1)

def shouldEnforce (flag : String) : Bool :=
  if params.hasExplicitFlags then params.hasFlag flag && params.enforceNonMalleability
  else !params.isRelaxed

def shouldEnforceMinimalData : Bool :=
  params.shouldEnforce "MINIMALDATA"

def shouldEnforceLowS : Bool :=
  params.shouldEnforce "LOW_S"

def shouldEnforceNullDummy : Bool :=
  params.shouldEnforce "NULLDUMMY"

def shouldEnforceDerSignatures : Bool :=
  if params.hasExplicitFlags then
    params.hasFlag "DERSIG" || params.hasFlag "STRICTENC" || params.hasFlag "LOW_S" ||
        params.hasFlag "SIGHASH_FORKID"
  else true

def shouldEnforceStrictEncoding : Bool :=
  if params.hasExplicitFlags then params.hasFlag "STRICTENC" || params.hasFlag "SIGHASH_FORKID"
  else true

def isExplicitlyBeforeGenesis : Bool :=
  params.hasExplicitFlags && !params.isAfterGenesis

def scriptNumMaxSize : Option Nat :=
  if params.hasExplicitFlags then
    if !params.isAfterGenesis then some 4
    else if params.isAfterChronicle then some 32000000
    else some 750000
  else none

/- `#maxPushSize`; `none` is infinity. -/
def maxPushSize : Option Nat :=
  if params.isExplicitlyBeforeGenesis then some 520
  else none

def maxPushSizeText : String :=
  match params.maxPushSize with
  | some size => toString size
  | none => "Infinity"

def versionBytes : Bytes :=
  LittleEndian.leBytes 4 params.transactionVersion

end SpendParams

-- Errors and Memory

def JsError.message : JsError → String
| .error message => message
| .typeError message => message
| .rangeError message => message

namespace Spend

def bytes (spend : Spend) (item : StackItem) : Bytes :=
  item.bytes spend.arrays

def itemLength (spend : Spend) (item : StackItem) : Nat :=
  (spend.bytes item).length

def scriptEvaluationError {α : Type} (message : String) : SpendM α :=
  throw (.scriptEvaluation message)

/- `#scriptEvaluationError` under a condition. -/
def errorIf (condition : Prop) [Decidable condition] (message : String) : SpendM Unit :=
  StateProgram.throwIf condition (.scriptEvaluation message)

def ensureLimit (resource : ScriptResource) (total : Int) : SpendM Unit := do
  let params ← read
  StateProgram.throwIf (params.memoryLimit.any (· < total) = true)
    (.resourceLimit resource (params.memoryLimit.getD 0) total)

def ensureStackMem (additional : Nat) : SpendM Unit := do
  let spend ← get
  ensureLimit .stack (spend.stackMem + additional)

def ensureAltStackMem (additional : Nat) : SpendM Unit := do
  let spend ← get
  ensureLimit .altStack (spend.altStackMem + additional)

def enforceStepResourceLimits : SpendM Unit := do
  let spend ← get
  ensureLimit .stack spend.stackMem
  ensureLimit .altStack spend.altStackMem

-- Stacks

/-
  Insert an item below `depth` others and account for it;
  the stack is as it was if the limit would be exceeded.
-/
def insertStack (depth : Nat) (item : StackItem) : SpendM Unit := do
  let spend ← get
  ensureStackMem (spend.itemLength item)
  modify fun spend =>
    { spend with
      stack := spend.stack.take depth ++ item :: spend.stack.drop depth
      stackMem := spend.stackMem + spend.itemLength item }

variable (item : StackItem)

def pushStack : SpendM Unit :=
  insertStack 0 item

/- `#pushStack` of a new array. -/
def pushBytes (bytes : Bytes) : SpendM Unit :=
  pushStack (.own bytes)

def pushStackCopy : SpendM Unit := do
  let spend ← get
  pushBytes (spend.bytes item)

/- Remove the item below `depth` others, accounting for it. -/
def removeStack (depth : Nat) (error : SpendError) : SpendM StackItem := do
  let spend ← get
  match spend.stack[depth]? with
  | none => throw error
  | some item =>
    set
      { spend with
        stack := spend.stack.eraseIdx depth
        stackMem := spend.stackMem - spend.itemLength item }
    return item

def popStack : SpendM StackItem :=
  removeStack 0 (.scriptEvaluation "Attempted to pop from an empty stack.")

/- The bytes of the item `#popStack` returns. -/
def popBytes : SpendM Bytes := do
  let item ← popStack
  let spend ← get
  return spend.bytes item

/- `#stackTop(-depth)`. -/
def stackTop (depth : Nat) : SpendM Bytes := do
  let spend ← get
  match spend.stack[depth - 1]? with
  | none =>
    scriptEvaluationError ("Stack underflow accessing element at index -" ++
        toString depth ++ ". Stack length is " ++ toString spend.stack.length ++ ".")
  | some item => return spend.bytes item

def requireStackItems (minimum : Nat) (message : String) : SpendM Unit := do
  let spend ← get
  errorIf (spend.stack.length < minimum) message

def requireAltStackItems (minimum : Nat) (message : String) : SpendM Unit := do
  let spend ← get
  errorIf (spend.altStack.length < minimum) message

def setStack (items : List Bytes) (spend : Spend) : Spend :=
  { spend with
    stack := items.map .own
    stackMem := (items.map fun item => (item.length : Int)).sum }

def clearAltStack (spend : Spend) : Spend :=
  { spend with
    altStack := []
    altStackMem := 0 }

def pushAltStack : SpendM Unit := do
  let spend ← get
  ensureAltStackMem (spend.itemLength item)
  modify fun spend =>
    { spend with
      altStack := item :: spend.altStack
      altStackMem := spend.altStackMem + spend.itemLength item }

def popAltStack : SpendM StackItem := do
  let spend ← get
  match spend.altStack with
  | [] => scriptEvaluationError "Attempted to pop from an empty alt stack."
  | item :: altStack =>
    set
      { spend with
        altStack := altStack
        altStackMem := spend.altStackMem - spend.itemLength item }
    return item

/- Write the elements of an array in place. -/
def editArray (edited : Bytes) (spend : Spend) : Spend :=
  match item with
  | .own _ => spend
  | .chunkData ref => { spend with arrays := spend.arrays.set ref edited }

def minimallyEncodeItem : SpendM StackItem := do
  let spend ← get
  match minimallyEncode (spend.bytes item) with
  | .same => return item
  | .fresh edited result =>
    set (editArray item edited spend)
    return .own result

def clearSignItem : SpendM Bytes := do
  let spend ← get
  let edited := clearSign (spend.bytes item)
  set (editArray item edited spend)
  return edited

end Spend

-- Numbers and Truth Values

def castToBool : Bytes → Bool
| [] => false
| [byte] => byte ≠ 0 && byte ≠ 0x80
| byte :: bytes => byte ≠ 0 || castToBool bytes

def truthBytes (value : Bool) : Bytes :=
  if value then [1] else []

/- `isMinimallyEncodedHelper` without a size bound. -/
def isMinimallyEncodedHelper (buf : Bytes) : Bool :=
  !hasRedundantSignByte buf

namespace Spend

def readScriptNumber (buf : Bytes) : SpendM Int := do
  let params ← read
  match fromScriptNum buf params.shouldEnforceMinimalData params.scriptNumMaxSize with
  | .ok bn => return bn
  | .error error => scriptEvaluationError error.message

def popNumber : SpendM Int := do
  let buf ← popBytes
  readScriptNumber buf

def readSpliceOperand (buf : Bytes) : SpendM Int := do
  let params ← read
  errorIf (params.scriptNumMaxSize.any (· < buf.length) = true) "script number overflow"
  errorIf (params.shouldEnforceMinimalData = true ∧ isMinimallyEncodedHelper buf = false)
    "non-minimally encoded script number"
  errorIf (9 < buf.length) "script number overflow"
  let value := fromSm buf
  errorIf (value < -2 ^ 63 ∨ 2 ^ 63 - 1 < value) "script number overflow"
  return max (-2 ^ 31) (min (2 ^ 31 - 1) value)

def readLockTimeOperand (buf : Bytes) : SpendM Int := do
  let params ← read
  match fromScriptNum buf params.shouldEnforceMinimalData (some 5) with
  | .ok bn => return bn
  | .error error => scriptEvaluationError error.message

end Spend

end TsStack
