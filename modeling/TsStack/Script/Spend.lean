import TsStack.Script.SpendOps

/-
  The steps and runs of `script/Spend.ts`.
-/

-- The Switch

namespace TsStack

namespace Spend

def constantCases : List (Nat × SpendM Unit) :=
  [(OP.OP_VER, opVer), (OP.OP_1NEGATE, opConstant (-1)), (OP.OP_0, opConstant 0),
    (OP.OP_1, opConstant 1), (OP.OP_2, opConstant 2), (OP.OP_3, opConstant 3),
    (OP.OP_4, opConstant 4), (OP.OP_5, opConstant 5), (OP.OP_6, opConstant 6),
    (OP.OP_7, opConstant 7), (OP.OP_8, opConstant 8), (OP.OP_9, opConstant 9),
    (OP.OP_10, opConstant 10), (OP.OP_11, opConstant 11), (OP.OP_12, opConstant 12),
    (OP.OP_13, opConstant 13), (OP.OP_14, opConstant 14), (OP.OP_15, opConstant 15),
    (OP.OP_16, opConstant 16)]

def controlCases (isScriptExecuting : Bool) :
  List (Nat × SpendM Unit) :=
  [(OP.OP_NOP, opNop), (OP.OP_NOP1, opNop), (OP.OP_CHECKLOCKTIMEVERIFY, verifyCheckLockTime),
    (OP.OP_CHECKSEQUENCEVERIFY, verifyCheckSequence), (OP.OP_NOP9, opNop), (OP.OP_NOP10, opNop),
    (OP.OP_VERIF, opVerif false isScriptExecuting),
    (OP.OP_VERNOTIF, opVerif true isScriptExecuting), (OP.OP_IF, opIf false isScriptExecuting),
    (OP.OP_NOTIF, opIf true isScriptExecuting), (OP.OP_ELSE, opElse), (OP.OP_ENDIF, opEndif),
    (OP.OP_VERIFY, opVerify), (OP.OP_RETURN, opReturn)]

def stackCases : List (Nat × SpendM Unit) :=
  [(OP.OP_TOALTSTACK, opToaltstack), (OP.OP_FROMALTSTACK, opFromaltstack), (OP.OP_2DROP, op2drop),
    (OP.OP_2DUP, op2dup), (OP.OP_3DUP, op3dup), (OP.OP_2OVER, op2over), (OP.OP_2ROT, op2rot),
    (OP.OP_2SWAP, op2swap), (OP.OP_IFDUP, opIfdup), (OP.OP_DEPTH, opDepth), (OP.OP_DROP, opDrop),
    (OP.OP_DUP, opDup), (OP.OP_NIP, opNip), (OP.OP_OVER, opOver), (OP.OP_PICK, opPick),
    (OP.OP_ROLL, opRoll), (OP.OP_ROT, opRot), (OP.OP_SWAP, opSwap), (OP.OP_TUCK, opTuck),
    (OP.OP_SIZE, opSize)]

def byteCases : List (Nat × SpendM Unit) :=
  [(OP.OP_SUBSTR, opSubstr), (OP.OP_LEFT, opLeft), (OP.OP_RIGHT, opRight),
    (OP.OP_LSHIFTNUM, opLshiftnum), (OP.OP_RSHIFTNUM, opRshiftnum),
    (OP.OP_AND, opBitwise OP.OP_AND (· &&& ·)), (OP.OP_OR, opBitwise OP.OP_OR (· ||| ·)),
    (OP.OP_XOR, opBitwise OP.OP_XOR (· ^^^ ·)), (OP.OP_INVERT, opInvert),
    (OP.OP_LSHIFT, opByteShift OP.OP_LSHIFT (· <<< ·)),
    (OP.OP_RSHIFT, opByteShift OP.OP_RSHIFT (· >>> ·)), (OP.OP_EQUAL, opEqual OP.OP_EQUAL),
    (OP.OP_EQUALVERIFY, opEqual OP.OP_EQUALVERIFY), (OP.OP_CAT, opCat), (OP.OP_SPLIT, opSplit),
    (OP.OP_NUM2BIN, opNum2bin), (OP.OP_BIN2NUM, opBin2num)]

def arithmeticCases : List (Nat × SpendM Unit) :=
  [(OP.OP_1ADD, opUnary OP.OP_1ADD (· + 1)), (OP.OP_1SUB, opUnary OP.OP_1SUB (· - 1)),
    (OP.OP_2MUL, opUnary OP.OP_2MUL (· * 2)), (OP.OP_2DIV, opUnary OP.OP_2DIV (Int.tdiv · 2)),
    (OP.OP_NEGATE, opUnary OP.OP_NEGATE (- ·)), (OP.OP_ABS, opUnary OP.OP_ABS fun bn => bn.natAbs),
    (OP.OP_NOT, opUnary OP.OP_NOT fun bn => scriptBoolean (bn = 0)),
    (OP.OP_0NOTEQUAL, opUnary OP.OP_0NOTEQUAL fun bn => scriptBoolean (bn ≠ 0)),
    (OP.OP_ADD, opTotal OP.OP_ADD (· + ·)), (OP.OP_SUB, opTotal OP.OP_SUB (· - ·)),
    (OP.OP_MUL, opTotal OP.OP_MUL (· * ·)), (OP.OP_DIV, opDivide OP.OP_DIV Int.tdiv),
    (OP.OP_MOD, opDivide OP.OP_MOD Int.tmod),
    (OP.OP_BOOLAND, opCompare OP.OP_BOOLAND fun bn1 bn2 => bn1 ≠ 0 && bn2 ≠ 0),
    (OP.OP_BOOLOR, opCompare OP.OP_BOOLOR fun bn1 bn2 => bn1 ≠ 0 || bn2 ≠ 0),
    (OP.OP_NUMEQUAL, opCompare OP.OP_NUMEQUAL (· = ·)),
    (OP.OP_NUMEQUALVERIFY, opCompare OP.OP_NUMEQUALVERIFY (· = ·)),
    (OP.OP_NUMNOTEQUAL, opCompare OP.OP_NUMNOTEQUAL (· ≠ ·)),
    (OP.OP_LESSTHAN, opCompare OP.OP_LESSTHAN (· < ·)),
    (OP.OP_GREATERTHAN, opCompare OP.OP_GREATERTHAN (· > ·)),
    (OP.OP_LESSTHANOREQUAL, opCompare OP.OP_LESSTHANOREQUAL (· ≤ ·)),
    (OP.OP_GREATERTHANOREQUAL, opCompare OP.OP_GREATERTHANOREQUAL (· ≥ ·)),
    (OP.OP_MIN, opTotal OP.OP_MIN min), (OP.OP_MAX, opTotal OP.OP_MAX max),
    (OP.OP_WITHIN, opWithin)]

def cryptoCases : List (Nat × SpendM Unit) :=
  [(OP.OP_RIPEMD160, opHash OP.OP_RIPEMD160 (·.ripemd160)),
    (OP.OP_SHA1, opHash OP.OP_SHA1 (·.sha1)), (OP.OP_SHA256, opHash OP.OP_SHA256 (·.sha256)),
    (OP.OP_HASH160, opHash OP.OP_HASH160 (·.hash160)),
    (OP.OP_HASH256, opHash OP.OP_HASH256 (·.hash256)), (OP.OP_CODESEPARATOR, opCodeseparator),
    (OP.OP_CHECKSIG, opChecksig OP.OP_CHECKSIG),
    (OP.OP_CHECKSIGVERIFY, opChecksig OP.OP_CHECKSIGVERIFY),
    (OP.OP_CHECKMULTISIG, opCheckmultisig OP.OP_CHECKMULTISIG),
    (OP.OP_CHECKMULTISIGVERIFY, opCheckmultisig OP.OP_CHECKMULTISIGVERIFY)]

/- The cases of the switch in `step`. -/
def switchCases (isScriptExecuting : Bool) :
  List (Nat × SpendM Unit) :=
  constantCases ++ controlCases isScriptExecuting ++
    stackCases ++ byteCases ++ arithmeticCases ++ cryptoCases

/- The switch in `step`. -/
def executeOpcode (currentOpcode : Nat) (isScriptExecuting : Bool) : SpendM Unit := do
  match (switchCases isScriptExecuting).lookup currentOpcode
  with
  | some operation => operation
  | none =>
    let spend ← get
    scriptEvaluationError ("Invalid opcode " ++ toString currentOpcode ++
        " (pc=" ++ toString spend.programCounter ++ ").")

-- Checks of a Step

def contextText : SpendContext → String
| .unlockingScript => "UnlockingScript"
| .lockingScript => "LockingScript"

def switchContext : SpendM Unit := do
  let spend ← get
  if spend.context = .unlockingScript ∧
      spend.unlockingScript.chunks.length ≤ spend.programCounter then do
    errorIf (0 < spend.ifStack.length) ("Every OP_IF, OP_NOTIF, or OP_ELSE must be " ++
        "terminated with OP_ENDIF prior to the end of the " ++ "unlocking script.")
    modify fun spend =>
      { clearAltStack spend with
        ifStack := []
        elseStack := []
        returningFromConditional := false
        lastCodeSeparator := none
        context := .lockingScript
        programCounter := 0 }
  else pure ()

def opcodeForOperation (operation : SpendChunk) : SpendM Nat := do
  let params ← read
  let spend ← get
  errorIf (operation.invalidLength = some true)
    ("Malformed push data in " ++ contextText spend.context ++ " at pc=" ++
      toString spend.programCounter ++ ".")
  errorIf (operation.data.any (fun ref =>
        params.maxPushSize.any (· < spend.itemLength (.chunkData ref))) =
      true)
    ("Data push > " ++ params.maxPushSizeText ++ " bytes (pc=" ++ toString spend.programCounter ++
      ").")
  return operation.op

def enforceChronicleOnlyOpcode (currentOpcode : Nat) : SpendM Unit := do
  let params ← read
  errorIf (params.isExplicitlyBeforeGenesis = true ∧
      params.isAfterChronicle = false ∧ currentOpcode ∈
          [OP.OP_2MUL, OP.OP_2DIV, OP.OP_VERIF, OP.OP_VERNOTIF])
    (OP.name currentOpcode ++ " is disabled until Chronicle.")

def isChunkMinimalPushHelper (op : Nat) (data : Option Bytes) : Bool :=
  match data with
  | none => true
  | some [] => op = OP.OP_0
  | some [byte] =>
    if 1 ≤ byte.toNat ∧ byte.toNat ≤ 16 then op = OP.OP_1 + (byte.toNat - 1)
    else if byte = 0x81 then op = OP.OP_1NEGATE
    else op = 1
  | some data =>
    if data.length ≤ 75 then op = data.length
    else if data.length ≤ 255 then op = OP.OP_PUSHDATA1
    else if data.length ≤ 65535 then op = OP.OP_PUSHDATA2
    else true

/- `#executeDataPush`; the array is pushed without a copy. -/
def executeDataPush (operation : SpendChunk) : SpendM Unit := do
  let params ← read
  let spend ← get
  let data := operation.data.map fun ref => spend.bytes (.chunkData ref)
  errorIf (params.shouldEnforceMinimalData = true ∧
      isChunkMinimalPushHelper operation.op data = false)
    ("This data is not minimally-encoded. (PC: " ++ toString spend.programCounter ++ ")")
  match operation.data with
  | some ref => pushStack (.chunkData ref)
  | none => pushStack (.own [])

def countExecutedOpcode (currentOpcode : Nat) (isScriptExecuting : Bool) : SpendM Unit := do
  let params ← read
  if isScriptExecuting = true ∧ OP.OP_16 < currentOpcode then do
    modify fun spend =>
      { spend with
        executedOpCount := spend.executedOpCount + 1 }
    let spend ← get
    errorIf (params.isExplicitlyBeforeGenesis = true ∧ 500 < spend.executedOpCount)
      "Script executed more than 500 opcodes."
  else pure ()

/- The opcode ends a step before the switch. -/
inductive PreChronicle where
| available
| skipped
| discouraged
| disabled
deriving DecidableEq, Repr

/- The cases of `#skipUnavailablePreChronicleOpcode`. -/
def preChronicle
  (params : SpendParams) (currentOpcode : Nat) (isScriptExecuting : Bool) : PreChronicle :=
  if !params.hasExplicitFlags || params.isAfterChronicle then .available
  else if isScriptExecuting = true ∧ currentOpcode ∈
        [OP.OP_SUBSTR, OP.OP_LEFT, OP.OP_RIGHT, OP.OP_LSHIFTNUM, OP.OP_RSHIFTNUM] then
    if params.hasFlag "DISCOURAGE_UPGRADABLE_NOPS" then .discouraged
    else .skipped
  else if (isScriptExecuting || !params.isAfterGenesis) = true ∧ currentOpcode ∈
        [OP.OP_2MUL, OP.OP_2DIV, OP.OP_VER, OP.OP_VERIF, OP.OP_VERNOTIF] then
    .disabled
  else if isScriptExecuting = false ∧ params.isAfterGenesis = true ∧
        currentOpcode ∈ [OP.OP_VERIF, OP.OP_VERNOTIF] then
    .skipped
  else .available

def skipUnavailablePreChronicleOpcode
  (currentOpcode : Nat) (isScriptExecuting : Bool) : SpendM Bool := do
  let params ← read
  match preChronicle params currentOpcode isScriptExecuting
  with
  | .available => return false
  | .discouraged =>
    scriptEvaluationError (OP.name currentOpcode ++ " is discouraged by verification flags.")
  | .disabled => scriptEvaluationError (OP.name currentOpcode ++ " is disabled until Chronicle.")
  | .skipped =>
    modify fun spend =>
      { spend with
        programCounter := spend.programCounter + 1 }
    return true

def enforceDiscouragedNop (currentOpcode : Nat) (isScriptExecuting : Bool) : SpendM Unit := do
  let params ← read
  let inactiveLocktime := currentOpcode = OP.OP_CHECKLOCKTIMEVERIFY ∧
      (params.hasFlag "CHECKLOCKTIMEVERIFY" = false ∨ params.isAfterGenesis = true)
  let inactiveSequence := currentOpcode = OP.OP_CHECKSEQUENCEVERIFY ∧
      (params.hasFlag "CHECKSEQUENCEVERIFY" = false ∨ params.isAfterGenesis = true)
  errorIf (isScriptExecuting = true ∧ params.hasFlag "DISCOURAGE_UPGRADABLE_NOPS" = true ∧
        (currentOpcode = OP.OP_NOP1 ∨ inactiveLocktime ∨
          inactiveSequence ∨ currentOpcode = OP.OP_NOP9 ∨ currentOpcode = OP.OP_NOP10))
    (OP.name currentOpcode ++ " is discouraged by verification flags.")

def advanceAfterStep (currentScript : SpendScript) : SpendM Unit := do
  let params ← read
  modify fun spend =>
    { spend with
      programCounter :=
        if spend.returningFromConditional = true ∧ spend.ifStack.length = 0 then
          currentScript.chunks.length
        else spend.programCounter + 1 }
  let spend ← get
  errorIf (params.isExplicitlyBeforeGenesis = true ∧
      1000 < spend.stack.length + spend.altStack.length)
    "Stack item count has exceeded 1000."

-- Steps

def isExecuting (spend : Spend) : Bool :=
  !spend.returningFromConditional && !spend.ifStack.contains false

/- The operation of a step up to the advance; it returns whether the step is over without one. -/
def executeOperation (operation : SpendChunk) : SpendM Bool := do
  let currentOpcode ← opcodeForOperation operation
  let spend ← get
  let isScriptExecuting := spend.isExecuting
  enforceChronicleOnlyOpcode currentOpcode
  if isScriptExecuting = true ∧ currentOpcode ≤ OP.OP_PUSHDATA4 then do
    executeDataPush operation
    return false
  else if isScriptExecuting = true ∨ (OP.OP_IF ≤ currentOpcode ∧
        currentOpcode ≤ OP.OP_ENDIF) then do
    countExecutedOpcode currentOpcode isScriptExecuting
    let skipped ← skipUnavailablePreChronicleOpcode currentOpcode isScriptExecuting
    if skipped then return true
    else do
      enforceDiscouragedNop currentOpcode isScriptExecuting
      executeOpcode currentOpcode isScriptExecuting
      return false
  else return false

/- The rest of a step in a script; it returns `true`. -/
def stepIn (currentScript : SpendScript) : SpendM Bool := do
  let spend ← get
  match currentScript.chunks[spend.programCounter]? with
  | none => return false
  | some none => throw (.thrown (holeError "op"))
  | some (some operation) => do
      let isOver ← executeOperation operation
      if isOver then return true
      else do
        advanceAfterStep currentScript
        return true

def step : SpendM Bool := do
  enforceStepResourceLimits
  switchContext
  let spend ← get
  stepIn spend.contextScript

-- Runs

/- The fields `#runScript` starts with. -/
def beginScript (context : SpendContext) (spend : Spend) : Spend :=
  { clearAltStack spend with
    context := context
    programCounter := 0
    ifStack := []
    elseStack := []
    returningFromConditional := false
    lastCodeSeparator := none }

/- The fields `#runScript` ends with. -/
def endScript (spend : Spend) : Spend :=
  { clearAltStack spend with
    ifStack := []
    elseStack := []
    lastCodeSeparator := none }

/-
  The loop of `#runScript`, with a bound on its steps; it
  returns whether the loop has ended within the bound.
-/
def runLoop (script : SpendScript) : Nat → SpendM Bool
| 0 => do
    let spend ← get
    return script.chunks.length ≤ spend.programCounter
| bound + 1 => do
    let spend ← get
    if spend.programCounter < script.chunks.length then do
      let _ ← step
      runLoop script bound
    else return true

def checkScriptSize (script : SpendScript) : SpendM Unit := do
  let params ← read
  if params.isExplicitlyBeforeGenesis then do
    let length ← StateProgram.ofExcept (script.byteLength.mapError .thrown)
    errorIf (10000 < length) "Script size exceeds 10000 bytes."
  else pure ()

/- The end of `#runScript` when its loop has ended. -/
def finishScript : SpendM Unit := do
  let spend ← get
  errorIf (0 < spend.ifStack.length) ("Every OP_IF, OP_NOTIF, or OP_ELSE must be " ++
      "terminated with OP_ENDIF prior to the end of the " ++ "script.")
  modify endScript

/-
  `#runScript`, with a bound on its steps; it returns whether the loop has ended within the bound.
-/
def runScript (bound : Nat) (context : SpendContext) : SpendM Bool := do
  modify (beginScript context)
  let spend ← get
  checkScriptSize spend.contextScript
  let finished ← runLoop spend.contextScript bound
  if finished then do
    finishScript
    return true
  else return false

def reset (spend : Spend) : Spend :=
  { unlockingScript := spend.unlockingScript
    lockingScript := spend.lockingScript
    arrays := spend.arrays }

end Spend

-- Validation

namespace Spend

/- Chunks with their data as references from `next` on. -/
def allocateChunks (next : Nat) :
  List ScriptChunk → List (Option SpendChunk) × List Bytes
| [] => ([], [])
| chunk :: chunks =>
  match chunk.data with
  | none =>
    let (rest, arrays) := allocateChunks next chunks
    (some
      { op := chunk.op
        invalidLength := chunk.invalidLength } :: rest,
      arrays)
  | some data =>
    let (rest, arrays) := allocateChunks (next + 1) chunks
    (some
      { op := chunk.op
        data := some next
        invalidLength := chunk.invalidLength } :: rest,
      data :: arrays)

def loadRedeemScript (redeemScriptBytes : Bytes) (spend : Spend) : Spend :=
  let chunks := parseChunks redeemScriptBytes
  let (loaded, arrays) := allocateChunks spend.arrays.length chunks
  { spend with
    lockingScript :=
      { chunks := loaded
        byteLength := computeSerializedLength (chunks.map some) }
    arrays := spend.arrays ++ arrays }

end Spend

end TsStack
