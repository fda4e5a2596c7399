import TsStack.Script.SpendSignature

/-
  The opcodes of `Spend.step`, one definition for a case of
  its switch or for a family of cases that share a body.
-/

-- Constants and Control

namespace TsStack.Spend

def opVer : SpendM Unit := do
  let params ← read
  pushBytes params.versionBytes

/- `OP_1NEGATE`, `OP_0` and `OP_1` to `OP_16`. -/
def opConstant (n : Int) : SpendM Unit :=
  pushStackCopy (.own (toScriptNum n))

def opNop : SpendM Unit :=
  pure ()

/- Open a conditional block. -/
def pushCondition (fValue : Bool) : SpendM Unit :=
  modify fun spend =>
    { spend with
      ifStack := fValue :: spend.ifStack
      elseStack := false :: spend.elseStack }

/- The condition of an executed `OP_VERIF`. -/
def popVersionCondition (negated : Bool) : SpendM Bool := do
  let params ← read
  requireStackItems 1 ("OP_VERIF and OP_VERNOTIF require at least one item " ++
      "on the stack when they are used!")
  let buf1 ← popBytes
  let fValue := buf1.length = 4 && buf1 = params.versionBytes
  return fValue != negated

/- `OP_VERIF` and `OP_VERNOTIF`. -/
def opVerif (negated isScriptExecuting : Bool) : SpendM Unit := do
  let fValue ←
    if isScriptExecuting then popVersionCondition negated
    else pure false
  pushCondition fValue

def popIfCondition (negated : Bool) : SpendM Bool := do
  let params ← read
  requireStackItems 1 ("OP_IF and OP_NOTIF require at least one item on " ++
      "the stack when they are used!")
  let buf ← popBytes
  errorIf (params.hasFlag "MINIMALIF" = true ∧
      params.enforceNonMalleability = true ∧ buf ≠ [] ∧ buf ≠ [1])
    "OP_IF and OP_NOTIF require minimal truth values."
  return castToBool buf != negated

/- `OP_IF` and `OP_NOTIF`. -/
def opIf (negated isScriptExecuting : Bool) : SpendM Unit := do
  let fValue ←
    if isScriptExecuting then popIfCondition negated
    else pure false
  pushCondition fValue

def assignTop (value : Bool) : List Bool → List Bool
| [] => []
| _ :: stack => value :: stack

def opElse : SpendM Unit := do
  let params ← read
  let spend ← get
  errorIf (spend.ifStack.length = 0) "OP_ELSE requires a preceeding OP_IF."
  errorIf (params.hasExplicitFlags = true ∧
      params.isAfterGenesis = true ∧ spend.elseStack.head? = some true)
    ("OP_ELSE may only be used once for each OP_IF or " ++ "OP_NOTIF after Genesis.")
  modify fun spend =>
    { spend with
      elseStack := assignTop true spend.elseStack
      ifStack := assignTop (spend.ifStack.head? != some true) spend.ifStack }

def opEndif : SpendM Unit := do
  let spend ← get
  errorIf (spend.ifStack.length = 0) "OP_ENDIF requires a preceeding OP_IF."
  modify fun spend =>
    { spend with
      ifStack := spend.ifStack.tail
      elseStack := spend.elseStack.tail }

def opVerify : SpendM Unit := do
  requireStackItems 1 "OP_VERIFY requires at least one item to be on the stack."
  let buf1 ← stackTop 1
  errorIf (castToBool buf1 = false) "OP_VERIFY requires the top stack value to be truthy."
  let _ ← popStack

/-
  `OP_RETURN`.  The counter moves to the last chunk, so that the final increment ends the script.
-/
def opReturn : SpendM Unit := do
  let params ← read
  errorIf (params.isExplicitlyBeforeGenesis = true) "OP_RETURN is invalid before Genesis."
  modify fun spend =>
    if 0 < spend.ifStack.length then { spend with returningFromConditional := true }
    else
      { spend with
        programCounter := spend.contextScript.chunks.length - 1 }

-- Lock Times

/- The comparison of `#verifyCheckLockTime` fails. -/
def lockTimeUnsatisfied (params : SpendParams) (required : Int) : Bool :=
  (decide (required < 500000000) != decide (params.lockTime < 500000000)) ||
    required > params.lockTime || params.inputSequence = 0xffffffff

def verifyCheckLockTime : SpendM Unit := do
  let params ← read
  if params.hasFlag "CHECKLOCKTIMEVERIFY" = false ∨ params.isAfterGenesis = true then pure ()
  else do
    requireStackItems 1 "OP_CHECKLOCKTIMEVERIFY requires one stack item."
    let top ← stackTop 1
    let required ← readLockTimeOperand top
    errorIf (required < 0) "Negative lock time."
    errorIf (lockTimeUnsatisfied params required = true)
      "OP_CHECKLOCKTIMEVERIFY lock time is unsatisfied."

/- The comparison of `#verifyCheckSequence` fails. -/
def sequenceUnsatisfied (params : SpendParams) (sequenceLock : Nat) : Bool :=
  let sequence := params.inputSequence % 2 ^ 32
  let mask := 0x00400000 ||| 0x0000ffff
  let required := sequenceLock &&& mask
  let actual := sequence &&& mask
  params.transactionVersion % 2 ^ 32 < 2 || sequence &&& 0x80000000 ≠ 0 ||
      required &&& 0x00400000 ≠ actual &&& 0x00400000 || required > actual

def verifyCheckSequence : SpendM Unit := do
  let params ← read
  if params.hasFlag "CHECKSEQUENCEVERIFY" = false ∨ params.isAfterGenesis = true then pure ()
  else do
    requireStackItems 1 ("OP_CHECKSEQUENCEVERIFY requires at least one item " ++
        "to be on the stack.")
    let top ← stackTop 1
    let sequenceLock ← readLockTimeOperand top
    errorIf (sequenceLock < 0) ("OP_CHECKSEQUENCEVERIFY requires a non-negative " ++ "lock time.")
    errorIf (sequenceLock.toNat &&& 0x80000000 = 0 ∧
        sequenceUnsatisfied params sequenceLock.toNat = true)
      "OP_CHECKSEQUENCEVERIFY lock time is unsatisfied."

-- Stack Operations

def atLeastText (name count items : String) : String :=
  name ++ " requires at least " ++ count ++ " " ++ items ++ " to be on the stack."

def opToaltstack : SpendM Unit := do
  requireStackItems 1 ("OP_TOALTSTACK requires at oeast one item to be on " ++ "the stack.")
  let item ← popStack
  pushAltStack item

def opFromaltstack : SpendM Unit := do
  requireAltStackItems 1 (atLeastText "OP_FROMALTSTACK" "one" "item")
  let item ← popAltStack
  pushStack item

def op2drop : SpendM Unit := do
  requireStackItems 2 (atLeastText "OP_2DROP" "two" "items")
  let _ ← popStack
  let _ ← popStack

def op2dup : SpendM Unit := do
  requireStackItems 2 (atLeastText "OP_2DUP" "two" "items")
  let buf1 ← stackTop 2
  let buf2 ← stackTop 1
  pushBytes buf1
  pushBytes buf2

def op3dup : SpendM Unit := do
  requireStackItems 3 (atLeastText "OP_3DUP" "three" "items")
  let buf1 ← stackTop 3
  let buf2 ← stackTop 2
  let buf3 ← stackTop 1
  pushBytes buf1
  pushBytes buf2
  pushBytes buf3

def op2over : SpendM Unit := do
  requireStackItems 4 (atLeastText "OP_2OVER" "four" "items")
  let buf1 ← stackTop 4
  let buf2 ← stackTop 3
  pushBytes buf1
  pushBytes buf2

def op2rot : SpendM Unit := do
  requireStackItems 6 (atLeastText "OP_2ROT" "six" "items")
  let rot6 ← popStack
  let rot5 ← popStack
  let rot4 ← popStack
  let rot3 ← popStack
  let rot2 ← popStack
  let rot1 ← popStack
  pushStack rot3
  pushStack rot4
  pushStack rot5
  pushStack rot6
  pushStack rot1
  pushStack rot2

def op2swap : SpendM Unit := do
  requireStackItems 4 (atLeastText "OP_2SWAP" "four" "items")
  let swap4 ← popStack
  let swap3 ← popStack
  let swap2 ← popStack
  let swap1 ← popStack
  pushStack swap3
  pushStack swap4
  pushStack swap1
  pushStack swap2

def opIfdup : SpendM Unit := do
  requireStackItems 1 (atLeastText "OP_IFDUP" "one" "item")
  let buf1 ← stackTop 1
  if castToBool buf1 then pushBytes buf1 else pure ()

def opDepth : SpendM Unit := do
  let spend ← get
  pushBytes (toScriptNum spend.stack.length)

def opDrop : SpendM Unit := do
  requireStackItems 1 (atLeastText "OP_DROP" "one" "item")
  let _ ← popStack

def opDup : SpendM Unit := do
  requireStackItems 1 (atLeastText "OP_DUP" "one" "item")
  let top ← stackTop 1
  pushBytes top

def opNip : SpendM Unit := do
  requireStackItems 2 (atLeastText "OP_NIP" "two" "items")
  let buf2 ← popStack
  let _ ← popStack
  pushStack buf2

def opOver : SpendM Unit := do
  requireStackItems 2 (atLeastText "OP_OVER" "two" "items")
  let buf ← stackTop 2
  pushBytes buf

/- The index `OP_PICK` and `OP_ROLL` pop. -/
def popIndex (name : String) : SpendM Nat := do
  requireStackItems 2 (atLeastText name "two" "items")
  let bn ← popNumber
  let spend ← get
  errorIf (bn < 0 ∨ (spend.stack.length : Int) ≤ bn)
    (name ++ " requires the top stack element to be 0 or " ++
      "a positive number less than the current size of " ++ "the stack.")
  return bn.toNat

def opPick : SpendM Unit := do
  let nIndex ← popIndex (OP.name OP.OP_PICK)
  let buf ← stackTop (nIndex + 1)
  pushBytes buf

def opRoll : SpendM Unit := do
  let nIndex ← popIndex (OP.name OP.OP_ROLL)
  let itemToMove ← removeStack nIndex (.thrown (holeError "length"))
  pushStack itemToMove

def opRot : SpendM Unit := do
  requireStackItems 3 (atLeastText "OP_ROT" "three" "items")
  let x3 ← popStack
  let x2 ← popStack
  let x1 ← popStack
  pushStack x2
  pushStack x3
  pushStack x1

def opSwap : SpendM Unit := do
  requireStackItems 2 (atLeastText "OP_SWAP" "two" "items")
  let x2 ← popStack
  let x1 ← popStack
  pushStack x2
  pushStack x1

def opTuck : SpendM Unit := do
  requireStackItems 2 (atLeastText "OP_TUCK" "two" "items")
  let buf1 ← stackTop 1
  insertStack 2 (.own buf1)

def opSize : SpendM Unit := do
  requireStackItems 1 (atLeastText "OP_SIZE" "one" "item")
  let top ← stackTop 1
  pushBytes (toScriptNum top.length)

-- Bytes

def opSubstr : SpendM Unit := do
  requireStackItems 3 (atLeastText "OP_SUBSTR" "three" "items")
  let lenBuf ← popBytes
  let len ← readSpliceOperand lenBuf
  let offsetBuf ← popBytes
  let offset ← readSpliceOperand offsetBuf
  let buf ← popBytes
  let size : Int := buf.length
  errorIf (offset < 0 ∨ size ≤ offset ∨ len < 0 ∨ size - offset < len)
    ("OP_SUBSTR offset (" ++ toString offset ++ ") must be in range [0, " ++ toString size ++
      ") and length (" ++ toString len ++ ") must be in range [0, " ++
      toString (size - offset) ++ "]")
  pushBytes ((buf.drop offset.toNat).take len.toNat)

/- `OP_LEFT` and `OP_RIGHT`. -/
def opSide (name : String) (side : Bytes → Nat → Bytes) : SpendM Unit := do
  requireStackItems 2 (atLeastText name "two" "items")
  let lenBuf ← popBytes
  let len ← readSpliceOperand lenBuf
  let buf ← popBytes
  let size : Int := buf.length
  errorIf (len < 0 ∨ size < len) (name ++ " length (" ++ toString len ++
      ") must be in range [0, " ++ toString size ++ "]")
  pushBytes (side buf len.toNat)

def opLeft : SpendM Unit :=
  opSide "OP_LEFT" fun buf len => buf.take len

def opRight : SpendM Unit :=
  opSide "OP_RIGHT" fun buf len => buf.drop (buf.length - len)

def opCat : SpendM Unit := do
  let params ← read
  requireStackItems 2 (atLeastText "OP_CAT" "two" "items")
  let buf2 ← popBytes
  let buf1 ← popBytes
  let catResult := buf1 ++ buf2
  errorIf (params.maxPushSize.any (· < catResult.length) = true)
    ("It's not currently possible to push data larger " ++
      "than " ++ params.maxPushSizeText ++ " bytes.")
  pushBytes catResult

def opSplit : SpendM Unit := do
  requireStackItems 2 (atLeastText "OP_SPLIT" "two" "items")
  let posBuf ← popBytes
  let dataToSplit ← popBytes
  let splitIndex ← readScriptNumber posBuf
  errorIf (splitIndex < 0 ∨ 2 ^ 31 - 1 < splitIndex ∨ (dataToSplit.length : Int) < splitIndex)
    ("OP_SPLIT requires the first stack item to be a " ++
      "non-negative number no greater than INT32_MAX and " ++
      "less than or equal to the size of the " ++ "second-from-top stack item.")
  pushBytes (dataToSplit.take splitIndex.toNat)
  pushBytes (dataToSplit.drop splitIndex.toNat)

/- The padded form `OP_NUM2BIN` gives a magnitude. -/
def padNumber (magnitude : Bytes) (negative : Bool) (size : Nat) : Bytes :=
  let padded := magnitude ++ List.replicate (size - magnitude.length) 0
  if negative then padded.modify (size - 1) (· ||| 0x80)
  else padded

/- The size `OP_NUM2BIN` pops. -/
def popBinSize : SpendM Nat := do
  let params ← read
  let size ← popNumber
  errorIf (params.maxPushSize.any (fun limit => limit < size) = true ∨ size < 0)
    ("It's not currently possible to push data larger " ++ "than " ++ params.maxPushSizeText ++
      " bytes or negative size.")
  errorIf (0x7fffffff < size) "OP_NUM2BIN size exceeds the node int32 push limit."
  StateProgram.throwIf (params.memoryLimit.any (max 0 · < size) = true)
    (.resourceLimit .elementSize (max 0 (params.memoryLimit.getD 0)) size)
  return size.toNat

def opNum2bin : SpendM Unit := do
  requireStackItems 2 (atLeastText "OP_NUM2BIN" "two" "items")
  let size ← popBinSize
  let item ← popStack
  let rawnum ← minimallyEncodeItem item
  let spend ← get
  errorIf (size < spend.itemLength rawnum) ("OP_NUM2BIN requires that the size expressed in the " ++
      "top stack item is large enough to hold the value " ++
      "expressed in the second-from-top stack item.")
  if spend.itemLength rawnum = size then pushStack rawnum
  else do
    let last := (spend.bytes rawnum).getLastD 0
    let magnitude ← clearSignItem rawnum
    pushBytes (padNumber magnitude (last &&& 0x80 ≠ 0) size)

def opBin2num : SpendM Unit := do
  requireStackItems 1 (atLeastText "OP_BIN2NUM" "one" "item")
  let buf1 ← popStack
  let b2nResult ← minimallyEncodeItem buf1
  let spend ← get
  errorIf (isMinimallyEncodedHelper (spend.bytes b2nResult) = false)
    ("OP_BIN2NUM requires that the resulting number is " ++ "valid.")
  pushStack b2nResult

-- Bits

/- `OP_AND`, `OP_OR` and `OP_XOR`. -/
def opBitwise (op : Nat) (operator : UInt8 → UInt8 → UInt8) : SpendM Unit := do
  requireStackItems 2 (OP.name op ++ " requires at least two items on the stack.")
  let buf2 ← popBytes
  let buf1 ← popBytes
  errorIf (buf1.length ≠ buf2.length)
    (OP.name op ++ " requires the top two stack items to " ++ "be the same size.")
  pushBytes (List.zipWith operator buf1 buf2)

def opInvert : SpendM Unit := do
  requireStackItems 1 (atLeastText "OP_INVERT" "one" "item")
  let buf ← popBytes
  pushBytes (buf.map (~~~ ·))

def beBytes (length n : Nat) : Bytes :=
  (LittleEndian.leBytes length n).reverse

/- `OP_LSHIFT` and `OP_RSHIFT`. -/
def opByteShift (op : Nat) (shift : Nat → Nat → Nat) : SpendM Unit := do
  requireStackItems 2 (atLeastText (OP.name op) "two" "items")
  let shiftBits ← popNumber
  let buf1 ← popBytes
  errorIf (shiftBits < 0) (OP.name op ++ " requires the top item on the stack " ++
      "not to be negative.")
  if buf1.length = 0 then pushBytes []
  else if (buf1.length : Int) * 8 ≤ shiftBits then pushBytes (List.replicate buf1.length 0)
  else
    pushBytes (beBytes buf1.length (shift (beToNat buf1) shiftBits.toNat % 2 ^ (buf1.length * 8)))

/- The shift count of `OP_LSHIFTNUM` and `OP_RSHIFTNUM`. -/
def popShiftCount (name : String) : SpendM Nat := do
  requireStackItems 2 (atLeastText name "two" "items")
  let bits ← popNumber
  errorIf (bits < 0) (name ++ " bits to shift must not be negative.")
  errorIf (0x7fffffff < bits) (name ++ " shift count exceeds INT_MAX.")
  return bits.toNat

def opLshiftnum : SpendM Unit := do
  let params ← read
  let bits ← popShiftCount "OP_LSHIFTNUM"
  let value ← popNumber
  let maxBytes := params.scriptNumMaxSize
  errorIf (value ≠ 0 ∧ maxBytes.any (· * 8 ≤ bits) = true) "script number overflow"
  let resultBytes := toScriptNum (value * 2 ^ bits)
  errorIf (maxBytes.any (· < resultBytes.length) = true) "script number overflow"
  pushBytes resultBytes

def opRshiftnum : SpendM Unit := do
  let bits ← popShiftCount "OP_RSHIFTNUM"
  let value ← popNumber
  pushBytes (toScriptNum (value.tdiv (2 ^ bits)))

/- `OP_EQUAL` and `OP_EQUALVERIFY`. -/
def opEqual (op : Nat) : SpendM Unit := do
  requireStackItems 2 (atLeastText (OP.name op) "two" "items")
  let buf2 ← popBytes
  let buf1 ← popBytes
  pushBytes (truthBytes (buf1 = buf2))
  if op = OP.OP_EQUALVERIFY then do
    errorIf (buf1 ≠ buf2) ("OP_EQUALVERIFY requires the top two stack items " ++ "to be equal.")
    let _ ← popStack
  else pure ()

-- Arithmetic

def byteLength (bn : Int) : Nat :=
  (magnitudeBytes bn.natAbs).length

def scriptBoolean (value : Bool) : Int :=
  if value then 1 else 0

def opUnary (op : Nat) (operator : Int → Int) : SpendM Unit := do
  requireStackItems 1 (atLeastText (OP.name op) "one" "item")
  let bn ← popNumber
  pushBytes (toScriptNum (operator bn))

/- The bytes reserved for the result of an operation. -/
def predictedLen (op : Nat) (bn1 bn2 : Int) : Nat :=
  if op = OP.OP_MUL then byteLength bn1 + byteLength bn2
  else if op = OP.OP_ADD ∨ op = OP.OP_SUB then max (byteLength bn1) (byteLength bn2) + 1
  else max (byteLength bn1) (byteLength bn2)

def opBinary (op : Nat) (operator : Int → Int → Except SpendError Int) :
  SpendM Unit := do
  requireStackItems 2 (atLeastText (OP.name op) "two" "items")
  let buf2 ← popBytes
  let buf1 ← popBytes
  let bn2 ← readScriptNumber buf2
  let bn1 ← readScriptNumber buf1
  ensureStackMem (predictedLen op bn1 bn2)
  let result ← StateProgram.ofExcept (operator bn1 bn2)
  pushBytes (toScriptNum result)
  if op = OP.OP_NUMEQUALVERIFY then do
    let top ← stackTop 1
    errorIf (castToBool top = false)
      ("OP_NUMEQUALVERIFY requires the top stack item to " ++ "be truthy.")
    let _ ← popStack
  else pure ()

def opTotal (op : Nat) (operator : Int → Int → Int) : SpendM Unit :=
  opBinary op fun bn1 bn2 => .ok (operator bn1 bn2)

/- A comparison or a logical operation. -/
def opCompare (op : Nat) (operator : Int → Int → Bool) : SpendM Unit :=
  opTotal op fun bn1 bn2 => scriptBoolean (operator bn1 bn2)

/- `OP_DIV` and `OP_MOD`, which round towards zero. -/
def opDivide (op : Nat) (operator : Int → Int → Int) : SpendM Unit :=
  opBinary op fun bn1 bn2 =>
    if bn2 = 0 then .error (.scriptEvaluation (OP.name op ++ " cannot divide by zero!"))
    else .ok (operator bn1 bn2)

def opWithin : SpendM Unit := do
  requireStackItems 3 (atLeastText "OP_WITHIN" "three" "items")
  let bn3 ← popNumber
  let bn2 ← popNumber
  let bn1 ← popNumber
  pushBytes (truthBytes (bn2 ≤ bn1 && bn1 < bn3))

-- Cryptography

def opHash (op : Nat) (hash : SpendCrypto → Bytes → Bytes) : SpendM Unit := do
  let params ← read
  requireStackItems 1 (atLeastText (OP.name op) "one" "item")
  let buf ← popBytes
  pushBytes (hash params.crypto buf)

def opCodeseparator : SpendM Unit :=
  modify fun spend =>
    { spend with
      lastCodeSeparator := some spend.programCounter }

def enforcesNullFail (params : SpendParams) : Bool :=
  params.hasFlag "NULLFAIL" && params.enforceNonMalleability

/- `OP_CHECKSIG` and `OP_CHECKSIGVERIFY`. -/
def opChecksig (op : Nat) : SpendM Unit := do
  let params ← read
  requireStackItems 2 (atLeastText (OP.name op) "two" "items")
  let bufPubkey ← popBytes
  let bufSig ← popBytes
  checkSignatureEncoding bufSig
  checkPublicKeyEncoding bufPubkey
  let spend ← get
  let fSuccess := checksigSucceeds params spend bufSig bufPubkey
  errorIf (fSuccess = false ∧ enforcesNullFail params = true ∧ 0 < bufSig.length)
    (OP.name op ++ " requires failing signatures to be empty.")
  pushBytes (truthBytes fSuccess)
  if op = OP.OP_CHECKSIGVERIFY then do
    errorIf (fSuccess = false)
      ("OP_CHECKSIGVERIFY requires that a valid signature " ++ "is provided.")
    let _ ← popStack
  else pure ()

/- A count `OP_CHECKMULTISIG` reads at a depth. -/
def readCount (depth limit : Nat) (message : String) : SpendM Nat := do
  let buf ← stackTop depth
  let count ← readScriptNumber buf
  errorIf (count < 0 ∨ (limit : Int) < count) message
  return count.toNat

def deleteSignatures (params : SpendParams) (isig : Nat) : Nat → Script → SpendM Script
| 0, subscript => pure subscript
| count + 1, subscript => do
    let bufSig ← stackTop isig
    let scope := (bufSig.getLastD 0).toNat
    let subscript ←
      if deletesSignature params scope then
        StateProgram.ofExcept ((deleteSignature subscript bufSig).mapError .thrown)
      else pure subscript
    deleteSignatures params (isig + 1) count subscript

/- A signature of `count` ones from a depth is not empty. -/
def hasNonEmptySignature (isig : Nat) : Nat → SpendM Bool
| 0 => pure false
| count + 1 => do
    let bufSig ← stackTop isig
    let rest ← hasNonEmptySignature (isig + 1) count
    return 0 < bufSig.length || rest

/-
  Match signatures with keys, in the order of the script.
  The recursion is on the number of keys left.
-/
def matchSignatures (params : SpendParams) (subscript : Script) :
  Nat → Nat → Nat → Nat → SpendM Bool
| _, _, _, 0 => pure true
| 0, _, _, _ + 1 => pure false
| nKeysCount + 1, isig, ikey, nSigsCount + 1 => do
    let bufSig ← stackTop isig
    let bufPubkey ← stackTop ikey
    checkSignatureEncoding bufSig
    checkPublicKeyEncoding bufPubkey
    let fOk := multisigKeyMatches params subscript bufSig bufPubkey
    let isig := if fOk then isig + 1 else isig
    let nSigsCount := if fOk then nSigsCount else nSigsCount + 1
    if nKeysCount < nSigsCount then pure false
    else matchSignatures params subscript nKeysCount isig (ikey + 1) nSigsCount

def popItems : Nat → SpendM Unit
| 0 => pure ()
| popCount + 1 => do
    let _ ← popStack
    popItems popCount

/- The largest key count of `OP_CHECKMULTISIG`. -/
def multisigKeyLimit (params : SpendParams) : Nat :=
  if params.isExplicitlyBeforeGenesis then 20
  else 2 ^ 31 - 1

/- The result of `OP_CHECKMULTISIG` replaces its operands. -/
def finishMultisig (op itemsConsumedByOp : Nat) (fSuccess : Bool) : SpendM Unit := do
  let params ← read
  popItems (itemsConsumedByOp - 1)
  requireStackItems 1 (OP.name op ++ " requires an extra item (dummy) to be on the stack.")
  let dummyBuf ← popBytes
  errorIf (params.shouldEnforceNullDummy = true ∧ 0 < dummyBuf.length)
    (OP.name op ++ " requires the extra stack item (dummy) to be empty.")
  pushBytes (truthBytes fSuccess)
  if op = OP.OP_CHECKMULTISIGVERIFY then do
    errorIf (fSuccess = false) ("OP_CHECKMULTISIGVERIFY requires that a sufficient " ++
        "number of valid signatures are provided.")
    let _ ← popStack
  else pure ()

/- `OP_CHECKMULTISIG` and `OP_CHECKMULTISIGVERIFY`. -/
def opCheckmultisig (op : Nat) : SpendM Unit := do
  let params ← read
  let name := OP.name op
  requireStackItems 1 (name ++ " requires at least 1 item for nKeys.")
  let nKeysCount ←
    readCount 1 (multisigKeyLimit params) (name ++ " requires a key count between 0 and " ++
        toString (multisigKeyLimit params) ++ ".")
  let spend ← get
  errorIf (spend.stack.length < 2 + nKeysCount)
    (name ++ " stack too small for nKeys and keys. Need " ++
      toString (2 + nKeysCount) ++ ", have " ++ toString spend.stack.length ++ ".")
  let nSigsCount ←
    readCount (2 + nKeysCount) nKeysCount (name ++ " requires the number of signatures to be " ++
        "no greater than the number of keys.")
  let isig := 3 + nKeysCount
  errorIf (spend.stack.length < isig + nSigsCount)
    (name ++ " stack too small for N, keys, M, sigs, and " ++
      "dummy. Need " ++ toString (isig + nSigsCount) ++
      ", have " ++ toString spend.stack.length ++ ".")
  let nonEmpty ← hasNonEmptySignature isig nSigsCount
  let subscript ← deleteSignatures params isig nSigsCount (spend.subscriptOf spend.scriptCodeChunks)
  let fSuccess ← matchSignatures params subscript nKeysCount isig 2 nSigsCount
  errorIf (fSuccess = false ∧ enforcesNullFail params = true ∧ nonEmpty = true)
    (name ++ " requires failing signatures to be empty.")
  finishMultisig op (3 + nKeysCount + nSigsCount) fSuccess

end TsStack.Spend
