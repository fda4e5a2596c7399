import TsStack.Script.SpendAccounting

/-
  Every case of the interpreter's switch keeps the
  accounting.

  Key theorems include:
    * `Spend.keeps_executeOpcode`
-/

-- Constants and Control

open List

namespace TsStack.Spend

open StateProgram

variable {count : Nat}

theorem keeps_opVer : KeepsUnit count opVer :=
  keeps_read.bind fun _ _ => keeps_pushBytes _

theorem keeps_opConstant (n : Int) : KeepsUnit count (opConstant n) :=
  keeps_pushStackCopy _

theorem keeps_opNop : KeepsUnit count opNop :=
  keeps_pure trivial

theorem keeps_pushCondition (fValue : Bool) : KeepsUnit count (pushCondition fValue) :=
  keeps_conditionals
    (f := (fValue :: ·)) (g := (false :: ·))
    (fun _ => rfl) fun _ _ hLen => by simpa using hLen

theorem keeps_popVersionCondition (negated : Bool) :
  Keeps count (popVersionCondition negated) (fun _ => True) := by
  refine keeps_read.bind fun params _ => ?_
  apply (keeps_requireStackItems _ _).andThen
  refine keeps_popBytes.bind fun buf1 _ => ?_
  exact keeps_pure trivial

theorem keeps_popIfCondition (negated : Bool) :
  Keeps count (popIfCondition negated) (fun _ => True) := by
  refine keeps_read.bind fun params _ => ?_
  apply (keeps_requireStackItems _ _).andThen
  refine keeps_popBytes.bind fun buf _ => ?_
  apply (keeps_errorIf _ _).andThen
  exact keeps_pure trivial

theorem keeps_opVerif (negated isScriptExecuting : Bool) :
  KeepsUnit count (opVerif negated isScriptExecuting) := by
  refine .ite (fun _ => ?_) fun _ => ?_
  · exact (keeps_popVersionCondition negated).bind fun _ _ => keeps_pushCondition _
  · exact keeps_pushCondition false

theorem keeps_opIf (negated isScriptExecuting : Bool) :
  KeepsUnit count (opIf negated isScriptExecuting) := by
  refine .ite (fun _ => ?_) fun _ => ?_
  · exact (keeps_popIfCondition negated).bind fun _ _ => keeps_pushCondition _
  · exact keeps_pushCondition false

theorem length_assignTop (value : Bool) (stack : List Bool) :
  (assignTop value stack).length = stack.length := by
  cases stack <;> rfl

theorem keeps_opElse : KeepsUnit count opElse := by
  refine keeps_read.bind fun params _ => ?_
  refine keeps_get.bind fun spend _ => ?_
  apply (keeps_errorIf _ _).andThen
  apply (keeps_errorIf _ _).andThen
  refine keeps_conditionals
    (f := fun stack => assignTop (stack.head? != some true) stack)
    (g := assignTop true) (fun _ => rfl) ?_
  intro left right hLen
  rw [length_assignTop, length_assignTop, hLen]

theorem keeps_opEndif : KeepsUnit count opEndif := by
  refine keeps_get.bind fun spend _ => ?_
  apply (keeps_errorIf _ _).andThen
  refine keeps_conditionals
    (f := tail) (g := tail)
    (fun _ => rfl) ?_
  intro left right hLen
  rw [length_tail, length_tail, hLen]

theorem keeps_opVerify : KeepsUnit count opVerify := by
  apply (keeps_requireStackItems _ _).andThen
  refine (keeps_stackTop _).bind fun buf1 _ => ?_
  apply (keeps_errorIf _ _).andThen
  exact keeps_popStack.bind fun _ _ => keeps_pure trivial

/- Moving to the last chunk stays inside the script. -/
theorem keeps_opReturn : KeepsUnit count opReturn := by
  refine keeps_read.bind fun params _ => ?_
  apply (keeps_errorIf _ _).andThen
  refine keeps_modify fun params spend hInv => ?_
  rcases hInv with ⟨hAcct, hAlloc, hCount⟩
  have hFields := And.intro hAcct.stackMem (And.intro hAcct.altStackMem hAcct.conditionals)
  split_ifs
  · exact ⟨⟨⟨hFields.1, hFields.2.1, hFields.2.2⟩,
      ⟨hAlloc.stack, hAlloc.altStack, hAlloc.unlockingScript,
        hAlloc.lockingScript⟩, hCount⟩,
      id, frame_of_eq rfl rfl rfl rfl⟩
  · refine ⟨⟨⟨hFields.1, hFields.2.1, hFields.2.2⟩,
        ⟨hAlloc.stack, hAlloc.altStack, hAlloc.unlockingScript,
          hAlloc.lockingScript⟩, hCount⟩,
        id, rfl, rfl, rfl, ?_⟩
    intro hLt
    simp only
    omega

theorem keeps_verifyCheckLockTime : KeepsUnit count verifyCheckLockTime := by
  refine keeps_read.bind fun params _ => ?_
  refine .ite (fun _ => keeps_pure trivial) fun _ => ?_
  apply (keeps_requireStackItems _ _).andThen
  refine (keeps_stackTop _).bind fun top _ => ?_
  refine (keeps_readLockTimeOperand _).bind fun required _ => ?_
  apply (keeps_errorIf _ _).andThen
  exact (keeps_errorIf _ _).any

theorem keeps_verifyCheckSequence : KeepsUnit count verifyCheckSequence := by
  refine keeps_read.bind fun params _ => ?_
  refine .ite (fun _ => keeps_pure trivial) fun _ => ?_
  apply (keeps_requireStackItems _ _).andThen
  refine (keeps_stackTop _).bind fun top _ => ?_
  refine (keeps_readLockTimeOperand _).bind fun sequenceLock _ => ?_
  apply (keeps_errorIf _ _).andThen
  exact (keeps_errorIf _ _).any

-- Stack Operations

theorem keeps_opToaltstack : KeepsUnit count opToaltstack := by
  apply (keeps_requireStackItems _ _).andThen
  exact keeps_popStack.bind fun _ hItem => keeps_pushAltStack hItem

theorem keeps_opFromaltstack : KeepsUnit count opFromaltstack := by
  apply (keeps_requireAltStackItems _ _).andThen
  exact keeps_popAltStack.bind fun _ hItem => keeps_pushStack hItem

theorem keeps_op2drop : KeepsUnit count op2drop := by
  apply (keeps_requireStackItems _ _).andThen
  refine keeps_popStack.bind fun _ _ => ?_
  exact keeps_popStack.bind fun _ _ => keeps_pure trivial

theorem keeps_op2dup : KeepsUnit count op2dup := by
  apply (keeps_requireStackItems _ _).andThen
  refine (keeps_stackTop _).bind fun buf1 _ => ?_
  refine (keeps_stackTop _).bind fun buf2 _ => ?_
  apply (keeps_pushBytes _).andThen
  exact keeps_pushBytes _

theorem keeps_op3dup : KeepsUnit count op3dup := by
  apply (keeps_requireStackItems _ _).andThen
  refine (keeps_stackTop _).bind fun buf1 _ => ?_
  refine (keeps_stackTop _).bind fun buf2 _ => ?_
  refine (keeps_stackTop _).bind fun buf3 _ => ?_
  apply (keeps_pushBytes _).andThen
  apply (keeps_pushBytes _).andThen
  exact keeps_pushBytes _

theorem keeps_op2over : KeepsUnit count op2over := by
  apply (keeps_requireStackItems _ _).andThen
  refine (keeps_stackTop _).bind fun buf1 _ => ?_
  refine (keeps_stackTop _).bind fun buf2 _ => ?_
  apply (keeps_pushBytes _).andThen
  exact keeps_pushBytes _

theorem keeps_op2rot : KeepsUnit count op2rot := by
  apply (keeps_requireStackItems _ _).andThen
  refine keeps_popStack.bind fun rot6 hRot6 => ?_
  refine keeps_popStack.bind fun rot5 hRot5 => ?_
  refine keeps_popStack.bind fun rot4 hRot4 => ?_
  refine keeps_popStack.bind fun rot3 hRot3 => ?_
  refine keeps_popStack.bind fun rot2 hRot2 => ?_
  refine keeps_popStack.bind fun rot1 hRot1 => ?_
  apply (keeps_pushStack hRot3).andThen
  apply (keeps_pushStack hRot4).andThen
  apply (keeps_pushStack hRot5).andThen
  apply (keeps_pushStack hRot6).andThen
  apply (keeps_pushStack hRot1).andThen
  exact keeps_pushStack hRot2

theorem keeps_op2swap : KeepsUnit count op2swap := by
  apply (keeps_requireStackItems _ _).andThen
  refine keeps_popStack.bind fun swap4 hSwap4 => ?_
  refine keeps_popStack.bind fun swap3 hSwap3 => ?_
  refine keeps_popStack.bind fun swap2 hSwap2 => ?_
  refine keeps_popStack.bind fun swap1 hSwap1 => ?_
  apply (keeps_pushStack hSwap3).andThen
  apply (keeps_pushStack hSwap4).andThen
  apply (keeps_pushStack hSwap1).andThen
  exact keeps_pushStack hSwap2

theorem keeps_opIfdup : KeepsUnit count opIfdup := by
  apply (keeps_requireStackItems _ _).andThen
  refine (keeps_stackTop _).bind fun buf1 _ => ?_
  exact .ite (fun _ => keeps_pushBytes _) fun _ => keeps_pure trivial

theorem keeps_opDepth : KeepsUnit count opDepth :=
  keeps_get.bind fun _ _ => keeps_pushBytes _

theorem keeps_opDrop : KeepsUnit count opDrop := by
  apply (keeps_requireStackItems _ _).andThen
  exact keeps_popStack.bind fun _ _ => keeps_pure trivial

theorem keeps_copyTop (minimum depth : Nat) (message : String) (copied : Bytes → Bytes) :
  KeepsUnit count (do
    requireStackItems minimum message
    let top ← stackTop depth
    pushBytes (copied top)) := by
  apply (keeps_requireStackItems _ _).andThen
  exact (keeps_stackTop _).bind fun _ _ => keeps_pushBytes _

theorem keeps_opDup : KeepsUnit count opDup :=
  keeps_copyTop 1 1 _ id

theorem keeps_opNip : KeepsUnit count opNip := by
  apply (keeps_requireStackItems _ _).andThen
  refine keeps_popStack.bind fun buf2 hBuf2 => ?_
  refine keeps_popStack.bind fun _ _ => ?_
  exact keeps_pushStack hBuf2

theorem keeps_opOver : KeepsUnit count opOver :=
  keeps_copyTop 2 2 _ id

variable (op : Nat) (name : String)

theorem keeps_popIndex : Keeps count (popIndex name) (fun _ => True) := by
  apply (keeps_requireStackItems _ _).andThen
  refine keeps_popNumber.bind fun bn _ => ?_
  refine keeps_get.bind fun spend _ => ?_
  apply (keeps_errorIf _ _).andThen
  exact keeps_pure trivial

theorem keeps_opPick : KeepsUnit count opPick := by
  refine (keeps_popIndex _).bind fun nIndex _ => ?_
  exact (keeps_stackTop _).bind fun _ _ => keeps_pushBytes _

theorem keeps_opRoll : KeepsUnit count opRoll := by
  refine (keeps_popIndex _).bind fun nIndex _ => ?_
  exact (keeps_removeStack _ _).bind fun _ hItem => keeps_pushStack hItem

theorem keeps_opRot : KeepsUnit count opRot := by
  apply (keeps_requireStackItems _ _).andThen
  refine keeps_popStack.bind fun x3 hX3 => ?_
  refine keeps_popStack.bind fun x2 hX2 => ?_
  refine keeps_popStack.bind fun x1 hX1 => ?_
  apply (keeps_pushStack hX2).andThen
  apply (keeps_pushStack hX3).andThen
  exact keeps_pushStack hX1

theorem keeps_opSwap : KeepsUnit count opSwap := by
  apply (keeps_requireStackItems _ _).andThen
  refine keeps_popStack.bind fun x2 hX2 => ?_
  refine keeps_popStack.bind fun x1 hX1 => ?_
  apply (keeps_pushStack hX2).andThen
  exact keeps_pushStack hX1

theorem keeps_opTuck : KeepsUnit count opTuck := by
  apply (keeps_requireStackItems _ _).andThen
  refine (keeps_stackTop _).bind fun buf1 _ => ?_
  exact keeps_insertStack 2 trivial

theorem keeps_opSize : KeepsUnit count opSize :=
  keeps_copyTop 1 1 _ fun top => toScriptNum top.length

-- Bytes and Bits

theorem keeps_opSubstr : KeepsUnit count opSubstr := by
  apply (keeps_requireStackItems _ _).andThen
  refine keeps_popBytes.bind fun lenBuf _ => ?_
  refine (keeps_readSpliceOperand _).bind fun len _ => ?_
  refine keeps_popBytes.bind fun offsetBuf _ => ?_
  refine (keeps_readSpliceOperand _).bind fun offset _ => ?_
  refine keeps_popBytes.bind fun buf _ => ?_
  apply (keeps_errorIf _ _).andThen
  exact keeps_pushBytes _

theorem keeps_opSide (side : Bytes → Nat → Bytes) : KeepsUnit count (opSide name side) := by
  apply (keeps_requireStackItems _ _).andThen
  refine keeps_popBytes.bind fun lenBuf _ => ?_
  refine (keeps_readSpliceOperand _).bind fun len _ => ?_
  refine keeps_popBytes.bind fun buf _ => ?_
  apply (keeps_errorIf _ _).andThen
  exact keeps_pushBytes _

theorem keeps_opCat : KeepsUnit count opCat := by
  refine keeps_read.bind fun params _ => ?_
  apply (keeps_requireStackItems _ _).andThen
  refine keeps_popBytes.bind fun buf2 _ => ?_
  refine keeps_popBytes.bind fun buf1 _ => ?_
  apply (keeps_errorIf _ _).andThen
  exact keeps_pushBytes _

theorem keeps_opSplit : KeepsUnit count opSplit := by
  apply (keeps_requireStackItems _ _).andThen
  refine keeps_popBytes.bind fun posBuf _ => ?_
  refine keeps_popBytes.bind fun dataToSplit _ => ?_
  refine (keeps_readScriptNumber _).bind fun splitIndex _ => ?_
  apply (keeps_errorIf _ _).andThen
  apply (keeps_pushBytes _).andThen
  exact keeps_pushBytes _

theorem keeps_popBinSize : Keeps count popBinSize (fun _ => True) := by
  refine keeps_read.bind fun params _ => ?_
  refine keeps_popNumber.bind fun size _ => ?_
  apply (keeps_errorIf _ _).andThen
  apply (keeps_errorIf _ _).andThen
  apply (keeps_throwIf _ _).andThen
  exact keeps_pure trivial

theorem keeps_opNum2bin : KeepsUnit count opNum2bin := by
  apply (keeps_requireStackItems _ _).andThen
  refine keeps_popBinSize.bind fun size _ => ?_
  refine keeps_popStack.bind fun item hItem => ?_
  refine (keeps_minimallyEncodeItem hItem).bind fun rawnum hRawnum => ?_
  refine keeps_get.bind fun spend _ => ?_
  apply (keeps_errorIf _ _).andThen
  refine .ite (fun _ => keeps_pushStack hRawnum) fun _ => ?_
  exact (keeps_clearSignItem rawnum).bind fun _ _ => keeps_pushBytes _

theorem keeps_opBin2num : KeepsUnit count opBin2num := by
  apply (keeps_requireStackItems _ _).andThen
  refine keeps_popStack.bind fun buf1 hBuf1 => ?_
  refine (keeps_minimallyEncodeItem hBuf1).bind fun b2nResult hRes => ?_
  refine keeps_get.bind fun spend _ => ?_
  apply (keeps_errorIf _ _).andThen
  exact keeps_pushStack hRes

theorem keeps_opBitwise (operator : UInt8 → UInt8 → UInt8) :
  KeepsUnit count (opBitwise op operator) := by
  apply (keeps_requireStackItems _ _).andThen
  refine keeps_popBytes.bind fun buf2 _ => ?_
  refine keeps_popBytes.bind fun buf1 _ => ?_
  apply (keeps_errorIf _ _).andThen
  exact keeps_pushBytes _

theorem keeps_opInvert : KeepsUnit count opInvert := by
  apply (keeps_requireStackItems _ _).andThen
  exact keeps_popBytes.bind fun _ _ => keeps_pushBytes _

theorem keeps_opByteShift (shift : Nat → Nat → Nat) : KeepsUnit count (opByteShift op shift) := by
  apply (keeps_requireStackItems _ _).andThen
  refine keeps_popNumber.bind fun shiftBits _ => ?_
  refine keeps_popBytes.bind fun buf1 _ => ?_
  apply (keeps_errorIf _ _).andThen
  refine .ite (fun _ => keeps_pushBytes _) fun _ => ?_
  exact .ite (fun _ => keeps_pushBytes _) fun _ => keeps_pushBytes _

theorem keeps_popShiftCount : Keeps count (popShiftCount name) (fun _ => True) := by
  apply (keeps_requireStackItems _ _).andThen
  refine keeps_popNumber.bind fun bits _ => ?_
  apply (keeps_errorIf _ _).andThen
  apply (keeps_errorIf _ _).andThen
  exact keeps_pure trivial

theorem keeps_opLshiftnum : KeepsUnit count opLshiftnum := by
  refine keeps_read.bind fun params _ => ?_
  refine (keeps_popShiftCount _).bind fun bits _ => ?_
  refine keeps_popNumber.bind fun value _ => ?_
  apply (keeps_errorIf _ _).andThen
  apply (keeps_errorIf _ _).andThen
  exact keeps_pushBytes _

theorem keeps_opRshiftnum : KeepsUnit count opRshiftnum := by
  refine (keeps_popShiftCount _).bind fun bits _ => ?_
  refine keeps_popNumber.bind fun value _ => ?_
  exact keeps_pushBytes _

theorem keeps_verifyTail
  {condition failed : Prop} [Decidable condition] [Decidable failed] (message : String) :
  KeepsUnit count (if condition then do
      errorIf failed message
      let _ ← popStack
    else pure ()) := by
  refine .ite (fun _ => ?_) fun _ => keeps_pure trivial
  apply (keeps_errorIf _ _).andThen
  exact keeps_popStack.bind fun _ _ => keeps_pure trivial

theorem keeps_opEqual : KeepsUnit count (opEqual op) := by
  apply (keeps_requireStackItems _ _).andThen
  refine keeps_popBytes.bind fun buf2 _ => ?_
  refine keeps_popBytes.bind fun buf1 _ => ?_
  apply (keeps_pushBytes _).andThen
  exact keeps_verifyTail _

theorem keeps_opUnary (operator : Int → Int) : KeepsUnit count (opUnary op operator) := by
  apply (keeps_requireStackItems _ _).andThen
  exact keeps_popNumber.bind fun _ _ => keeps_pushBytes _

theorem keeps_opBinary (operator : Int → Int → Except SpendError Int) :
  KeepsUnit count (opBinary op operator) := by
  apply (keeps_requireStackItems _ _).andThen
  refine keeps_popBytes.bind fun buf2 _ => ?_
  refine keeps_popBytes.bind fun buf1 _ => ?_
  refine (keeps_readScriptNumber _).bind fun bn2 _ => ?_
  refine (keeps_readScriptNumber _).bind fun bn1 _ => ?_
  apply (keeps_ensureStackMem _).andThen
  refine (keeps_ofExcept _).bind fun result _ => ?_
  apply (keeps_pushBytes _).andThen
  refine .ite (fun _ => ?_) fun _ => keeps_pure trivial
  refine (keeps_stackTop _).bind fun top _ => ?_
  apply (keeps_errorIf _ _).andThen
  exact keeps_popStack.bind fun _ _ => keeps_pure trivial

theorem keeps_opWithin : KeepsUnit count opWithin := by
  apply (keeps_requireStackItems _ _).andThen
  refine keeps_popNumber.bind fun bn3 _ => ?_
  refine keeps_popNumber.bind fun bn2 _ => ?_
  refine keeps_popNumber.bind fun bn1 _ => ?_
  exact keeps_pushBytes _

-- Cryptography

theorem keeps_opHash (hash : SpendCrypto → Bytes → Bytes) : KeepsUnit count (opHash op hash) := by
  refine keeps_read.bind fun params _ => ?_
  apply (keeps_requireStackItems _ _).andThen
  exact keeps_popBytes.bind fun _ _ => keeps_pushBytes _

theorem keeps_opCodeseparator : KeepsUnit count opCodeseparator := by
  refine keeps_modify fun params spend hInv => ?_
  rcases hInv with ⟨hAcct, hAlloc, hCount⟩
  exact ⟨⟨⟨hAcct.stackMem, hAcct.altStackMem, hAcct.conditionals⟩,
    ⟨hAlloc.stack, hAlloc.altStack, hAlloc.unlockingScript,
      hAlloc.lockingScript⟩, hCount⟩,
    id, frame_of_eq rfl rfl rfl rfl⟩

theorem keeps_opChecksig : KeepsUnit count (opChecksig op) := by
  refine keeps_read.bind fun params _ => ?_
  apply (keeps_requireStackItems _ _).andThen
  refine keeps_popBytes.bind fun bufPubkey _ => ?_
  refine keeps_popBytes.bind fun bufSig _ => ?_
  apply (keeps_checkSignatureEncoding _).andThen
  apply (keeps_checkPublicKeyEncoding _).andThen
  refine keeps_get.bind fun spend _ => ?_
  apply (keeps_errorIf _ _).andThen
  apply (keeps_pushBytes _).andThen
  exact keeps_verifyTail _

variable {contract : Contract SpendParams Spend}

theorem keeps_readCount (depth limit : Nat) (message : String) :
  StateProgram.Keeps contract (readCount depth limit message) (fun _ => True) := by
  refine (keeps_stackTop _).bind fun buf _ => ?_
  refine (keeps_readScriptNumber _).bind fun n _ => ?_
  apply (keeps_errorIf _ _).andThen
  exact keeps_pure trivial

theorem keeps_deleteSignatures (params : SpendParams) (isig sigs : Nat) (subscript : Script) :
  StateProgram.Keeps contract (deleteSignatures params isig sigs subscript) (fun _ => True) := by
  induction sigs generalizing isig subscript with
  | zero => exact keeps_pure trivial
  | succ sigs ih =>
    refine (keeps_stackTop _).bind fun bufSig _ => ?_
    refine .ite (fun _ => ?_) fun _ => ih _ _
    exact (keeps_ofExcept _).bind fun _ _ => ih _ _

theorem keeps_hasNonEmptySignature (isig sigs : Nat) :
  StateProgram.Keeps contract (hasNonEmptySignature isig sigs) (fun _ => True) := by
  induction sigs generalizing isig with
  | zero => exact keeps_pure trivial
  | succ sigs ih =>
    refine (keeps_stackTop _).bind fun bufSig _ => ?_
    exact (ih _).bind fun _ _ => keeps_pure trivial

theorem keeps_matchSignatures
  (params : SpendParams) (subscript : Script) (nKeysCount isig ikey nSigsCount : Nat) :
  StateProgram.Keeps contract (matchSignatures params subscript nKeysCount isig ikey nSigsCount)
    (fun _ => True) := by
  induction nKeysCount generalizing isig ikey nSigsCount with
  | zero => cases nSigsCount <;> exact keeps_pure trivial
  | succ nKeysCount ih =>
    cases nSigsCount with
    | zero => exact keeps_pure trivial
    | succ nSigsCount =>
      refine (keeps_stackTop _).bind fun bufSig _ => ?_
      refine (keeps_stackTop _).bind fun bufPubkey _ => ?_
      apply (keeps_checkSignatureEncoding _).andThen
      apply (keeps_checkPublicKeyEncoding _).andThen
      exact .ite (fun _ => keeps_pure trivial) fun _ => ih _ _ _

theorem keeps_popItems (popCount : Nat) : KeepsUnit count (popItems popCount) := by
  induction popCount with
  | zero => exact keeps_pure trivial
  | succ popCount ih => exact keeps_popStack.bind fun _ _ => ih

theorem keeps_finishMultisig (op itemsConsumedByOp : Nat) (fSuccess : Bool) :
  KeepsUnit count (finishMultisig op itemsConsumedByOp fSuccess) := by
  refine keeps_read.bind fun params _ => ?_
  refine (keeps_popItems _).bind fun _ _ => ?_
  apply (keeps_requireStackItems _ _).andThen
  refine keeps_popBytes.bind fun dummyBuf _ => ?_
  apply (keeps_errorIf _ _).andThen
  apply (keeps_pushBytes _).andThen
  exact keeps_verifyTail _

theorem keeps_opCheckmultisig : KeepsUnit count (opCheckmultisig op) := by
  refine keeps_read.bind fun params _ => ?_
  apply (keeps_requireStackItems _ _).andThen
  refine (keeps_readCount _ _ _).bind fun nKeysCount _ => ?_
  refine keeps_get.bind fun spend _ => ?_
  apply (keeps_errorIf _ _).andThen
  refine (keeps_readCount _ _ _).bind fun nSigsCount _ => ?_
  apply (keeps_errorIf _ _).andThen
  refine (keeps_hasNonEmptySignature _ _).bind fun nonEmpty _ => ?_
  refine (keeps_deleteSignatures _ _ _ _).bind fun subscript _ => ?_
  refine (keeps_matchSignatures _ _ _ _ _ _).bind fun fSuccess _ => ?_
  apply (keeps_errorIf _ _).andThen
  exact keeps_finishMultisig _ _ _

theorem keeps_switchCases (isScriptExecuting : Bool) :
  ∀ switchCase ∈ switchCases isScriptExecuting, KeepsUnit count switchCase.2 := by
  have hConstant : ∀ switchCase ∈ constantCases, KeepsUnit count switchCase.2 := by
    simp only [constantCases, forall_mem_cons, keeps_opVer, keeps_opConstant, true_and]
    simp
  have hControl : ∀ switchCase ∈ controlCases isScriptExecuting, KeepsUnit count switchCase.2 := by
    simp only [controlCases, forall_mem_cons, keeps_opNop, keeps_verifyCheckLockTime,
      keeps_verifyCheckSequence, keeps_opVerif, keeps_opIf,
      keeps_opElse, keeps_opEndif, keeps_opVerify, keeps_opReturn, true_and]
    simp
  have hStack : ∀ switchCase ∈ stackCases, KeepsUnit count switchCase.2 := by
    simp only [stackCases, forall_mem_cons, keeps_opToaltstack, keeps_opFromaltstack,
      keeps_op2drop, keeps_op2dup, keeps_op3dup, keeps_op2over, keeps_op2rot, keeps_op2swap,
      keeps_opIfdup, keeps_opDepth, keeps_opDrop,
      keeps_opDup, keeps_opNip, keeps_opOver, keeps_opPick, keeps_opRoll, keeps_opRot, keeps_opSwap,
      keeps_opTuck, keeps_opSize, true_and]
    simp
  have hByte : ∀ switchCase ∈ byteCases, KeepsUnit count switchCase.2 := by
    simp only [byteCases, opLeft, opRight, forall_mem_cons, keeps_opSubstr, keeps_opSide,
      keeps_opLshiftnum, keeps_opRshiftnum, keeps_opBitwise, keeps_opInvert, keeps_opByteShift,
      keeps_opEqual, keeps_opCat, keeps_opSplit, keeps_opNum2bin, keeps_opBin2num, true_and]
    simp
  have hArithmetic : ∀ switchCase ∈ arithmeticCases, KeepsUnit count switchCase.2 := by
    simp only [arithmeticCases, opCompare, opTotal, opDivide, forall_mem_cons, keeps_opUnary,
      keeps_opBinary, keeps_opWithin, true_and]
    simp
  have hCrypto : ∀ switchCase ∈ cryptoCases, KeepsUnit count switchCase.2 := by
    simp only [cryptoCases, forall_mem_cons, keeps_opHash, keeps_opCodeseparator,
      keeps_opChecksig, keeps_opCheckmultisig, true_and]
    simp
  intro switchCase hCase
  simp only [switchCases, mem_append] at hCase
  rcases hCase with ((((hCase | hCase) | hCase) | hCase) | hCase) | hCase
  · exact hConstant switchCase hCase
  · exact hControl switchCase hCase
  · exact hStack switchCase hCase
  · exact hByte switchCase hCase
  · exact hArithmetic switchCase hCase
  · exact hCrypto switchCase hCase

theorem mem_of_lookup
  {α β : Type} [BEq α] [LawfulBEq α] {table : List (α × β)} {key : α} {value : β}
  (hLook : table.lookup key = some value) : (key, value) ∈ table := by
  induction table with
  | nil => cases hLook
  | cons head table ih =>
    rw [lookup_cons] at hLook
    split at hLook
    · rename_i hKey
      cases hLook
      rw [beq_iff_eq] at hKey
      subst hKey
      exact mem_cons_self
    · exact mem_cons_of_mem _ (ih hLook)

theorem keeps_executeOpcode (currentOpcode : Nat) (isScriptExecuting : Bool) :
  KeepsUnit count (executeOpcode currentOpcode isScriptExecuting) := by
  unfold executeOpcode
  cases hLook : (switchCases isScriptExecuting).lookup currentOpcode with
  | none => exact keeps_get.bind fun _ _ => keeps_scriptEvaluationError _
  | some operation => exact keeps_switchCases isScriptExecuting _ (mem_of_lookup hLook)

end TsStack.Spend
