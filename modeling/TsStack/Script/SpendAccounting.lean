import TsStack.Script.Spend

/-
  What every helper of the interpreter keeps: the memory
  counters are the lengths of the stacks.
-/

-- The Invariant

open List hiding modify

namespace TsStack

def totalLength (arrays : List Bytes) (items : List StackItem) : Int :=
  (items.map fun item => ((item.bytes arrays).length : Int)).sum

/- An item refers to an array that exists. -/
def StackItem.Allocated (count : Nat) : StackItem → Prop
| .own _ => True
| .chunkData ref => ref < count

def SpendScript.Allocated (script : SpendScript) (count : Nat) : Prop :=
  ∀ chunk, some chunk ∈ script.chunks → ∀ ref, chunk.data = some ref → ref < count

namespace Spend

structure Accounting (spend : Spend) : Prop where
  stackMem : spend.stackMem = totalLength spend.arrays spend.stack
  altStackMem : spend.altStackMem = totalLength spend.arrays spend.altStack
  conditionals : spend.ifStack.length = spend.elseStack.length

structure Allocated (spend : Spend) : Prop where
  stack : ∀ item ∈ spend.stack, item.Allocated spend.arrays.length
  altStack : ∀ item ∈ spend.altStack, item.Allocated spend.arrays.length
  unlockingScript : spend.unlockingScript.Allocated spend.arrays.length
  lockingScript : spend.lockingScript.Allocated spend.arrays.length

def WithinLimit (params : SpendParams) (spend : Spend) : Prop :=
  ∀ limit, params.memoryLimit = some limit → spend.stackMem ≤ limit ∧ spend.altStackMem ≤ limit

/- The running script and the position in it stay valid. -/
structure Frame (before after : Spend) : Prop where
  unlockingScript : after.unlockingScript = before.unlockingScript
  lockingScript : after.lockingScript = before.lockingScript
  context : after.context = before.context
  programCounter : before.programCounter < before.contextScript.chunks.length →
      before.programCounter ≤ after.programCounter ∧
        after.programCounter < before.contextScript.chunks.length

theorem Frame.contextScript {before after : Spend} (hFrame : Frame before after) :
  after.contextScript = before.contextScript := by
  unfold Spend.contextScript
  rw [hFrame.context, hFrame.unlockingScript, hFrame.lockingScript]

theorem frame_refl (spend : Spend) : Frame spend spend :=
  ⟨rfl, rfl, rfl, fun hLt => ⟨le_rfl, hLt⟩⟩

theorem Frame.trans
  {first second third : Spend} (hFirst : Frame first second) (hSecond : Frame second third) :
  Frame first third := by
  refine ⟨hSecond.unlockingScript.trans hFirst.unlockingScript,
    hSecond.lockingScript.trans hFirst.lockingScript, hSecond.context.trans hFirst.context, ?_⟩
  intro hLt
  have hMiddle := hFirst.programCounter hLt
  have hLast := hSecond.programCounter (by
    rw [hFirst.contextScript]
    exact hMiddle.2)
  rw [hFirst.contextScript] at hLast
  exact ⟨hMiddle.1.trans hLast.1, hLast.2⟩

/-
  What an opcode keeps, for a fixed number of arrays: the
  accounting, the limits, and the position in the script.
-/
def opContract (count : Nat) :
  StateProgram.Contract SpendParams Spend where
  inv _ spend := spend.Accounting ∧ spend.Allocated ∧ spend.arrays.length = count
  rel params before after :=
    (before.WithinLimit params → after.WithinLimit params) ∧ Frame before after
  refl _ spend := ⟨id, frame_refl spend⟩
  trans _ _ _ _ hFirst hSecond := ⟨hSecond.1 ∘ hFirst.1, hFirst.2.trans hSecond.2⟩

/- What an opcode with a result of type `α` keeps. -/
abbrev Keeps {α : Type} (count : Nat) (program : SpendM α) (Q : α → Prop) : Prop :=
  StateProgram.Keeps (opContract count) program Q

/- What an opcode without a result keeps. -/
abbrev KeepsUnit (count : Nat) (program : SpendM Unit) : Prop :=
  Keeps count program fun _ => True

end Spend

-- Total Lengths

@[simp] theorem totalLength_nil (arrays : List Bytes) : totalLength arrays [] = 0 := rfl

@[simp] theorem totalLength_cons (arrays : List Bytes) (item : StackItem) (items : List StackItem) :
  totalLength arrays (item :: items) = (item.bytes arrays).length + totalLength arrays items := by
  simp [totalLength]

theorem totalLength_append (arrays : List Bytes) (left right : List StackItem) :
  totalLength arrays (left ++ right) = totalLength arrays left + totalLength arrays right := by
  simp [totalLength]

theorem totalLength_take_add_drop (arrays : List Bytes) (items : List StackItem) (depth : Nat) :
  totalLength arrays (items.take depth) + totalLength arrays (items.drop depth) =
    totalLength arrays items := by
  rw [← totalLength_append, take_append_drop]

variable {arrays : List Bytes}

theorem totalLength_eraseIdx
  {items : List StackItem} {depth : Nat} {item : StackItem} (hItem : items[depth]? = some item) :
  totalLength arrays (items.eraseIdx depth) =
    totalLength arrays items - (item.bytes arrays).length := by
  induction items generalizing depth with
  | nil => simp at hItem
  | cons head items ih =>
    cases depth with
    | zero =>
      have hHead : head = item := by simpa using hItem
      subst hHead
      rw [eraseIdx_cons_zero, totalLength_cons]
      omega
    | succ depth =>
      have hRest : items[depth]? = some item := by simpa using hItem
      have hTail := ih hRest
      rw [eraseIdx_cons_succ, totalLength_cons, totalLength_cons, hTail]
      omega

theorem totalLength_congr {arrays' : List Bytes}
  (hLen : ∀ item : StackItem, (item.bytes arrays').length = (item.bytes arrays).length)
  (items : List StackItem) : totalLength arrays' items = totalLength arrays items := by
  unfold totalLength
  simp only [hLen]

theorem length_bytes_set
  {ref : Nat} {edited : Bytes} (hEdited : edited.length = (arrays.getD ref []).length)
  (item : StackItem) :
  (item.bytes (arrays.set ref edited)).length = (item.bytes arrays).length := by
  cases item with
  | own bytes => rfl
  | chunkData other =>
    simp only [StackItem.bytes, getD_eq_getElem?_getD, getElem?_set] at hEdited ⊢
    split_ifs with hRef hBound
    · subst hRef
      simpa using hEdited
    · subst hRef
      rw [getElem?_eq_none (by omega)]
    · rfl

-- Primitive Steps

namespace Spend

open StateProgram

variable {count : Nat}

/- Steps that leave the control fields alone. -/
theorem frame_of_eq
  {before after : Spend} (hUnlocking : after.unlockingScript = before.unlockingScript)
  (hLocking : after.lockingScript = before.lockingScript) (hCtx : after.context = before.context)
  (hCounter : after.programCounter = before.programCounter) : Frame before after :=
  ⟨hUnlocking, hLocking, hCtx, fun hLt => ⟨hCounter.ge, hCounter ▸ hLt⟩⟩

variable {contract : Contract SpendParams Spend}

theorem keeps_errorIf (condition : Prop) [Decidable condition] (message : String) :
  StateProgram.Keeps contract (errorIf condition message) (fun _ => ¬condition) :=
  keeps_throwIf condition _

theorem keeps_scriptEvaluationError {α : Type} {Q : α → Prop} (message : String) :
  StateProgram.Keeps contract (scriptEvaluationError message) Q :=
  keeps_throw _

variable (buf : Bytes) (params : SpendParams) (depth : Nat)

theorem keeps_stackTop : StateProgram.Keeps contract (stackTop depth) (fun _ => True) := by
  refine keeps_get.bind fun spend _ => ?_
  cases spend.stack[depth - 1]? with
  | none => exact keeps_scriptEvaluationError _
  | some item => exact keeps_pure trivial

theorem keeps_ensureLimit (resource : ScriptResource) (total : Int) :
  KeepsUnit count (ensureLimit resource total) :=
  keeps_read.bind fun _ _ => (keeps_throwIf _ _).any

theorem keeps_ensureStackMem (additional : Nat) : KeepsUnit count (ensureStackMem additional) :=
  keeps_get.bind fun _ _ => keeps_ensureLimit _ _

theorem ensureLimit_run (resource : ScriptResource) (total : Int) (spend : Spend) :
  ensureLimit resource total params spend =
    if params.memoryLimit.any (· < total) = true then
      .error (.resourceLimit resource (params.memoryLimit.getD 0) total) spend
    else .ok () spend := by
  change throwIf _ _ params spend = _
  unfold throwIf
  split_ifs <;> rfl

theorem insertStack_run (item : StackItem) (spend : Spend) : insertStack depth item params spend =
    if params.memoryLimit.any (· < spend.stackMem + spend.itemLength item) = true then
      .error (.resourceLimit .stack (params.memoryLimit.getD 0)
          (spend.stackMem + spend.itemLength item))
        spend
    else
      .ok ()
        { spend with
          stack := spend.stack.take depth ++ item :: spend.stack.drop depth
          stackMem := spend.stackMem + spend.itemLength item } := by
  simp only [insertStack, ensureStackMem, bind_run, get_run, ensureLimit_run]
  split_ifs <;> rfl

theorem pushAltStack_run (item : StackItem) (spend : Spend) : pushAltStack item params spend =
    if params.memoryLimit.any (· < spend.altStackMem + spend.itemLength item) = true then
      .error (.resourceLimit .altStack (params.memoryLimit.getD 0)
          (spend.altStackMem + spend.itemLength item))
        spend
    else
      .ok ()
        { spend with
          altStack := item :: spend.altStack
          altStackMem := spend.altStackMem + spend.itemLength item } := by
  simp only [pushAltStack, ensureAltStackMem, bind_run, get_run, ensureLimit_run]
  split_ifs <;> rfl

theorem le_of_not_exceeds
  {memoryLimit : Option Int} {total limit : Int} (hPasses : ¬memoryLimit.any (· < total) = true)
  (hLimit : memoryLimit = some limit) : total ≤ limit := by
  subst hLimit
  simpa using hPasses

variable {item : StackItem}

theorem keeps_insertStack (hItem : item.Allocated count) :
  KeepsUnit count (insertStack depth item) := by
  rintro params spend ⟨hAcct, hAlloc, hCount⟩
  refine ⟨?_, fun _ _ _ => trivial⟩
  rw [insertStack_run]
  split_ifs with hExceeds
  · exact Contract.step_refl ⟨hAcct, hAlloc, hCount⟩
  refine ⟨⟨?_, ?_, hCount⟩, ?_, ?_⟩
  · refine ⟨?_, hAcct.altStackMem, hAcct.conditionals⟩
    have hSplit := totalLength_take_add_drop spend.arrays spend.stack depth
    have hTotal := hAcct.stackMem
    simp only [finalState, totalLength_append, totalLength_cons, itemLength, bytes]
    omega
  · refine ⟨?_, hAlloc.altStack, hAlloc.unlockingScript, hAlloc.lockingScript⟩
    intro other hOther
    rcases mem_append.mp hOther with hTake | hRest
    · exact hAlloc.stack other (mem_of_mem_take hTake)
    · rcases mem_cons.mp hRest with rfl | hDrop
      · exact hCount ▸ hItem
      · exact hAlloc.stack other (mem_of_mem_drop hDrop)
  · intro hWithin limit hLimit
    exact ⟨le_of_not_exceeds hExceeds hLimit, (hWithin limit hLimit).2⟩
  · exact frame_of_eq rfl rfl rfl rfl

variable
    {params : SpendParams} {spend : Spend}

theorem removeStack_run_none
  {depth : Nat} (error : SpendError) (hItem : spend.stack[depth]? = none) :
  removeStack depth error params spend = .error error spend := by
  unfold removeStack
  rw [bind_run, get_run]
  dsimp only
  rw [hItem]
  rfl

theorem removeStack_run_some
  {depth : Nat} (error : SpendError) (hItem : spend.stack[depth]? = some item) :
  removeStack depth error params spend = .ok item
      { spend with
        stack := spend.stack.eraseIdx depth
        stackMem := spend.stackMem - spend.itemLength item } := by
  unfold removeStack
  rw [bind_run, get_run]
  dsimp only
  rw [hItem]
  rfl

theorem popAltStack_run_nil (hStack : spend.altStack = []) :
  popAltStack params spend = .error (.scriptEvaluation
        "Attempted to pop from an empty alt stack.")
      spend := by
  unfold popAltStack
  rw [bind_run, get_run]
  dsimp only
  rw [hStack]
  rfl

theorem popAltStack_run_cons
  {altStack : List StackItem} (hStack : spend.altStack = item :: altStack) :
  popAltStack params spend = .ok item
      { spend with
        altStack := altStack
        altStackMem := spend.altStackMem - spend.itemLength item } := by
  unfold popAltStack
  rw [bind_run, get_run]
  dsimp only
  rw [hStack]
  rfl

theorem keeps_removeStack (error : SpendError) :
  Keeps count (removeStack depth error) (fun item => item.Allocated count) := by
  rintro params spend ⟨hAcct, hAlloc, hCount⟩
  cases hItem : spend.stack[depth]? with
  | none =>
    rw [removeStack_run_none error hItem]
    refine ⟨Contract.step_refl ⟨hAcct, hAlloc, hCount⟩, ?_⟩
    rintro _ _ hEq
    cases hEq
  | some item =>
    rw [removeStack_run_some error hItem]
    have hLen := Int.natCast_nonneg (item.bytes spend.arrays).length
    refine ⟨⟨⟨?_, ?_, hCount⟩, ?_, ?_⟩, ?_⟩
    · refine ⟨?_, hAcct.altStackMem, hAcct.conditionals⟩
      have hTotal := hAcct.stackMem
      simp only [finalState, itemLength, bytes, totalLength_eraseIdx hItem]
      omega
    · refine ⟨?_, hAlloc.altStack, hAlloc.unlockingScript, hAlloc.lockingScript⟩
      intro other hOther
      exact hAlloc.stack other (mem_of_mem_eraseIdx hOther)
    · intro hWithin limit hLimit
      have hBoth := hWithin limit hLimit
      refine ⟨?_, hBoth.2⟩
      have hLe := hBoth.1
      simp only [finalState, itemLength, bytes]
      omega
    · exact frame_of_eq rfl rfl rfl rfl
    · rintro _ _ hEq
      cases hEq
      exact hCount ▸ hAlloc.stack item (mem_of_getElem? hItem)

theorem keeps_pushAltStack (hItem : item.Allocated count) :
  KeepsUnit count (pushAltStack item) := by
  rintro params spend ⟨hAcct, hAlloc, hCount⟩
  refine ⟨?_, fun _ _ _ => trivial⟩
  rw [pushAltStack_run]
  split_ifs with hExceeds
  · exact Contract.step_refl ⟨hAcct, hAlloc, hCount⟩
  refine ⟨⟨?_, ?_, hCount⟩, ?_, ?_⟩
  · refine ⟨hAcct.stackMem, ?_, hAcct.conditionals⟩
    have hTotal := hAcct.altStackMem
    simp only [finalState, totalLength_cons, itemLength, bytes]
    omega
  · refine ⟨hAlloc.stack, ?_, hAlloc.unlockingScript, hAlloc.lockingScript⟩
    intro other hOther
    rcases mem_cons.mp hOther with rfl | hRest
    · exact hCount ▸ hItem
    · exact hAlloc.altStack other hRest
  · intro hWithin limit hLimit
    exact ⟨(hWithin limit hLimit).1, le_of_not_exceeds hExceeds hLimit⟩
  · exact frame_of_eq rfl rfl rfl rfl

theorem keeps_popAltStack : Keeps count popAltStack (fun item => item.Allocated count) := by
  rintro params spend ⟨hAcct, hAlloc, hCount⟩
  have hTotal := hAcct.altStackMem
  cases hStack : spend.altStack with
  | nil =>
    rw [popAltStack_run_nil hStack]
    refine ⟨Contract.step_refl ⟨hAcct, hAlloc, hCount⟩, ?_⟩
    rintro _ _ hEq
    cases hEq
  | cons item altStack =>
    rw [popAltStack_run_cons hStack]
    rw [hStack, totalLength_cons] at hTotal
    have hLen := Int.natCast_nonneg (item.bytes spend.arrays).length
    refine ⟨⟨⟨?_, ?_, hCount⟩, ?_, ?_⟩, ?_⟩
    · refine ⟨hAcct.stackMem, ?_, hAcct.conditionals⟩
      simp only [finalState, itemLength, bytes]
      omega
    · refine ⟨hAlloc.stack, ?_, hAlloc.unlockingScript, hAlloc.lockingScript⟩
      intro other hOther
      exact hAlloc.altStack other (hStack ▸ mem_cons_of_mem _ hOther)
    · intro hWithin limit hLimit
      have hBoth := hWithin limit hLimit
      refine ⟨hBoth.1, ?_⟩
      have hLe := hBoth.2
      simp only [finalState, itemLength, bytes]
      omega
    · exact frame_of_eq rfl rfl rfl rfl
    · rintro _ _ hEq
      cases hEq
      exact hCount ▸ hAlloc.altStack item (hStack ▸ mem_cons_self)

theorem step_editArray {edited : Bytes} (hInv : (opContract count).inv params spend)
  (hEdited : edited.length = (spend.bytes item).length) :
  (opContract count).Step params spend (editArray item edited spend) := by
  cases item with
  | own bytes => exact Contract.step_refl hInv
  | chunkData ref =>
    rcases hInv with ⟨hAcct, hAlloc, hCount⟩
    have hTotal := totalLength_congr (length_bytes_set hEdited)
    have hLen : (spend.arrays.set ref edited).length =
          spend.arrays.length :=
      length_set
    refine ⟨⟨⟨?_, ?_, hAcct.conditionals⟩, ?_, ?_⟩, id, frame_of_eq rfl rfl rfl rfl⟩
    · exact hAcct.stackMem.trans (hTotal _).symm
    · exact hAcct.altStackMem.trans (hTotal _).symm
    · refine ⟨?_, ?_, ?_, ?_⟩
      · simpa [editArray] using hAlloc.stack
      · simpa [editArray] using hAlloc.altStack
      · simpa [editArray] using hAlloc.unlockingScript
      · simpa [editArray] using hAlloc.lockingScript
    · exact hLen.trans hCount

/- Minimal encoding edits in place or makes a new array. -/
theorem keeps_minimallyEncodeItem (hItem : item.Allocated count) :
  Keeps count (minimallyEncodeItem item) (fun result => result.Allocated count) := by
  intro params spend hInv
  simp only [minimallyEncodeItem, bind_run, get_run]
  cases hEncode : minimallyEncode (spend.bytes item) with
  | same =>
    refine ⟨Contract.step_refl hInv, ?_⟩
    rintro _ _ hEq
    cases hEq
    exact hItem
  | fresh edited result =>
    refine ⟨step_editArray hInv (length_edited_minimallyEncode hEncode), ?_⟩
    rintro _ _ hEq
    cases hEq
    exact trivial

theorem keeps_clearSignItem (item : StackItem) :
  Keeps count (clearSignItem item) (fun _ => True) := by
  intro params spend hInv
  exact ⟨step_editArray hInv (length_clearSign _), fun _ _ _ => trivial⟩

-- Helpers

theorem keeps_pushStack (hItem : item.Allocated count) : KeepsUnit count (pushStack item) :=
  keeps_insertStack 0 hItem

theorem keeps_pushBytes (bytes : Bytes) : KeepsUnit count (pushBytes bytes) :=
  keeps_pushStack trivial

theorem keeps_pushStackCopy (item : StackItem) : KeepsUnit count (pushStackCopy item) :=
  keeps_get.bind fun _ _ => keeps_pushBytes _

theorem keeps_popStack : Keeps count popStack (fun item => item.Allocated count) :=
  keeps_removeStack 0 _

theorem keeps_popBytes : Keeps count popBytes (fun _ => True) :=
  keeps_popStack.bind fun _ _ => keeps_get.bind fun _ _ => keeps_pure trivial

theorem keeps_requireStackItems (minimum : Nat) (message : String) :
  KeepsUnit count (requireStackItems minimum message) :=
  keeps_get.bind fun _ _ => (keeps_errorIf _ _).any

theorem keeps_requireAltStackItems (minimum : Nat) (message : String) :
  KeepsUnit count (requireAltStackItems minimum message) :=
  keeps_get.bind fun _ _ => (keeps_errorIf _ _).any

theorem keeps_readScriptNumber :
  StateProgram.Keeps contract (readScriptNumber buf) (fun _ => True) := by
  refine keeps_read.bind fun params _ => ?_
  cases fromScriptNum buf params.shouldEnforceMinimalData params.scriptNumMaxSize with
  | ok bn => exact keeps_pure trivial
  | error error => exact keeps_scriptEvaluationError _

theorem keeps_popNumber : Keeps count popNumber (fun _ => True) :=
  keeps_popBytes.bind fun _ _ => keeps_readScriptNumber _

theorem keeps_readSpliceOperand : Keeps count (readSpliceOperand buf) (fun _ => True) := by
  refine keeps_read.bind fun params _ => ?_
  apply (keeps_errorIf _ _).andThen
  apply (keeps_errorIf _ _).andThen
  apply (keeps_errorIf _ _).andThen
  apply (keeps_errorIf _ _).andThen
  exact keeps_pure trivial

theorem keeps_readLockTimeOperand : Keeps count (readLockTimeOperand buf) (fun _ => True) := by
  refine keeps_read.bind fun params _ => ?_
  cases fromScriptNum buf params.shouldEnforceMinimalData (some 5) with
  | ok bn => exact keeps_pure trivial
  | error error => exact keeps_scriptEvaluationError _

theorem keeps_checkSignatureEncoding :
  StateProgram.Keeps contract (checkSignatureEncoding buf) (fun _ => True) :=
  keeps_read.bind fun _ _ => (keeps_errorIf _ _).any

theorem keeps_checkPublicKeyEncoding :
  StateProgram.Keeps contract (checkPublicKeyEncoding buf) (fun _ => True) := by
  refine keeps_read.bind fun params _ => ?_
  refine .ite (fun _ => ?_) fun _ => keeps_pure trivial
  apply (keeps_errorIf _ _).andThen
  apply (keeps_errorIf _ _).andThen
  have hLast :
      StateProgram.Keeps contract (errorIf ((params.crypto.publicKeyFromDER buf).isOk = false)
          "The public key is in an unknown format.")
        (fun _ => True) :=
    (keeps_errorIf _ _).any
  refine .ite (fun _ => ?_) fun _ => .ite (fun _ => ?_) fun _ => ?_
  · exact (keeps_errorIf _ _).bind fun _ _ => hLast
  · exact (keeps_errorIf _ _).bind fun _ _ => hLast
  · exact (keeps_scriptEvaluationError _).bind (P := fun _ => True) fun _ _ => hLast

theorem keeps_conditionals {f g : List Bool → List Bool} {u : Spend → Spend}
  (hUpd : ∀ spend : Spend, u spend =
        { spend with
          ifStack := f spend.ifStack
          elseStack := g spend.elseStack })
  (hLen : ∀ left right : List Bool,
      left.length = right.length → (f left).length = (g right).length) :
  KeepsUnit count (modify u) := by
  refine keeps_modify fun params spend hInv => ?_
  rcases hInv with ⟨hAcct, hAlloc, hCount⟩
  rw [hUpd]
  exact ⟨⟨⟨hAcct.stackMem, hAcct.altStackMem, hLen _ _ hAcct.conditionals⟩,
    ⟨hAlloc.stack, hAlloc.altStack, hAlloc.unlockingScript,
      hAlloc.lockingScript⟩, hCount⟩,
    id, frame_of_eq rfl rfl rfl rfl⟩

end Spend

end TsStack
