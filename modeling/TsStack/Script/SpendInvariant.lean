import TsStack.Script.SpendOpsAccounting

/-
  The accounting holds in every state a spend can reach, and
  a run takes at most one step for a chunk.
-/

-- Operations

open List hiding modify

namespace TsStack

namespace Spend

open StateProgram

variable {count : Nat}

/- The end of a step without an advance. -/
def skipOpcode (spend : Spend) : Spend :=
  { spend with programCounter := spend.programCounter + 1 }

/-
  A program that keeps the accounting, except that it may
  end the step by moving to the next chunk itself.
-/
def EndsStep (count : Nat) (program : SpendM Bool) : Prop :=
  ∀ params spend, (opContract count).inv params spend →
    match program params spend with
    | .ok false after => (opContract count).Step params spend after
    | .ok true after =>
      ∃ before, after = skipOpcode before ∧ (opContract count).Step params spend before
    | .error _ after => (opContract count).Step params spend after

theorem endsStep_of_keeps {program : SpendM Bool} (hKeeps : Keeps count program (· = false)) :
  EndsStep count program := by
  intro params spend hInv
  rcases hKeeps params spend hInv with ⟨hStep, hFalse⟩
  cases hRun : program params spend with
  | error error after =>
    rw [hRun] at hStep
    exact hStep
  | ok isOver after =>
    rw [hRun] at hStep
    have hOver := hFalse isOver after hRun
    subst hOver
    exact hStep

theorem EndsStep.bind {α : Type} {program : SpendM α} {next : α → SpendM Bool} {P : α → Prop}
  (hProgram : Keeps count program P) (hNext : ∀ value, P value → EndsStep count (next value)) :
  EndsStep count (program >>= next) := by
  intro params spend hInv
  rcases hProgram params spend hInv with ⟨hStep, hValue⟩
  rw [bind_run]
  cases hRun : program params spend with
  | error error after =>
    rw [hRun] at hStep
    exact hStep
  | ok value after =>
    rw [hRun] at hStep
    have hRest := hNext value (hValue value after hRun) params after hStep.1
    simp only
    cases hRun' : next value params after with
    | error error last =>
      rw [hRun'] at hRest
      exact hStep.trans hRest
    | ok isOver last =>
      rw [hRun'] at hRest
      cases isOver with
      | false => exact hStep.trans hRest
      | true =>
        rcases hRest with ⟨before, hEq, hPre⟩
        exact ⟨before, hEq, hStep.trans hPre⟩

theorem EndsStep.ite {condition : Prop} [Decidable condition] {yes no : SpendM Bool}
  (hYes : condition → EndsStep count yes) (hNo : ¬condition → EndsStep count no) :
  EndsStep count (if condition then yes else no) := by
  split_ifs with hCond
  · exact hYes hCond
  · exact hNo hCond

theorem keeps_opcodeForOperation (operation : SpendChunk) :
  Keeps count (opcodeForOperation operation) (fun _ => True) := by
  refine keeps_read.bind fun params _ => ?_
  refine keeps_get.bind fun spend _ => ?_
  apply (keeps_errorIf _ _).andThen
  apply (keeps_errorIf _ _).andThen
  exact keeps_pure trivial

variable (currentOpcode : Nat) (isScriptExecuting : Bool)

theorem keeps_enforceChronicleOnlyOpcode :
  KeepsUnit count (enforceChronicleOnlyOpcode currentOpcode) :=
  keeps_read.bind fun _ _ => (keeps_errorIf _ _).any

theorem keeps_enforceDiscouragedNop :
  KeepsUnit count (enforceDiscouragedNop currentOpcode isScriptExecuting) :=
  keeps_read.bind fun _ _ => (keeps_errorIf _ _).any

theorem keeps_executeDataPush
  {operation : SpendChunk} (hData : ∀ ref, operation.data = some ref → ref < count) :
  KeepsUnit count (executeDataPush operation) := by
  refine keeps_read.bind fun params _ => ?_
  refine keeps_get.bind fun spend _ => ?_
  apply (keeps_errorIf _ _).andThen
  cases hRef : operation.data with
  | none => exact keeps_pushBytes []
  | some ref => exact keeps_pushStack (hData ref hRef)

theorem keeps_countExecutedOpcode :
  KeepsUnit count (countExecutedOpcode currentOpcode isScriptExecuting) := by
  refine keeps_read.bind fun params _ => ?_
  refine .ite (fun _ => ?_) fun _ => keeps_pure trivial
  have hCount :
      KeepsUnit count (modify fun spend =>
        { spend with
          executedOpCount := spend.executedOpCount + 1 })
      := by
    refine keeps_modify fun params spend hInv => ?_
    rcases hInv with ⟨hAcct, hAlloc, hCount⟩
    exact ⟨⟨⟨hAcct.stackMem, hAcct.altStackMem, hAcct.conditionals⟩,
      ⟨hAlloc.stack, hAlloc.altStack, hAlloc.unlockingScript,
        hAlloc.lockingScript⟩, hCount⟩,
      id, frame_of_eq rfl rfl rfl rfl⟩
  refine hCount.bind fun _ _ => ?_
  refine keeps_get.bind fun spend _ => ?_
  exact (keeps_errorIf _ _).any

theorem endsStep_unlessSkipped : EndsStep count (do
    let skipped ← skipUnavailablePreChronicleOpcode currentOpcode isScriptExecuting
    if skipped then return true
    else do
      enforceDiscouragedNop currentOpcode isScriptExecuting
      executeOpcode currentOpcode isScriptExecuting
      return false) := by
  intro params spend hInv
  rw [bind_run]
  simp only [skipUnavailablePreChronicleOpcode, bind_run, read_run]
  cases preChronicle params currentOpcode isScriptExecuting with
  | available =>
    have hRest :
        EndsStep count (do
          enforceDiscouragedNop currentOpcode isScriptExecuting
          executeOpcode currentOpcode isScriptExecuting
          return false) := by
      refine EndsStep.bind (keeps_enforceDiscouragedNop _ _) fun _ _ => ?_
      refine EndsStep.bind (keeps_executeOpcode _ _) fun _ _ => ?_
      exact endsStep_of_keeps (keeps_pure rfl)
    exact hRest params spend hInv
  | skipped => exact ⟨spend, rfl, Contract.step_refl hInv⟩
  | discouraged => exact Contract.step_refl hInv
  | disabled => exact Contract.step_refl hInv

theorem endsStep_executeOperation
  {operation : SpendChunk} (hData : ∀ ref, operation.data = some ref → ref < count) :
  EndsStep count (executeOperation operation) := by
  refine EndsStep.bind (keeps_opcodeForOperation operation) fun currentOpcode _ => ?_
  refine EndsStep.bind keeps_get fun spend _ => ?_
  refine EndsStep.bind (keeps_enforceChronicleOnlyOpcode _) fun _ _ => ?_
  refine .ite (fun _ => ?_) fun _ => .ite (fun _ => ?_) fun _ => ?_
  · exact EndsStep.bind (keeps_executeDataPush hData) fun _ _ => endsStep_of_keeps (keeps_pure rfl)
  · exact EndsStep.bind (keeps_countExecutedOpcode _ _) fun _ _ => endsStep_unlessSkipped _ _
  · exact endsStep_of_keeps (keeps_pure rfl)

-- Steps

structure Invariant (spend : Spend) : Prop where
  accounting : spend.Accounting
  allocated : spend.Allocated

structure SameScripts (before after : Spend) : Prop where
  unlockingScript : after.unlockingScript = before.unlockingScript
  lockingScript : after.lockingScript = before.lockingScript
  arrays : after.arrays.length = before.arrays.length

def stepContract :
  StateProgram.Contract SpendParams Spend where
  inv _ spend := spend.Invariant
  rel params before after :=
    (before.WithinLimit params → after.WithinLimit params) ∧ SameScripts before after
  refl _ _ := ⟨id, rfl, rfl, rfl⟩
  trans _ _ _ _ hFirst hSecond :=
    ⟨hSecond.1 ∘ hFirst.1, hSecond.2.unlockingScript.trans hFirst.2.unlockingScript,
      hSecond.2.lockingScript.trans hFirst.2.lockingScript, hSecond.2.arrays.trans hFirst.2.arrays⟩

variable
    {params : SpendParams} {before after : Spend}

theorem stepContract_of_opContract
  (hStep : (opContract before.arrays.length).Step params before after) :
  stepContract.Step params before after := by
  rcases hStep with ⟨⟨hAcct, hAlloc, hCount⟩, hWithin, hFrame⟩
  exact ⟨⟨hAcct, hAlloc⟩, hWithin, hFrame.unlockingScript, hFrame.lockingScript, hCount⟩

theorem step_control (after : Spend) (hInv : before.Invariant) (hStack : after.stack = before.stack)
  (hStackMem : after.stackMem = before.stackMem)
  (hAltStack : (after.altStack = before.altStack ∧ after.altStackMem = before.altStackMem) ∨
      (after.altStack = [] ∧ after.altStackMem = 0))
  (hConditionals : after.ifStack.length = after.elseStack.length)
  (hArrays : after.arrays = before.arrays)
  (hUnlocking : after.unlockingScript = before.unlockingScript)
  (hLocking : after.lockingScript = before.lockingScript) :
  after.Invariant ∧ SameScripts before after := by
  refine ⟨⟨⟨?_, ?_, hConditionals⟩, ?_, ?_, ?_, ?_⟩, hUnlocking, hLocking, by rw [hArrays]⟩
  · rw [hStackMem, hArrays, hStack]
    exact hInv.accounting.stackMem
  · rcases hAltStack with ⟨hAlt, hMem⟩ | ⟨hAlt, hMem⟩
    · rw [hMem, hArrays, hAlt]
      exact hInv.accounting.altStackMem
    · rw [hMem, hAlt, totalLength_nil]
  · rw [hStack, hArrays]
    exact hInv.allocated.stack
  · rw [hArrays]
    rcases hAltStack with ⟨hAlt, _⟩ | ⟨hAlt, _⟩
    · rw [hAlt]
      exact hInv.allocated.altStack
    · rw [hAlt]
      simp
  · rw [hUnlocking, hArrays]
    exact hInv.allocated.unlockingScript
  · rw [hLocking, hArrays]
    exact hInv.allocated.lockingScript

theorem WithinLimit.clearAltStack
  (hWithin : before.WithinLimit params) (hNonneg : 0 ≤ before.stackMem)
  (hStackMem : after.stackMem = before.stackMem) (hAltStackMem : after.altStackMem = 0) :
  after.WithinLimit params := by
  intro limit hLimit
  have hLe := (hWithin limit hLimit).1
  rw [hStackMem, hAltStackMem]
  exact ⟨hLe, hNonneg.trans hLe⟩

theorem totalLength_nonneg (arrays : List Bytes) (items : List StackItem) :
  0 ≤ totalLength arrays items := by
  induction items with
  | nil => exact le_rfl
  | cons item items ih =>
    rw [totalLength_cons]
    omega

theorem keeps_switchContext : StateProgram.Keeps stepContract switchContext (fun _ => True) := by
  refine keeps_get.bind fun spend _ => ?_
  refine .ite (fun _ => ?_) fun _ => keeps_pure trivial
  apply (keeps_errorIf _ _).andThen
  refine keeps_modify fun params spend hInv => ?_
  have hControl := step_control
    { clearAltStack spend with
      ifStack := []
      elseStack := []
      returningFromConditional := false
      lastCodeSeparator := none
      context := .lockingScript
      programCounter := 0 }
    hInv rfl rfl (Or.inr ⟨rfl, rfl⟩) rfl rfl rfl rfl
  have hNonneg : 0 ≤ spend.stackMem := by
    rw [hInv.accounting.stackMem]
    exact totalLength_nonneg _ _
  exact ⟨hControl.1, fun hWithin => hWithin.clearAltStack hNonneg rfl rfl, hControl.2⟩

theorem keeps_advanceAfterStep (currentScript : SpendScript) :
  StateProgram.Keeps stepContract (advanceAfterStep currentScript) (fun _ => True) := by
  refine keeps_read.bind fun params _ => ?_
  refine Keeps.bind (P := fun _ => True) ?_ fun _ _ => ?_
  · refine keeps_modify fun params spend hInv => ?_
    have hControl := step_control
      { spend with
        programCounter :=
          if spend.returningFromConditional = true ∧ spend.ifStack.length = 0 then
            currentScript.chunks.length
          else spend.programCounter + 1 }
      hInv rfl rfl (Or.inl ⟨rfl, rfl⟩) hInv.accounting.conditionals rfl rfl rfl
    exact ⟨hControl.1, fun hWithin => hWithin, hControl.2⟩
  · refine keeps_get.bind fun spend _ => ?_
    exact (keeps_errorIf _ _).any

variable
    {spend : Spend} {result : Unit}

theorem programCounter_lt_advance
  {currentScript : SpendScript} (hLt : spend.programCounter < currentScript.chunks.length)
  (hRun : advanceAfterStep currentScript params spend = .ok result after) :
  after.context = spend.context ∧ spend.programCounter < after.programCounter := by
  simp only [advanceAfterStep, errorIf, throwIf, bind_run, read_run, modify_run, get_run] at hRun
  split_ifs at hRun
  · cases hRun
  · cases hRun
  · cases hRun
    exact ⟨rfl, hLt⟩
  · cases hRun
    exact ⟨rfl, Nat.lt_succ_self _⟩

theorem stepIn_spec (hInv : spend.Invariant) :
  stepContract.Step params spend (finalState (stepIn spend.contextScript params spend)) ∧
    ∀ result after, stepIn spend.contextScript params spend = .ok result after →
      spend.programCounter < spend.contextScript.chunks.length →
        after.context = spend.context ∧ spend.programCounter <
            after.programCounter := by
  have hRefl : stepContract.Step params spend spend := Contract.step_refl hInv
  simp only [stepIn, bind_run, get_run]
  cases hChunk : spend.contextScript.chunks[ spend.programCounter]? with
  | none =>
    refine ⟨hRefl, ?_⟩
    intro result after _ hLt
    rw [List.getElem?_eq_none_iff] at hChunk
    omega
  | some chunk =>
    have hBound := (List.getElem?_eq_some_iff.mp hChunk).1
    cases chunk with
    | none =>
      refine ⟨hRefl, ?_⟩
      rintro _ _ hEq
      cases hEq
    | some operation =>
      have hData : ∀ ref, operation.data = some ref → ref < spend.arrays.length := by
        have hMem := mem_of_getElem? hChunk
        unfold contextScript at hMem
        cases hCtx : spend.context with
        | unlockingScript =>
          rw [hCtx] at hMem
          exact hInv.allocated.unlockingScript operation hMem
        | lockingScript =>
          rw [hCtx] at hMem
          exact hInv.allocated.lockingScript operation hMem
      have hOp := endsStep_executeOperation hData params spend
        ⟨hInv.accounting, hInv.allocated, rfl⟩
      simp only [bind_run]
      cases hRun : executeOperation operation params spend with
      | error error after =>
        rw [hRun] at hOp
        refine ⟨stepContract_of_opContract hOp, ?_⟩
        rintro _ _ hEq
        cases hEq
      | ok isOver after =>
        rw [hRun] at hOp
        cases isOver with
        | true =>
          rcases hOp with ⟨before, rfl, hStep⟩
          have hFrame := hStep.2.2
          have hPre := stepContract_of_opContract hStep
          have hSkip := step_control (skipOpcode before) hPre.1 rfl rfl (Or.inl ⟨rfl, rfl⟩)
            hPre.1.accounting.conditionals rfl
            rfl rfl
          refine ⟨hPre.trans ⟨hSkip.1, fun hWithin => hWithin, hSkip.2⟩, ?_⟩
          rintro _ _ hEq hLt
          cases hEq
          exact ⟨hFrame.context, Nat.lt_succ_of_le (hFrame.programCounter hLt).1⟩
        | false =>
          have hFrame := hOp.2.2
          have hStep := stepContract_of_opContract hOp
          have hAdvance := keeps_advanceAfterStep spend.contextScript params after hStep.1
          simp only [Bool.false_eq_true, if_false, bind_run]
          cases hLast : advanceAfterStep spend.contextScript params after with
          | error error last =>
            rw [hLast] at hAdvance
            refine ⟨hStep.trans hAdvance.1, ?_⟩
            rintro _ _ hEq
            cases hEq
          | ok _ last =>
            rw [hLast] at hAdvance
            refine ⟨hStep.trans hAdvance.1, ?_⟩
            rintro _ _ hEq hLt
            cases hEq
            have hCounter := hFrame.programCounter hLt
            have hForward := programCounter_lt_advance hCounter.2 hLast
            exact ⟨hForward.1.trans hFrame.context, hCounter.1.trans_lt hForward.2⟩

theorem keeps_enforceStepResourceLimits :
  StateProgram.Keeps stepContract enforceStepResourceLimits (fun _ => True) := by
  refine keeps_get.bind fun spend _ => ?_
  have hLimit
      (resource : ScriptResource)
      (total : Int) :
      StateProgram.Keeps stepContract (ensureLimit resource total) (fun _ => True) :=
    keeps_read.bind fun _ _ => (keeps_throwIf _ _).any
  exact (hLimit _ _).bind fun _ _ => hLimit _ _

theorem keeps_step : StateProgram.Keeps stepContract step (fun _ => True) := by
  refine keeps_enforceStepResourceLimits.bind fun _ _ => ?_
  refine keeps_switchContext.bind fun _ _ => ?_
  intro params spend hInv
  exact ⟨(stepIn_spec hInv).1, fun _ _ _ => trivial⟩

/- The limits hold where their check succeeds. -/
theorem withinLimit_of_enforce (hRun : enforceStepResourceLimits params spend = .ok result after) :
  after = spend ∧ spend.WithinLimit params := by
  simp only [enforceStepResourceLimits, bind_run, get_run, ensureLimit_run] at hRun
  split_ifs at hRun with hStack hAltStack
  cases hRun
  refine ⟨rfl, fun limit hLimit => ?_⟩
  exact ⟨le_of_not_exceeds hStack hLimit, le_of_not_exceeds hAltStack hLimit⟩

theorem withinLimit_of_step
  {result : Bool} (hInv : spend.Invariant) (hRun : step params spend = .ok result after) :
  after.WithinLimit params := by
  unfold step at hRun
  rw [bind_run] at hRun
  cases hEnforce : enforceStepResourceLimits params spend with
  | error error middle =>
    rw [hEnforce] at hRun
    cases hRun
  | ok _ middle =>
    rw [hEnforce] at hRun
    rcases withinLimit_of_enforce hEnforce with ⟨rfl, hWithin⟩
    have hRest :
        StateProgram.Keeps stepContract (do
          switchContext
          let spend ← get
          stepIn spend.contextScript) (fun _ => True) := by
      refine keeps_switchContext.bind fun _ _ => ?_
      intro params spend hInv
      exact ⟨(stepIn_spec hInv).1, fun _ _ _ => trivial⟩
    have hStep := (hRest params middle hInv).1
    simp only at hRun
    rw [hRun] at hStep
    exact hStep.2.1 hWithin

theorem programCounter_lt_of_step {result : Bool} (hInv : spend.Invariant)
  (hLt : spend.programCounter < spend.contextScript.chunks.length)
  (hRun : step params spend = .ok result after) :
  after.contextScript = spend.contextScript ∧ spend.programCounter < after.programCounter := by
  have hKeeps := (keeps_step params spend hInv).1
  rw [hRun] at hKeeps
  have hScripts : SameScripts spend after := hKeeps.2.2
  unfold step at hRun
  rw [bind_run] at hRun
  cases hEnforce : enforceStepResourceLimits params spend with
  | error error middle =>
    rw [hEnforce] at hRun
    cases hRun
  | ok _ middle =>
    rw [hEnforce] at hRun
    rcases withinLimit_of_enforce hEnforce with ⟨rfl, _⟩
    have hStay : switchContext params middle = .ok () middle := by
      simp only [switchContext, bind_run, get_run]
      rw [if_neg]
      · rfl
      · rintro ⟨hCtx, hLe⟩
        unfold contextScript at hLt
        rw [hCtx] at hLt
        exact absurd hLt (Nat.not_lt.mpr hLe)
    simp only [bind_run, get_run, hStay] at hRun
    have hForward := (stepIn_spec hInv).2 result after hRun hLt
    refine ⟨?_, hForward.2⟩
    unfold contextScript
    rw [hForward.1, hScripts.unlockingScript, hScripts.lockingScript]

-- Runs

theorem runLoop_finishes
  (params : SpendParams) (bound : Nat) {script : SpendScript} (hInv : spend.Invariant)
  (hScript : spend.contextScript = script)
  (hBound : script.chunks.length ≤ spend.programCounter + bound) :
  (∀ after, runLoop script bound params spend ≠ .ok false after) ∧
    ∀ extra, runLoop script (bound + extra) params spend = runLoop script bound params spend := by
  induction bound generalizing spend with
  | zero =>
    have hEnd : ¬spend.programCounter < script.chunks.length := by omega
    have hZero : runLoop script 0 params spend = .ok true spend := by
      simp only [runLoop, bind_run, get_run, pure_run]
      rw [decide_eq_true (by omega)]
    refine ⟨?_, ?_⟩
    · intro after hEq
      rw [hZero] at hEq
      cases hEq
    · intro extra
      cases extra with
      | zero => rfl
      | succ extra =>
        rw [hZero, Nat.zero_add]
        simp only [runLoop, bind_run, get_run]
        rw [if_neg hEnd]
        rfl
  | succ bound ih =>
    by_cases hLt : spend.programCounter < script.chunks.length
    · have hSucc
          (bound : Nat) :
          runLoop script (bound + 1) params spend =
            match step params spend with
            | .ok _ after => runLoop script bound params after
            | .error error after => .error error after := by
        simp only [runLoop, bind_run, get_run]
        rw [if_pos hLt, bind_run]
        cases step params spend <;> rfl
      have hKeeps := (keeps_step params spend hInv).1
      cases hStep : step params spend with
      | error error after =>
        rw [hStep] at hSucc
        refine ⟨?_, ?_⟩
        · intro last hEq
          rw [hSucc] at hEq
          cases hEq
        · intro extra
          rw [Nat.add_right_comm, hSucc, hSucc]
      | ok result after =>
        rw [hStep] at hSucc hKeeps
        have hForward := programCounter_lt_of_step hInv (hScript ▸ hLt) hStep
        have hRest := @ih after hKeeps.1 (hForward.1.trans hScript) (by omega)
        refine ⟨?_, ?_⟩
        · intro last hEq
          rw [hSucc] at hEq
          exact hRest.1 last hEq
        · intro extra
          rw [Nat.add_right_comm, hSucc, hSucc]
          exact hRest.2 extra
    · have hDone
          (bound : Nat) :
          runLoop script (bound + 1) params spend = .ok true spend := by
        simp only [runLoop, bind_run, get_run]
        rw [if_neg hLt]
        rfl
      refine ⟨?_, ?_⟩
      · intro last hEq
        rw [hDone] at hEq
        cases hEq
      · intro extra
        rw [Nat.add_right_comm, hDone, hDone]

theorem Invariant.beginScript (hInv : spend.Invariant) (context : SpendContext) :
  (beginScript context spend).Invariant :=
  (step_control (Spend.beginScript context spend)
    hInv rfl rfl (Or.inr ⟨rfl, rfl⟩) rfl rfl rfl rfl).1

theorem Invariant.endScript (hInv : spend.Invariant) : (endScript spend).Invariant :=
  (step_control (Spend.endScript spend) hInv rfl rfl (Or.inr ⟨rfl, rfl⟩) rfl rfl rfl rfl).1

def chunkCount (spend : Spend) (context : SpendContext) : Nat :=
  (beginScript context spend).contextScript.chunks.length

theorem keeps_checkScriptSize {contract : Contract SpendParams Spend} (script : SpendScript) :
  StateProgram.Keeps contract (checkScriptSize script) (fun _ => True) := by
  refine keeps_read.bind fun params _ => ?_
  refine .ite (fun _ => ?_) fun _ => keeps_pure trivial
  refine (keeps_ofExcept _).bind fun length _ => ?_
  exact (keeps_errorIf _ _).any

theorem checkScriptSize_state
  {script : SpendScript} (hRun : checkScriptSize script params spend = .ok result after) :
  after = spend := by
  let unchanged : Contract SpendParams Spend :=
    { inv := fun _ _ => True
      rel := fun _ before after => after = before
      refl := fun _ _ => rfl
      trans := fun _ _ _ _ hFirst hSecond => hSecond.trans hFirst }
  have hKeeps : StateProgram.Keeps unchanged (checkScriptSize script) (fun _ => True) :=
    keeps_checkScriptSize script
  have hStep := (hKeeps params spend trivial).1.2
  rw [hRun] at hStep
  exact hStep

theorem runScript_finishes (hInv : spend.Invariant) (context : SpendContext) :
  (∀ after, runScript (spend.chunkCount context) context params spend ≠ .ok false after) ∧
    ∀ extra, runScript (spend.chunkCount context + extra) context params spend =
        runScript (spend.chunkCount context) context params spend := by
  have hLoop := runLoop_finishes params (spend.chunkCount context) (hInv.beginScript context)
    rfl (Nat.le_add_left _ _)
  have hRun
      (bound : Nat) :
      runScript bound context params spend =
        match checkScriptSize (beginScript context spend).contextScript params
          (beginScript context spend) with
        | .error error after => .error error after
        | .ok _ begun =>
          match runLoop (beginScript context spend).contextScript bound params begun with
          | .error error after => .error error after
          | .ok false after => .ok false after
          | .ok true after =>
            match finishScript params after with
            | .error error last => .error error last
            | .ok _ last => .ok true last := by
    simp only [runScript, bind_run, modify_run, get_run]
    cases checkScriptSize (beginScript context spend).contextScript params
      (beginScript context spend) with
    | error error after => rfl
    | ok _ begun =>
      simp only
      cases runLoop (beginScript context spend).contextScript bound params begun with
      | error error after => rfl
      | ok finished after =>
        cases finished with
        | false => rfl
        | true =>
          simp only [if_true, bind_run, pure_run]
          cases finishScript params after <;> rfl
  cases hSize : checkScriptSize (beginScript context spend).contextScript params
    (beginScript context spend) with
  | error error after =>
    refine ⟨fun last hEq => ?_, fun _ => ?_⟩
    · rw [hRun, hSize] at hEq
      cases hEq
    · rw [hRun, hRun, hSize]
  | ok result begun =>
    have hBegun := checkScriptSize_state hSize
    subst hBegun
    simp only [hRun, hSize, hLoop.2]
    refine ⟨?_, fun _ => trivial⟩
    intro last hEq
    cases hEnd : runLoop (beginScript context spend).contextScript (spend.chunkCount context) params
      (beginScript context spend) with
    | error error after =>
      rw [hEnd] at hEq
      cases hEq
    | ok finished after =>
      rw [hEnd] at hEq
      cases finished with
      | false => exact hLoop.1 after hEnd
      | true =>
        simp only at hEq
        cases hFinish : finishScript params after with
        | error error end' =>
          rw [hFinish] at hEq
          cases hEq
        | ok _ end' =>
          rw [hFinish] at hEq
          cases hEq

end Spend

-- Redeem Scripts

/- More arrays allocate no less. -/
theorem StackItem.Allocated.mono
  {item : StackItem} {count count' : Nat} (hItem : item.Allocated count) (hLe : count ≤ count') :
  item.Allocated count' := by
  cases item with
  | own bytes => exact trivial
  | chunkData ref => exact Nat.lt_of_lt_of_le hItem hLe

theorem SpendScript.Allocated.mono
  {script : SpendScript} {count count' : Nat} (hScript : script.Allocated count)
  (hLe : count ≤ count') : script.Allocated count' := by
  intro chunk hChunk ref hRef
  exact Nat.lt_of_lt_of_le (hScript chunk hChunk ref hRef) hLe

/- New arrays at the end do not change existing ones. -/
theorem bytes_append {item : StackItem} {arrays : List Bytes} (added : List Bytes)
  (hItem : item.Allocated arrays.length) : item.bytes (arrays ++ added) = item.bytes arrays := by
  cases item with
  | own bytes => rfl
  | chunkData ref =>
    simp only [StackItem.bytes, getD_eq_getElem?_getD]
    rw [getElem?_append_left hItem]

theorem totalLength_append_arrays
  {arrays : List Bytes} {items : List StackItem} (added : List Bytes)
  (hItems : ∀ item ∈ items, item.Allocated arrays.length) :
  totalLength (arrays ++ added) items = totalLength arrays items := by
  induction items with
  | nil => rfl
  | cons item items ih =>
    rw [totalLength_cons, totalLength_cons, bytes_append added (hItems item mem_cons_self),
      ih fun other hOther => hItems other (mem_cons_of_mem _ hOther)]

namespace Spend

/- Loaded chunks refer to the arrays loaded with them. -/
theorem allocated_allocateChunks
  (chunks : List ScriptChunk) (next : Nat) {chunk : SpendChunk} {ref : Nat}
  (hChunk : some chunk ∈ (allocateChunks next chunks).1) (hRef : chunk.data = some ref) :
  ref < next + (allocateChunks next chunks).2.length := by
  induction chunks generalizing next with
  | nil => cases hChunk
  | cons head chunks ih =>
    rw [allocateChunks] at hChunk ⊢
    cases hData : head.data with
    | none =>
      rw [hData] at hChunk
      rcases mem_cons.mp hChunk with hHead | hTail
      · cases hHead
        cases hRef
      · exact ih next hTail
    | some data =>
      rw [hData] at hChunk
      rcases mem_cons.mp hChunk with hHead | hTail
      · cases hHead
        cases hRef
        simp only [length_cons]
        omega
      · have hLt := ih (next + 1) hTail
        simp only [length_cons]
        omega

theorem Invariant.loadRedeemScript
  {spend : Spend} (hInv : spend.Invariant) (redeemScriptBytes : Bytes) :
  (loadRedeemScript redeemScriptBytes spend).Invariant := by
  have hLe
      (added : List Bytes) :
      spend.arrays.length ≤ (spend.arrays ++ added).length := by
    simp
  refine ⟨⟨?_, ?_, hInv.accounting.conditionals⟩, ?_, ?_, ?_, ?_⟩
  · exact hInv.accounting.stackMem.trans (totalLength_append_arrays _ hInv.allocated.stack).symm
  · exact hInv.accounting.altStackMem.trans
      (totalLength_append_arrays _ hInv.allocated.altStack).symm
  · exact fun item hItem => (hInv.allocated.stack item hItem).mono (hLe _)
  · exact fun item hItem => (hInv.allocated.altStack item hItem).mono (hLe _)
  · exact hInv.allocated.unlockingScript.mono (hLe _)
  · intro chunk hChunk ref hRef
    have hLt := allocated_allocateChunks _ _ hChunk hRef
    simpa [Spend.loadRedeemScript] using hLt

theorem Invariant.setStack {spend : Spend} (hInv : spend.Invariant) (items : List Bytes) :
  (setStack items spend).Invariant := by
  refine ⟨⟨?_, hInv.accounting.altStackMem, hInv.accounting.conditionals⟩, ?_,
    hInv.allocated.altStack, hInv.allocated.unlockingScript, hInv.allocated.lockingScript⟩
  · simp only [Spend.setStack, totalLength, List.map_map]
    rfl
  · intro item hItem
    rcases List.mem_map.mp hItem with ⟨bytes, _, rfl⟩
    exact trivial

end Spend

-- Reachable States

/-
  The scripts a spend is constructed with: chunk data refers
  to arrays that exist, possibly shared between chunks.
-/
structure SpendScripts where
  unlockingScript : SpendScript
  lockingScript : SpendScript
  arrays : List Bytes
  unlockingAllocated : unlockingScript.Allocated arrays.length
  lockingAllocated : lockingScript.Allocated arrays.length

/- The state the constructor leaves. -/
def SpendScripts.spend (scripts : SpendScripts) : Spend where
  unlockingScript := scripts.unlockingScript
  lockingScript := scripts.lockingScript
  arrays := scripts.arrays

namespace Spend

open StateProgram

/-
  The states of a spend under any sequence of steps, also after a step has thrown, and of the
  other state changes of `reset`, `#runScript` and `validateJavaScript`.
-/
inductive Reachable (params : SpendParams) (scripts : SpendScripts) : Spend → Prop where
| construct : Reachable params scripts scripts.spend
| step
    {spend : Spend} (hSpend : Reachable params scripts spend) :
    Reachable params scripts (finalState (Spend.step params spend))
| reset
    {spend : Spend} (hSpend : Reachable params scripts spend) :
    Reachable params scripts (Spend.reset spend)
| beginScript
    {spend : Spend} (context : SpendContext) (hSpend : Reachable params scripts spend) :
    Reachable params scripts (Spend.beginScript context spend)
| endScript
    {spend : Spend} (hSpend : Reachable params scripts spend) :
    Reachable params scripts (Spend.endScript spend)
| setStack
    {spend : Spend} (items : List Bytes) (hSpend : Reachable params scripts spend) :
    Reachable params scripts (Spend.setStack items spend)
| loadRedeemScript
    {spend : Spend} (redeemScriptBytes : Bytes) (hSpend : Reachable params scripts spend) :
    Reachable params scripts (Spend.loadRedeemScript redeemScriptBytes spend)
| restoreLockingScript
    {spend : Spend} (hSpend : Reachable params scripts spend) :
    Reachable params scripts { spend with lockingScript := scripts.lockingScript }

structure ReachableInvariant (scripts : SpendScripts) (spend : Spend) : Prop where
  invariant : spend.Invariant
  arrays : scripts.arrays.length ≤ spend.arrays.length

theorem Reachable.invariant {params : SpendParams} {scripts : SpendScripts} {spend : Spend}
  (hReach : Reachable params scripts spend) : ReachableInvariant scripts spend := by
  induction hReach with
  | construct =>
    exact ⟨⟨⟨rfl, rfl, rfl⟩, by simp [SpendScripts.spend], by simp [SpendScripts.spend],
      scripts.unlockingAllocated, scripts.lockingAllocated⟩, le_rfl⟩
  | step hSpend ih =>
    have hStep := (keeps_step params _ ih.invariant).1
    exact ⟨hStep.1, hStep.2.2.arrays ▸ ih.arrays⟩
  | reset hSpend ih =>
    exact ⟨⟨⟨rfl, rfl, rfl⟩, by simp [Spend.reset], by simp [Spend.reset],
      ih.invariant.allocated.unlockingScript, ih.invariant.allocated.lockingScript⟩, ih.arrays⟩
  | beginScript context hSpend ih => exact ⟨ih.invariant.beginScript context, ih.arrays⟩
  | endScript hSpend ih => exact ⟨ih.invariant.endScript, ih.arrays⟩
  | setStack items hSpend ih => exact ⟨ih.invariant.setStack items, ih.arrays⟩
  | loadRedeemScript redeemScriptBytes hSpend ih =>
    refine ⟨ih.invariant.loadRedeemScript redeemScriptBytes, ih.arrays.trans ?_⟩
    simp [Spend.loadRedeemScript]
  | restoreLockingScript hSpend ih =>
    exact ⟨⟨⟨ih.invariant.accounting.stackMem, ih.invariant.accounting.altStackMem,
        ih.invariant.accounting.conditionals⟩,
      ih.invariant.allocated.stack, ih.invariant.allocated.altStack,
      ih.invariant.allocated.unlockingScript, scripts.lockingAllocated.mono ih.arrays⟩, ih.arrays⟩

variable {scripts : SpendScripts} {lock : SpendScript → Prop}

-- Accounting

/-
  In every reachable state the counters are the lengths of the stacks and the conditional stacks
  pair up; after every successful step the counters are in the limit; and a run ends within one
  step for every chunk of its script.
-/
theorem accounting_of_reachable {params : SpendParams} {scripts : SpendScripts} {spend : Spend}
  (hReach : Reachable params scripts spend) :
  spend.Accounting ∧ (∀ result after,
      step params spend = .ok result after → after.WithinLimit params) ∧
      ∀ context, (∀ after, runScript (spend.chunkCount context) context
            params spend ≠ .ok false after) ∧
          ∀ extra, runScript (spend.chunkCount context + extra) context params spend =
              runScript (spend.chunkCount context) context params spend := by
  have hInv := hReach.invariant.invariant
  refine ⟨hInv.accounting, ?_, ?_⟩
  · intro result after hRun
    exact withinLimit_of_step hInv hRun
  · exact runScript_finishes hInv

/- An unlocking script `OP_1 OP_IF` with no locking script. -/
def openIfScripts : SpendScripts where
  unlockingScript :=
    { chunks := [some { op := OP.OP_1 }, some { op := OP.OP_IF }]
      byteLength := .ok 2 }
  lockingScript := { chunks := [], byteLength := .ok 0 }
  arrays := []
  unlockingAllocated := by
    intro chunk hChunk ref hRef
    rcases List.mem_pair.mp hChunk with hEq | hEq
    · cases hEq
      cases hRef
    · cases hEq
      cases hRef
  lockingAllocated := by
    intro chunk hChunk
    cases hChunk

def oneByteParams : SpendParams where
  transactionVersion := 1
  inputSequence := 0
  lockTime := 0
  memoryLimit := some 1
  isRelaxedOverride := false
  verifyFlags := none
  crypto :=
    { ripemd160 := id
      sha1 := id
      sha256 := id
      hash160 := id
      hash256 := id
      fromChecksigFormat := fun _ => .error (.error "Signature DER must start with 0x30")
      publicKeyFromDER := fun _ => .error (.error "Unknown point format")
      verify := fun _ _ _ => .ok false }

theorem accounting_of_reachable_if :
  ∃ spend : Spend, spend.ifStack = [true] ∧ spend.Accounting ∧
      ∀ after, runScript (spend.chunkCount .unlockingScript)
            .unlockingScript oneByteParams spend ≠
          .ok false after := by
  have hConstruct : Reachable oneByteParams openIfScripts
        openIfScripts.spend :=
    .construct
  have hReach := hConstruct.step.step
  have hAccount := accounting_of_reachable hReach
  exact ⟨_, rfl, hAccount.1, (hAccount.2.2 .unlockingScript).1⟩

end Spend

end TsStack
