import Mathlib.Algebra.BigOperators.Group.List.Basic
import Mathlib.Algebra.Order.BigOperators.Group.List
import Mathlib.Algebra.Order.Ring.Int
import Mathlib.Algebra.Order.Ring.Nat
import Mathlib.Data.List.Forall2
import TsStack.Primitives.Hex

/-
  `Transaction.fee`: the change that is left is computed on a
  snapshot and written back by reference, after the model of the
  fee has answered and nothing else has changed.
-/

-- Transactions

open List

namespace TsStack.Fee

open Function

/- A number as it stands in a property; `other` is no integer. -/
inductive Numeric where
| undefined
| integer (value : Int)
| other (bits : Nat)
deriving DecidableEq, Repr

def Numeric.amount : Numeric → Int
| .integer value => value
| _ => 0

structure Output where
  satoshis : Numeric := .undefined
  lockingScript : Bytes := []
  change : Bool := false
deriving DecidableEq, Repr

structure Source where
  ref : Nat
  outputs : List Output
deriving DecidableEq, Repr

structure Input where
  ref : Nat
  sourceTransaction : Option Source
  sourceTXID : Option JsString := none
  sourceOutputIndex : Numeric := .integer 0
  unlockingScript : Option Bytes := none
  unlockingScriptTemplate : Option Nat := none
  sequence : Option Nat := none
deriving DecidableEq, Repr

def Input.sourceOutput (input : Input) : Option Output :=
  match input.sourceTransaction, input.sourceOutputIndex with
  | some source, .integer (.ofNat index) => source.outputs[index]?
  | _, _ => none

def Input.amount (input : Input) : Int :=
  (input.sourceOutput.map (·.satoshis.amount)).getD 0

structure Transaction where
  version : Nat := 1
  lockTime : Nat := 0
  inputs : List Input
  outputs : List Nat
  objects : Nat → Output

namespace Transaction

variable (tx : Transaction)

def outputObjects : List Output := tx.outputs.map tx.objects

def inputAmount : Int := (tx.inputs.map (·.amount)).sum

def outputAmount : Int := (tx.outputObjects.map (·.satoshis.amount)).sum

/- What `#signingStateMatches` compares of an input: of the source, its identity and the output. -/
def signingInput (input : Input) : Input × Option Nat × Option (Numeric × Bytes) :=
  ({ input with sourceTransaction := none }, input.sourceTransaction.map (·.ref),
    input.sourceOutput.map fun output => (output.satoshis, output.lockingScript))

def signingStateMatches (baseline : Transaction) : Bool :=
  decide (tx.version = baseline.version ∧ tx.lockTime = baseline.lockTime ∧
    tx.inputs.map signingInput = baseline.inputs.map signingInput ∧
    tx.outputs = baseline.outputs ∧ tx.outputObjects = baseline.outputObjects)

end Transaction

-- Change

def MAX_SATOSHIS : Nat := 2100000000000000

def requireSatoshiAmount (value : Numeric) (label : String) : Except JsError Nat :=
  match value with
  | .integer (.ofNat value) =>
    if value ≤ MAX_SATOSHIS then .ok value else .error (.rangeError (label ++ message))
  | _ => .error (.rangeError (label ++ message))
where
  message := " must be a non-negative safe integer no greater than 21e14."

def addSatoshiAmount (total value : Nat) (label : String) : Except JsError Nat :=
  if total + value ≤ MAX_SATOSHIS then .ok (total + value)
  else .error (.rangeError (label ++ " exceeds the maximum valid monetary range."))

def requireUInt32 (value : Numeric) (label : String) : Except JsError Unit :=
  match value with
  | .integer (.ofNat value) =>
    if value ≤ 0xffffffff then .ok () else .error (.rangeError (label ++ message))
  | _ => .error (.rangeError (label ++ message))
where
  message := " must be an unsigned 32-bit integer."

def totalInputs (index total : Nat) : List Input → Except JsError Nat
| [] => .ok total
| input :: inputs => do
  let name := "Input " ++ toString index
  if input.sourceTransaction = none then
    throw (.typeError "Source transactions are required for all inputs during fee computation")
  requireUInt32 input.sourceOutputIndex (name ++ " sourceOutputIndex")
  match input.sourceOutput with
  | none => throw (.rangeError (name ++ " references a source output that does not exist."))
  | some output =>
    let amount ← requireSatoshiAmount output.satoshis (name ++ " source amount")
    let total ← addSatoshiAmount total amount "Transaction input total"
    totalInputs (index + 1) total inputs

def totalOutputs (index total : Nat) : List Output → Except JsError Nat
| [] => .ok total
| output :: outputs =>
  if output.change then totalOutputs (index + 1) total outputs
  else do
    let amount ← requireSatoshiAmount output.satoshis ("Output " ++ toString index ++ " amount")
    let total ← addSatoshiAmount total amount "Transaction output total"
    totalOutputs (index + 1) total outputs

def Transaction.calculateChange (tx : Transaction) (fee : Nat) : Except JsError Nat := do
  let inputs ← totalInputs 0 0 tx.inputs
  let outputs ← totalOutputs 0 0 tx.outputObjects
  if inputs < outputs + fee then
    throw (.rangeError
      "Transaction inputs are insufficient for the requested outputs and fee.")
  return inputs - outputs - fee

structure Benford where
  share : Nat → Nat → Nat
  share_le : ∀ draw remaining, share draw remaining ≤ remaining

inductive ChangeDistribution where
| equal
| random (number : Benford)

def randomAmounts (number : Benford) : Nat → Nat → List Nat
| 0, _ => []
| 1, remaining => [remaining]
| count + 2, remaining =>
  number.share (count + 2) remaining ::
    randomAmounts number (count + 1) (remaining - number.share (count + 2) remaining)

def equalAmounts (count change : Nat) : List Nat :=
  List.replicate (count - 1) (change / count) ++
    [change / count + (change - change / count * count)]

def ChangeDistribution.amounts (count change : Nat) : ChangeDistribution → List Nat
| .equal => equalAmounts count change
| .random number => randomAmounts number count change

def assignAmounts : List Output → List Nat → List Output
| output :: outputs, amount :: amounts =>
  if output.change then { output with satoshis := .integer amount } :: assignAmounts outputs amounts
  else output :: assignAmounts outputs (amount :: amounts)
| outputs, _ => outputs

def distributeChange (distribution : ChangeDistribution) (change : Nat) (outputs : List Output) :
  List Output :=
  let count := (outputs.filter (·.change)).length
  if count = 0 then outputs else assignAmounts outputs (distribution.amounts count change)

/- The loop that writes the amounts of the snapshot back. -/
def writeBack (objects : Nat → Output) : List (Nat × Output) → Nat → Output
| [] => objects
| (ref, output) :: rest =>
  writeBack
    (if (objects ref).change then
      Function.update objects ref { objects ref with satoshis := output.satoshis }
    else objects) rest

abbrev FeeModel := Transaction → Except JsError (Numeric × Transaction)

namespace Transaction

variable (model : FeeModel) (distribution : ChangeDistribution) (start later : Transaction)

/- `later` is the transaction once the model has answered. -/
def applyFee : Except JsError Transaction := do
  let (value, modelTransaction) ← model start
  let fee ← requireSatoshiAmount value "Computed transaction fee"
  if !modelTransaction.signingStateMatches start then
    .error (.error "Fee model mutated its transaction snapshot")
  else do
    let change ← start.calculateChange fee
    if !later.signingStateMatches start then
      .error (.error "Transaction changed while computing its fee; no change was applied")
    else if change = 0 then
      .ok { later with outputs := start.outputs.filter fun ref => !(later.objects ref).change }
    else
      .ok { later with
        objects := writeBack later.objects
          (start.outputs.zip (distributeChange distribution change start.outputObjects)) }

def fee : Except JsError Unit × Transaction :=
  match applyFee model distribution start later with
  | .ok after => (.ok (), after)
  | .error error => (.error error, later)

end Transaction

-- Amounts

theorem amount_of_required {value : Numeric} {label : String} {amount : Nat}
  (hRun : requireSatoshiAmount value label = .ok amount) :
  value = .integer amount ∧ amount ≤ MAX_SATOSHIS := by
  unfold requireSatoshiAmount at hRun
  split at hRun
  · split_ifs at hRun with hMax
    cases hRun
    exact ⟨rfl, hMax⟩
  · cases hRun

theorem addSatoshiAmount_eq_ok {total value sum : Nat} {label : String}
  (hRun : addSatoshiAmount total value label = .ok sum) :
  sum = total + value ∧ sum ≤ MAX_SATOSHIS := by
  unfold addSatoshiAmount at hRun
  split_ifs at hRun with hMax
  cases hRun
  exact ⟨rfl, hMax⟩

theorem totalInputs_eq_ok {inputs : List Input} {index total sum : Nat}
  (hRun : totalInputs index total inputs = .ok sum) (hTotal : total ≤ MAX_SATOSHIS) :
  (sum : Int) = total + (inputs.map (·.amount)).sum ∧ sum ≤ MAX_SATOSHIS := by
  induction inputs generalizing index total with
  | nil =>
    cases hRun
    exact ⟨by simp, hTotal⟩
  | cons input inputs ih =>
    unfold totalInputs at hRun
    dsimp only at hRun
    split_ifs at hRun
    · cases hRun
    · rcases bind_eq_ok_iff.mp hRun with ⟨_, _, hRun⟩
      cases hOut : input.sourceOutput with
      | none => rw [hOut] at hRun; cases hRun
      | some output =>
        rw [hOut] at hRun
        rcases bind_eq_ok_iff.mp hRun with ⟨amount, hAmount, hRun⟩
        rcases bind_eq_ok_iff.mp hRun with ⟨next, hNext, hRun⟩
        rcases addSatoshiAmount_eq_ok hNext with ⟨rfl, hMax⟩
        have hRest := ih hRun hMax
        rw [map_cons, sum_cons, Input.amount, hOut, Option.map_some, Option.getD_some,
          (amount_of_required hAmount).1, Numeric.amount]
        exact ⟨by omega, hRest.2⟩

def totalAmount (outputs : List Output) : Int := (outputs.map (·.satoshis.amount)).sum

variable {outputs : List Output}

theorem totalOutputs_eq_ok {index total sum : Nat}
  (hRun : totalOutputs index total outputs = .ok sum) :
  (sum : Int) = total + totalAmount (outputs.filter (!·.change)) := by
  induction outputs generalizing index total with
  | nil =>
    cases hRun
    simp [totalAmount]
  | cons output outputs ih =>
    unfold totalOutputs at hRun
    split_ifs at hRun with hChange
    · rw [filter_cons_of_neg (by simp [hChange])]
      exact ih hRun
    · rcases bind_eq_ok_iff.mp hRun with ⟨amount, hAmount, hRun⟩
      rcases bind_eq_ok_iff.mp hRun with ⟨next, hNext, hRun⟩
      rcases addSatoshiAmount_eq_ok hNext with ⟨rfl, -⟩
      rw [filter_cons_of_pos (by simpa using hChange), ih hRun, totalAmount, totalAmount,
        map_cons, sum_cons, (amount_of_required hAmount).1, Numeric.amount]
      omega

theorem calculateChange_eq_ok {tx : Transaction} {fee change : Nat}
  (hRun : tx.calculateChange fee = .ok change) :
  tx.inputAmount = totalAmount (tx.outputObjects.filter (!·.change)) + fee + change ∧
    change ≤ MAX_SATOSHIS := by
  rcases bind_eq_ok_iff.mp hRun with ⟨inputs, hInputs, hRun⟩
  rcases bind_eq_ok_iff.mp hRun with ⟨outputs, hOuts, hRun⟩
  have hIn := totalInputs_eq_ok hInputs (Nat.zero_le _)
  have hOut := totalOutputs_eq_ok hOuts
  rw [Transaction.inputAmount]
  split_ifs at hRun with hLess
  · cases hRun
  · cases hRun
    omega

theorem randomAmounts_spec (number : Benford) (count remaining : Nat) :
  (randomAmounts number (count + 1) remaining).length = count + 1 ∧
    (randomAmounts number (count + 1) remaining).sum = remaining := by
  induction count generalizing remaining with
  | zero => simp [randomAmounts]
  | succ count ih =>
    have hShare := number.share_le (count + 2) remaining
    have hRest := ih (remaining - number.share (count + 2) remaining)
    rw [randomAmounts, length_cons, sum_cons, hRest.1, hRest.2]
    exact ⟨rfl, by omega⟩

theorem equalAmounts_spec (count change : Nat) :
  (equalAmounts (count + 1) change).length = count + 1 ∧
    (equalAmounts (count + 1) change).sum = change := by
  have hLess := Nat.div_mul_le_self change (count + 1)
  rw [Nat.mul_succ, Nat.mul_comm] at hLess
  simp only [equalAmounts, Nat.add_sub_cancel, length_append, length_replicate,
    length_singleton, sum_append, sum_replicate_nat, sum_singleton,
    Nat.mul_succ, Nat.mul_comm (change / (count + 1)) count, true_and]
  omega

theorem amounts_spec (distribution : ChangeDistribution) (change : Nat) {count : Nat}
  (hPos : count ≠ 0) : (distribution.amounts count change).length = count ∧
    (distribution.amounts count change).sum = change := by
  rcases Nat.exists_eq_succ_of_ne_zero hPos with ⟨count, rfl⟩
  cases distribution with
  | equal => exact equalAmounts_spec count change
  | random number => exact randomAmounts_spec number count change

-- Writing the amounts

def Reassigned (output assigned : Output) : Prop :=
  assigned = if output.change then { output with satoshis := assigned.satoshis } else output

theorem Reassigned.change_eq {output assigned : Output} (hSame : Reassigned output assigned) :
  assigned.change = output.change := by
  rw [hSame]
  split <;> rfl

theorem assignAmounts_spec {amounts : List Nat}
  (hLen : (outputs.filter (·.change)).length = amounts.length) :
  List.Forall₂ Reassigned outputs (assignAmounts outputs amounts) ∧
    totalAmount (assignAmounts outputs amounts) =
      totalAmount (outputs.filter (!·.change)) + (amounts.sum : Nat) ∧
    ∀ output ∈ assignAmounts outputs amounts, output.change = true →
      ∃ amount ∈ amounts, output.satoshis = .integer amount := by
  induction outputs generalizing amounts with
  | nil =>
    rw [filter_nil, length_nil] at hLen
    rw [eq_nil_of_length_eq_zero hLen.symm]
    simp [assignAmounts, totalAmount]
  | cons output outputs ih =>
    by_cases hChange : output.change = true
    · rw [filter_cons_of_pos hChange, length_cons] at hLen
      cases amounts with
      | nil => cases hLen
      | cons amount amounts =>
        rcases ih (Nat.succ.inj hLen) with ⟨hSame, hTotal, hAmounts⟩
        rw [assignAmounts, if_pos hChange, filter_cons_of_neg (by simp [hChange])]
        refine ⟨.cons (by simp [Reassigned, hChange]) hSame, ?_, fun other hOther hIs => ?_⟩
        · rw [totalAmount, map_cons, sum_cons, sum_cons]
          change (amount : Int) + totalAmount _ = _
          rw [hTotal]
          omega
        · rcases mem_cons.mp hOther with rfl | hRest
          · exact ⟨amount, mem_cons_self, rfl⟩
          · rcases hAmounts other hRest hIs with ⟨found, hFound, hEq⟩
            exact ⟨found, mem_cons_of_mem _ hFound, hEq⟩
    · rw [filter_cons_of_neg hChange] at hLen
      have hAssign : assignAmounts (output :: outputs) amounts =
          output :: assignAmounts outputs amounts := by
        cases amounts with
        | nil =>
          rw [assignAmounts, assignAmounts]
          · exact fun _ _ _ => nofun
          · exact fun _ _ _ => nofun
        | cons amount amounts => rw [assignAmounts, if_neg hChange]
      rcases ih hLen with ⟨hSame, hTotal, hAmounts⟩
      rw [hAssign, filter_cons_of_pos (by simpa using hChange)]
      refine ⟨.cons (by simp [Reassigned, hChange]) hSame, ?_, fun other hOther hIs => ?_⟩
      · rw [totalAmount, totalAmount, map_cons, sum_cons, map_cons, sum_cons]
        change _ + totalAmount _ = _ + totalAmount _ + _
        rw [hTotal]
        omega
      · rcases mem_cons.mp hOther with rfl | hRest
        · exact absurd hIs hChange
        · exact hAmounts other hRest hIs

theorem writeBack_spec {refs : List Nat} {objects : Nat → Output}
  (hRefs : refs.Nodup) (hSame : List.Forall₂ Reassigned (refs.map objects) outputs) :
  refs.map (writeBack objects (refs.zip outputs)) = outputs ∧
    ∀ ref ∉ refs, writeBack objects (refs.zip outputs) ref = objects ref := by
  induction refs generalizing objects outputs with
  | nil =>
    cases hSame
    exact ⟨rfl, fun _ _ => rfl⟩
  | cons ref refs ih =>
    rcases nodup_cons.mp hRefs with ⟨hNew, hRest⟩
    rw [map_cons] at hSame
    rcases hSame with _ | ⟨hFst, hTail⟩
    rename_i output outputs
    rw [zip_cons_cons, writeBack]
    generalize hWritten : (if (objects ref).change then
      update objects ref { objects ref with satoshis := output.satoshis }
      else objects) = written
    have hAt : written ref = output := by
      rw [← hWritten, hFst]
      split_ifs with hChange
      · simp [hChange]
      · rfl
    have hOther : ∀ other, other ≠ ref → written other = objects other := by
      intro other hNe
      rw [← hWritten]
      split_ifs
      · exact update_of_ne hNe _ _
      · rfl
    have hMap : refs.map written = refs.map objects :=
      map_congr_left fun other hIn => hOther other fun hEq => hNew (hEq ▸ hIn)
    rcases ih hRest (hMap ▸ hTail) with ⟨hAll, hElse⟩
    refine ⟨by rw [map_cons, hAll, hElse ref hNew, hAt], fun other hNot => ?_⟩
    rw [hElse other fun hIn => hNot (mem_cons_of_mem _ hIn)]
    exact hOther other fun hEq => hNot (hEq ▸ mem_cons_self)

-- Conservation

structure Conserves (before after : Transaction) (fee : Nat) : Prop where
  inputs : after.inputs = before.inputs
  balanced : (∃ output ∈ before.outputObjects, output.change = true) →
    after.inputAmount = after.outputAmount + fee
  paid : after.outputAmount + fee ≤ after.inputAmount
  amounts : ∀ output ∈ after.outputObjects, output.change = true →
    ∃ amount ≤ MAX_SATOSHIS, output.satoshis = .integer amount
  others : after.outputObjects.filter (!·.change) = before.outputObjects.filter (!·.change)
  objects : ∀ ref, (before.objects ref).change = false → after.objects ref = before.objects ref
  order : List.Sublist after.outputs before.outputs

variable {model : FeeModel} {distribution : ChangeDistribution} {start later after : Transaction}

theorem inputAmount_eq (tx : Transaction) :
  tx.inputAmount = ((tx.inputs.map Transaction.signingInput).map fun signing =>
    (signing.2.2.map (·.1.amount)).getD 0).sum := by
  rw [List.map_map]
  simp [Transaction.inputAmount, Input.amount, Transaction.signingInput, Option.map_map,
    comp_def]

theorem Reassigned.refl (output : Output) : Reassigned output output := by
  unfold Reassigned
  split <;> rfl

theorem filter_of_reassigned {assigned : List Output}
  (hSame : List.Forall₂ Reassigned outputs assigned) :
  assigned.filter (!·.change) = outputs.filter (!·.change) := by
  induction hSame with
  | nil => rfl
  | cons hFst _ ih =>
    rename_i output other _ _
    rw [filter_cons, filter_cons, ih, hFst.change_eq]
    split_ifs with hNot
    · rw [hFst, if_neg (by simpa using hNot)]
    · rfl

theorem writeBack_other {objects : Nat → Output} {ref : Nat} (pairs : List (Nat × Output))
  (hNot : (objects ref).change = false) : writeBack objects pairs ref = objects ref := by
  induction pairs generalizing objects with
  | nil => rfl
  | cons pair pairs ih =>
    rcases pair with ⟨written, output⟩
    have hSame : (if (objects written).change then
        update objects written { objects written with satoshis := output.satoshis }
        else objects) ref = objects ref := by
      split_ifs with hChange
      · refine update_of_ne (fun hEq => ?_) _ _
        rw [hEq, hChange] at hNot
        cases hNot
      · rfl
    rw [writeBack, ih (by rw [hSame, hNot]), hSame]

theorem distributeChange_spec (distribution : ChangeDistribution) (change : Nat)
  (outputs : List Output) :
  List.Forall₂ Reassigned outputs (distributeChange distribution change outputs) ∧
    (∀ output ∈ distributeChange distribution change outputs, output.change = true →
      ∃ amount ≤ change, output.satoshis = .integer amount) ∧
    totalAmount (distributeChange distribution change outputs) =
      totalAmount (outputs.filter (!·.change)) +
        if ∃ output ∈ outputs, output.change = true then (change : Int) else 0 := by
  unfold distributeChange
  dsimp only
  split_ifs with hCount hSome hSome
  · rcases hSome with ⟨output, hIn, hChange⟩
    have hMem := mem_filter.mpr ⟨hIn, hChange⟩
    rw [eq_nil_of_length_eq_zero hCount] at hMem
    cases hMem
  · have hNone : ∀ output ∈ outputs, ¬ output.change = true :=
      fun output hIn hChange => hSome ⟨output, hIn, hChange⟩
    refine ⟨forall₂_same.mpr fun output _ => Reassigned.refl output,
      fun output hIn hChange => absurd hChange (hNone output hIn), ?_⟩
    rw [filter_eq_self.mpr fun output hIn => by simpa using hNone output hIn, add_zero]
  · rcases amounts_spec distribution change hCount with ⟨hLen, hSum⟩
    rcases assignAmounts_spec hLen.symm with ⟨hSame, hTotal, hAmounts⟩
    refine ⟨hSame, fun output hIn hChange => ?_, by rw [hTotal, hSum]⟩
    rcases hAmounts output hIn hChange with ⟨amount, hAmount, hEq⟩
    exact ⟨amount, hSum ▸ single_le_sum (fun _ _ => Nat.zero_le _) amount hAmount, hEq⟩
  · refine absurd ?_ hCount
    rw [length_eq_zero_iff, filter_eq_nil_iff]
    exact fun output hIn hChange => hSome ⟨output, hIn, hChange⟩

theorem conserves_of_applyFee (hRun : start.applyFee model distribution later = .ok after) :
  later.signingStateMatches start = true ∧ ∃ (fee : Nat) (modelTransaction : Transaction),
    model start = .ok (.integer fee, modelTransaction) ∧
      modelTransaction.signingStateMatches start = true ∧
      (start.outputs.Nodup → Conserves later after fee) := by
  rcases bind_eq_ok_iff.mp hRun with ⟨⟨value, modelTransaction⟩, hModel, hRun⟩
  rcases bind_eq_ok_iff.mp hRun with ⟨fee, hFee, hRun⟩
  by_cases hMutated : (!modelTransaction.signingStateMatches start) = true
  · rw [if_pos hMutated] at hRun
    cases hRun
  rw [if_neg hMutated] at hRun
  rcases bind_eq_ok_iff.mp hRun with ⟨change, hChange, hRun⟩
  rcases calculateChange_eq_ok hChange with ⟨hBal, hMax⟩
  by_cases hEdited : (!later.signingStateMatches start) = true
  · rw [if_pos hEdited] at hRun
    cases hRun
  rw [if_neg hEdited] at hRun
  have hMatches : later.signingStateMatches start = true := by simpa using hEdited
  rcases of_decide_eq_true hMatches with ⟨-, -, hInputs, hOuts, hObjects⟩
  have hIn : later.inputAmount = start.inputAmount := by
    rw [inputAmount_eq, inputAmount_eq, hInputs]
  refine ⟨hMatches, fee, modelTransaction, (amount_of_required hFee).1 ▸ hModel,
    by simpa using hMutated, fun hRefs => ?_⟩
  rw [← hObjects, ← hIn] at hBal
  by_cases hZero : change = 0
  · rw [if_pos hZero, ← hOuts] at hRun
    have hAfter := Except.ok.inj hRun
    have hInAfter : after.inputAmount = later.inputAmount := by rw [← hAfter]; rfl
    have hOutAfter : after.outputObjects = later.outputObjects.filter (!·.change) := by
      rw [← hAfter, Transaction.outputObjects, Transaction.outputObjects, List.filter_map]
      rfl
    have hBalanced : after.inputAmount = after.outputAmount + fee := by
      rw [hInAfter, Transaction.outputAmount, hOutAfter]
      change _ = totalAmount _ + _
      omega
    constructor
    case inputs => rw [← hAfter]
    case balanced => exact fun _ => hBalanced
    case paid => exact le_of_eq hBalanced.symm
    case amounts =>
      intro output hIs hChanges
      rw [hOutAfter, mem_filter, hChanges] at hIs
      cases hIs.2
    case others =>
      rw [hOutAfter, List.filter_filter]
      simp
    case objects => exact fun _ _ => by rw [← hAfter]
    case order =>
      rw [← hAfter]
      exact filter_sublist
  · rw [if_neg hZero, ← hOuts, ← hObjects] at hRun
    have hAfter := Except.ok.inj hRun
    rcases distributeChange_spec distribution change later.outputObjects with
      ⟨hSame, hAmounts, hTotal⟩
    have hInAfter : after.inputAmount = later.inputAmount := by rw [← hAfter]; rfl
    have hOutAfter : after.outputObjects =
        distributeChange distribution change later.outputObjects := by
      rw [← hAfter]
      exact (writeBack_spec (hOuts ▸ hRefs) hSame).1
    have hAmount : after.outputAmount =
        totalAmount (distributeChange distribution change later.outputObjects) := by
      rw [← hOutAfter]
      rfl
    constructor
    case inputs => rw [← hAfter]
    case balanced =>
      intro hSome
      rw [if_pos hSome] at hTotal
      omega
    case paid => split_ifs at hTotal <;> omega
    case amounts =>
      intro output hIs hChanges
      rcases hAmounts output (hOutAfter ▸ hIs) hChanges with ⟨amount, hLe, hEq⟩
      exact ⟨amount, hLe.trans hMax, hEq⟩
    case others =>
      rw [hOutAfter]
      exact filter_of_reassigned hSame
    case objects =>
      intro ref hNot
      rw [← hAfter]
      exact writeBack_other _ hNot
    case order => rw [← hAfter]

/-
  A fee that throws, as it does after an edit, leaves the transaction as it is; one that returns
  conserves the value, if no output is in the list twice.
-/
theorem fee_conserves (model : FeeModel) (distribution : ChangeDistribution)
  (start later : Transaction) :
  (∀ error, (start.fee model distribution later).1 = .error error →
    (start.fee model distribution later).2 = later) ∧
  (later.signingStateMatches start = false ∨
      (∃ answer, model start = .ok answer ∧ answer.2.signingStateMatches start = false) →
    ∃ error, (start.fee model distribution later).1 = .error error) ∧
  ((start.fee model distribution later).1 = .ok () → start.outputs.Nodup →
    ∃ (fee : Nat) (modelTransaction : Transaction),
      model start = .ok (.integer fee, modelTransaction) ∧
        Conserves later (start.fee model distribution later).2 fee) := by
  unfold Transaction.fee
  cases hRun : start.applyFee model distribution later with
  | error error => exact ⟨fun _ _ => rfl, fun _ => ⟨error, rfl⟩, nofun⟩
  | ok after =>
    rcases conserves_of_applyFee hRun with ⟨hMatches, fee, modelTransaction, hModel, hKept, hAfter⟩
    refine ⟨nofun, ?_, fun _ hRefs => ⟨fee, modelTransaction, hModel, hAfter hRefs⟩⟩
    rintro (hEdited | ⟨answer, hAnswer, hMutated⟩)
    · rw [hMatches] at hEdited
      cases hEdited
    · rw [hModel] at hAnswer
      cases hAnswer
      rw [hKept] at hMutated
      cases hMutated

theorem twice_overpaid :
  ¬ ∀ (model : FeeModel) (start : Transaction) (fee : Nat) (modelTransaction : Transaction),
    model start = .ok (.integer fee, modelTransaction) →
      (start.fee model .equal start).1 = .ok () →
        (∃ output ∈ start.outputObjects, output.change = true) →
          (start.fee model .equal start).2.inputAmount =
            (start.fee model .equal start).2.outputAmount + fee := by
  intro hConserves
  have hSum := hConserves (fun tx => .ok (.integer 0, tx))
    { inputs := [{ ref := 0, sourceTransaction := some { ref := 0, outputs := [{ satoshis := .integer 3 }] } }]
      outputs := [0, 0], objects := fun _ => { change := true } } 0 _ rfl (by decide)
    ⟨{ change := true }, by decide, rfl⟩
  exact absurd hSum (by decide)

end TsStack.Fee
