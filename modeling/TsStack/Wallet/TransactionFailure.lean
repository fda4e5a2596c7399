import TsStack.Transaction.TransactionBinary
import TsStack.Wallet.EntityTables

/-
  The status updates of stored transactions, and what the
  update to `failed` leaves of the transactions and outputs.

  A transaction that is read without its raw bytes has none,
  so the inputs it releases are the outputs allocated to it.
-/

-- Errors

namespace TsStack.Wallet

open TableOutput

inductive StatusError
| entity (error : EntityError)
| missingParameter
| resultMustExist
| completedTransaction
| failedTransaction
| invalidStatus (status : TransactionStatus)
| rawTransaction (error : JsError)
deriving DecidableEq, Repr

def TransactionStatus.text : TransactionStatus → String
| .completed => "completed"
| .failed => "failed"
| .unprocessed => "unprocessed"
| .sending => "sending"
| .unproven => "unproven"
| .unsigned => "unsigned"
| .nosend => "nosend"
| .nonfinal => "nonfinal"
| .unfail => "unfail"

/- The texts of the errors thrown here. -/
def StatusError.message : StatusError → Option String
| .entity error => some error.message
| .missingParameter =>
  some ("The required either transactionId or userId " ++ "and reference parameter is missing.")
| .resultMustExist => some "Result must exist and be unique."
| .completedTransaction =>
  some ("The status of a \"completed\" transaction " ++ "cannot be changed.")
| .failedTransaction => some ("A \"failed\" transaction may not be un-failed " ++ "by this method.")
| .invalidStatus status => some ("The status parameter must be not be " ++ status.text)
| .rawTransaction _ => none

def liftEntity {α : Type} : Except EntityError α → Except StatusError α
| .ok value => .ok value
| .error error => .error (.entity error)

def liftRaw {α : Type} : Except JsError α → Except StatusError α
| .ok value => .ok value
| .error error => .error (.rawTransaction error)

def verifyOne {α : Type} : List α → Except StatusError α
| [result] => .ok result
| _ => .error .resultMustExist

theorem liftEntity_eq_ok_iff {α : Type} (x : Except EntityError α) (value : α) :
  liftEntity x = .ok value ↔ x = .ok value := by
  cases x with
  | error error => simp [liftEntity]
  | ok result => simp [liftEntity]

theorem verifyOne_eq_ok_iff {α : Type} (results : List α) (result : α) :
  verifyOne results = .ok result ↔ results = [result] := by
  cases results with
  | nil => simp [verifyOne]
  | cons first rest =>
    cases rest with
    | nil => simp [verifyOne]
    | cons second rest => simp [verifyOne]

-- Inputs

/- `noRawTx`: the row is read without its binary fields. -/
def TableTransaction.withoutRawTx (tx : TableTransaction) : TableTransaction :=
  { tx with rawTx := none, inputBEEF := none }

structure Outpoint where
  txid : String
  vout : Nat
deriving DecidableEq, Repr

def inputOutpoint (input : TransactionInput) : Outpoint where
  txid := String.ofList (input.sourceTXID.getD [])
  vout := input.sourceOutputIndex

namespace EntityTransaction

def getBsvTxIns (tx : TableTransaction) :
  Except StatusError (List TransactionInput) :=
  match tx.rawTx with
  | none => .ok []
  | some rawTx => do
      let parsed ← liftRaw (Transaction.fromBinary rawTx)
      return parsed.inputs

def addNamedInput (storage : EntityStorage) (tx : TableTransaction) (inputs : List TableOutput)
  (input : TransactionInput) :
  Except StatusError (List TableOutput) := do
  let pso ← liftEntity (verifyOneOrNone
    (storage.findOutputs fun output =>
      output.userId == tx.userId &&
      output.txid == some (inputOutpoint input).txid &&
      output.vout == (inputOutpoint input).vout))
  return inputs ++ pso.toList.filter fun output => !inputs.any (·.outputId == output.outputId)

def spendsOutput (tx : TableTransaction) (output : TableOutput) : Bool :=
  output.userId == tx.userId && output.spentBy == some tx.transactionId

def getInputs (storage : EntityStorage) (tx : TableTransaction) :
  Except StatusError (List TableOutput) := do
  let named ← getBsvTxIns tx
  named.foldlM (addNamedInput storage tx) (storage.findOutputs (spendsOutput tx))

end EntityTransaction

theorem getInputs_withoutRawTx (storage : EntityStorage) (tx : TableTransaction) :
  EntityTransaction.getInputs storage tx.withoutRawTx =
    .ok (storage.findOutputs (EntityTransaction.spendsOutput tx)) :=
  rfl

-- Status Updates

def TableOutput.release (now : Int) (output : TableOutput) : TableOutput :=
  { output with
    spendable := true, spentBy := none, updatedAt := now }

def TableOutput.retire (now : Int) (output : TableOutput) : TableOutput :=
  { output with
    spendable := false, spentBy := none, updatedAt := now }

@[simp] theorem TableOutput.release_outputId (now : Int) (output : TableOutput) :
  (output.release now).outputId = output.outputId :=
  rfl

@[simp] theorem TableOutput.retire_outputId (now : Int) (output : TableOutput) :
  (output.retire now).outputId = output.outputId :=
  rfl

namespace EntityStorage

variable (storage : EntityStorage)

def updateOutputs (change : TableOutput → TableOutput)
  (ids : List Nat) : Except StatusError EntityStorage :=
  ids.foldlM (fun storage id => do
      let id ← liftEntity (verifyId (some id))
      return storage.updateOutput id change)
    storage

def releaseInputsAllocatedToFailedTransaction (now : Int) (tx : TableTransaction) :
  Except StatusError EntityStorage := do
  let inputs ← EntityTransaction.getInputs storage tx
  storage.updateOutputs (·.release now) (inputs.map (·.outputId))

def holdsOutput (tx : TableTransaction) (output : TableOutput) : Bool :=
  output.transactionId == tx.transactionId && (output.spendable || output.spentBy.isSome)

def markFailedTransactionOutputsNotSpendable (now : Int) (tx : TableTransaction) :
  Except StatusError EntityStorage := do
  let _ ← liftEntity (verifyId (some tx.transactionId))
  storage.updateOutputs (·.retire now) ((storage.findOutputs (holdsOutput tx)).map (·.outputId))

def isReclaimOf (tx target : TableTransaction) : Bool :=
  target.userId == tx.userId && tx.txid.isSome && target.noSendExpiryReclaimTxid == tx.txid

def protectNoSendExpiryReclaimInputOnFailure (tx : TableTransaction) : Except StatusError Bool := do
  let target ← liftEntity (verifyOneOrNone (storage.findTransactions (isReclaimOf tx)))
  return target.isSome

def releaseUnlessProtected (now : Int) (tx : TableTransaction) (isProtected : Bool) :
  Except StatusError EntityStorage :=
  if isProtected then .ok storage
  else storage.releaseInputsAllocatedToFailedTransaction now tx

/- The `failed` branch of the status switch. -/
def failTransactionOutputs (now : Int) (tx : TableTransaction) :
  Except StatusError EntityStorage := do
  let isProtected ← storage.protectNoSendExpiryReclaimInputOnFailure tx
  let released ← storage.releaseUnlessProtected now tx isProtected
  released.markFailedTransactionOutputsNotSpendable now tx

def settleStatus (now : Int) (tx : TableTransaction) :
  TransactionStatus → Except StatusError EntityStorage
| .failed => storage.failTransactionOutputs now tx
| .nosend => .ok storage
| .unsigned => .ok storage
| .unprocessed => .ok storage
| .sending => .ok storage
| .unproven => .ok storage
| .completed => .ok storage
| status => .error (.invalidStatus status)

def checkStatus (tx : TableTransaction) (status : TransactionStatus) : Except StatusError Unit :=
  if (status ≠ .completed ∧ tx.status = .completed) ∨ tx.provenTxId.isSome then
    .error .completedTransaction
  else if status ≠ .failed ∧ tx.status = .failed then .error .failedTransaction
  else .ok ()

def requireTarget
  (transactionId userId : Option Nat) (reference : Option String) : Except StatusError Unit :=
  if transactionId.isNone ∧ ¬(userId.isSome ∧ reference.isSome ∧ reference ≠ some "") then
    .error .missingParameter
  else .ok ()

def matchesTarget (transactionId userId : Option Nat) (reference : Option String)
  (tx : TableTransaction) : Bool :=
  transactionId.all (tx.transactionId == ·) && userId.all (tx.userId == ·) &&
    (reference.all (tx.reference == ·) || reference == some "")

def updateTransactionStatus (now : Int) (status : TransactionStatus)
  (transactionId userId : Option Nat) (reference : Option String) :
  Except StatusError EntityStorage := do
  requireTarget transactionId userId reference
  let tx ← verifyOne
    ((storage.findTransactions (matchesTarget transactionId userId reference)).map (·.withoutRawTx))
  checkStatus tx status
  let settled ← storage.settleStatus now tx status
  return settled.updateTransaction tx.transactionId
    fun row => { row with status := status, updatedAt := now }

end EntityStorage

-- What a Failed Transaction Leaves

/-
  What failing a transaction makes of an output: an output allocated to it is released, and then
  an output of it is retired.
-/
def releasedOutput
  (now : Int) (tx : TableTransaction) (isProtected : Bool) (output : TableOutput) : TableOutput :=
  if isProtected = false ∧ EntityTransaction.spendsOutput tx output = true then output.release now
  else output

def retiredOutput (now : Int) (tx : TableTransaction) (output : TableOutput) : TableOutput :=
  if EntityStorage.holdsOutput tx output = true then output.retire now
  else output

def settleOutput
  (now : Int) (tx : TableTransaction) (isProtected : Bool) (output : TableOutput) : TableOutput :=
  retiredOutput now tx (releasedOutput now tx isProtected output)

namespace EntityStorage

variable {storage after : EntityStorage} {now : Int} {tx : TableTransaction}

theorem updateOutputs_eq_ok {change : TableOutput → TableOutput} {ids : List Nat}
  (hRun : storage.updateOutputs change ids = .ok after) : after = { storage with
    outputs := KeyedRows.updateEach outputId change ids storage.outputs } := by
  induction ids generalizing storage with
  | nil =>
    cases hRun
    rfl
  | cons id ids ih =>
    unfold updateOutputs at hRun
    rw [List.foldlM_cons] at hRun
    rcases bind_eq_ok_iff.mp hRun with ⟨next, hNext, hRest⟩
    rcases bind_eq_ok_iff.mp hNext with ⟨verified, hId, hNext⟩
    rw [liftEntity_eq_ok_iff, verifyId_eq_ok_iff] at hId
    cases hId.1
    cases hNext
    exact ih hRest

theorem updateOutputs_filter_eq_ok {change : TableOutput → TableOutput} {p : TableOutput → Bool}
  (hKey : ∀ output, (change output).outputId = output.outputId)
  (hTwice : ∀ output, change (change output) = change output)
  (hKeys : (storage.outputs.map (·.outputId)).Nodup)
  (hRun : storage.updateOutputs change ((storage.findOutputs p).map (·.outputId)) = .ok after) :
  after = { storage with
    outputs := storage.outputs.map fun output =>
      if p output = true then change output else output } := by
  rw [updateOutputs_eq_ok hRun]
  congr 1
  exact KeyedRows.updateEach_filter p hKey hTwice hKeys

theorem releaseUnlessProtected_eq_ok
  {isProtected : Bool} (hKeys : (storage.outputs.map (·.outputId)).Nodup)
  (hRun : storage.releaseUnlessProtected now tx.withoutRawTx isProtected = .ok after) :
  after = { storage with
    outputs := storage.outputs.map (releasedOutput now tx isProtected) } := by
  cases isProtected with
  | true =>
    cases hRun
    unfold releasedOutput
    simp
  | false =>
    unfold releaseUnlessProtected releaseInputsAllocatedToFailedTransaction at hRun
    rw [if_neg Bool.false_ne_true, getInputs_withoutRawTx] at hRun
    have hUpdates : storage.updateOutputs (·.release now) ((storage.findOutputs
      (EntityTransaction.spendsOutput tx)).map (·.outputId)) = .ok after := hRun
    rw [updateOutputs_filter_eq_ok (release_outputId now) (fun _ => rfl) hKeys hUpdates]
    unfold releasedOutput
    simp

theorem releasedOutput_outputId (isProtected : Bool) (output : TableOutput) :
  (releasedOutput now tx isProtected output).outputId =
    output.outputId := by
  unfold releasedOutput
  split
  · rfl
  · rfl

section

variable (hKeys : (storage.outputs.map (·.outputId)).Nodup)
include hKeys

theorem markFailedTransactionOutputsNotSpendable_eq_ok
  (hRun : storage.markFailedTransactionOutputsNotSpendable now tx.withoutRawTx = .ok after) :
  after = { storage with
    outputs := storage.outputs.map (retiredOutput now tx) } := by
  unfold markFailedTransactionOutputsNotSpendable at hRun
  rcases bind_eq_ok_iff.mp hRun with ⟨_, _, hRun⟩
  exact updateOutputs_filter_eq_ok (retire_outputId now) (fun _ => rfl) hKeys hRun

theorem failTransactionOutputs_eq_ok
  (hRun : storage.failTransactionOutputs now tx.withoutRawTx = .ok after) :
  ∃ isProtected, storage.protectNoSendExpiryReclaimInputOnFailure tx = .ok isProtected ∧
      after = { storage with
        outputs := storage.outputs.map (settleOutput now tx isProtected) } := by
  unfold failTransactionOutputs at hRun
  rcases bind_eq_ok_iff.mp hRun with ⟨isProtected, hProtected, hRun⟩
  rcases bind_eq_ok_iff.mp hRun with ⟨released, hReleased, hMarked⟩
  have hOuts := releaseUnlessProtected_eq_ok hKeys hReleased
  refine ⟨isProtected, hProtected, ?_⟩
  subst hOuts
  have hReleasedKeys : ((storage.outputs.map (releasedOutput now tx isProtected)).map
          (·.outputId)).Nodup := by
    rw [List.map_map]
    simpa only [Function.comp_def, releasedOutput_outputId] using hKeys
  rw [markFailedTransactionOutputsNotSpendable_eq_ok hReleasedKeys hMarked]
  simp only [List.map_map]
  rfl

/-
  The transaction that the id names is the only one, it was
  not completed, and it and the outputs have changed.
-/
theorem updateTransactionStatus_failed_eq_ok {transactionId : Nat} (hRun :
    storage.updateTransactionStatus now .failed (some transactionId) none none = .ok after) :
  ∃ tx isProtected, storage.transactions.filter (·.transactionId == transactionId) = [tx] ∧
      storage.protectNoSendExpiryReclaimInputOnFailure tx = .ok isProtected ∧
      after = { storage with
        outputs := storage.outputs.map (settleOutput now tx isProtected)
        transactions := KeyedRows.update TableTransaction.transactionId
            transactionId
            (fun row => { row with
              status := .failed, updatedAt := now })
            storage.transactions } := by
  unfold updateTransactionStatus at hRun
  rcases bind_eq_ok_iff.mp hRun with ⟨_, _, hFind⟩
  rcases bind_eq_ok_iff.mp hFind with ⟨found, hFound, hCheck⟩
  rcases bind_eq_ok_iff.mp hCheck with ⟨_, _, hSettle⟩
  rcases bind_eq_ok_iff.mp hSettle with ⟨settled, hSettled, hUpd⟩
  rw [verifyOne_eq_ok_iff] at hFound
  rcases List.map_eq_singleton_iff.mp hFound with ⟨tx, hFilter, hTx⟩
  have hOnly : storage.transactions.filter (·.transactionId == transactionId) = [tx] := by
    rw [← hFilter]
    unfold findTransactions matchesTarget
    simp
  have hId : tx.transactionId = transactionId := by
    have hMatch := (filter_eq_singleton_only hOnly).1.2
    exact beq_iff_eq.mp hMatch
  subst hTx
  rcases failTransactionOutputs_eq_ok hKeys hSettled with ⟨isProtected, hProtected, hOuts⟩
  refine ⟨tx, isProtected, hOnly, hProtected, ?_⟩
  cases hUpd
  subst hOuts
  subst hId
  rfl

end

end EntityStorage

end TsStack.Wallet
