import TsStack.Wallet.FailureClosure

/-
  Runs of `updateTransactionStatus`: what a call does to the
  outputs, and where an output is after any calls.
-/

-- Calls

namespace TsStack.Wallet

structure StatusCall where
  now : Int
  status : TransactionStatus
  transactionId : Option Nat := none
  userId : Option Nat := none
  reference : Option String := none

def StatusCall.setStatus (call : StatusCall) (row : TableTransaction) : TableTransaction :=
  { row with status := call.status, updatedAt := call.now }

namespace EntityStorage

variable (storage : EntityStorage) (call : StatusCall)

def matchingTransactions : List TableTransaction :=
  storage.findTransactions (matchesTarget call.transactionId call.userId call.reference)

def perform : Except StatusError EntityStorage :=
  storage.updateTransactionStatus call.now call.status call.transactionId call.userId call.reference

/- A call that throws is rolled back. -/
def afterCall : EntityStorage := (storage.perform call).toOption.getD storage

end EntityStorage

def IsReclaim (storage : EntityStorage) (tx : TableTransaction) : Prop :=
  ∃ target ∈ storage.transactions, EntityStorage.isReclaimOf tx target

/-
  What failing `tx` makes of an output: those of `tx` cannot be spent, those allocated to it are
  freed unless it is a reclaim, and the others stay.
-/
structure Settles (storage : EntityStorage) (now : Int) (tx : TableTransaction)
  (output settled : TableOutput) : Prop where
  ids : settled.outputId = output.outputId ∧ settled.transactionId = output.transactionId
  own : output.transactionId = tx.transactionId →
    settled.spendable = false ∧ settled.spentBy = none
  freed : output.transactionId ≠ tx.transactionId → ¬ IsReclaim storage tx →
    EntityTransaction.spendsOutput tx output = true → settled = output.release now
  other : output.transactionId ≠ tx.transactionId →
    IsReclaim storage tx ∨ EntityTransaction.spendsOutput tx output = false → settled = output

structure Applies (storage : EntityStorage) (call : StatusCall) (tx : TableTransaction)
  (after : EntityStorage) : Prop where
  only : storage.matchingTransactions call = [tx]
  unproven : tx.provenTxId = none
  completed : tx.status = .completed → call.status = .completed
  failed : tx.status = .failed → call.status = .failed
  transactions : after.transactions = KeyedRows.update TableTransaction.transactionId
    tx.transactionId call.setStatus storage.transactions
  same : call.status ≠ .failed → after.outputs = storage.outputs
  settled : call.status = .failed → ∃ settle, after.outputs = storage.outputs.map settle ∧
    ∀ output, Settles storage call.now tx output (settle output)
  rest : after = { storage with outputs := after.outputs, transactions := after.transactions }

/-
  An output can be spent, or is allocated to a transaction that has not failed or is a reclaim, or
  belongs to one that has failed.
-/
def Placed (storage : EntityStorage) (output : TableOutput) : Prop :=
  output.spendable = true ∧ output.spentBy = none ∨
    (∃ tx ∈ storage.transactions, output.spentBy = some tx.transactionId ∧
      output.userId = tx.userId ∧ (tx.status ≠ .failed ∨ IsReclaim storage tx)) ∨
    output.spendable = false ∧ output.spentBy = none ∧ ∃ tx ∈ storage.transactions,
      tx.transactionId = output.transactionId ∧ tx.status = .failed

variable {storage after : EntityStorage} {call : StatusCall} {tx : TableTransaction}

theorem protect_iff {isProtected : Bool}
  (hRun : storage.protectNoSendExpiryReclaimInputOnFailure tx = .ok isProtected) :
  isProtected = true ↔ IsReclaim storage tx := by
  rcases bind_eq_ok_iff.mp hRun with ⟨target, hTgt, hReturn⟩
  cases hReturn
  rw [liftEntity_eq_ok_iff] at hTgt
  unfold verifyOneOrNone at hTgt
  split at hTgt
  · cases hTgt
  · cases hTgt
    simp [IsReclaim, EntityStorage.findTransactions, List.head?_filter]

theorem settleOutput_settles {isProtected : Bool} (now : Int) (output : TableOutput)
  (hProtected : isProtected = true ↔ IsReclaim storage tx) :
  Settles storage now tx output (settleOutput now tx isProtected output) := by
  have hIds : (releasedOutput now tx isProtected output).outputId = output.outputId ∧
      (releasedOutput now tx isProtected output).transactionId = output.transactionId := by
    unfold releasedOutput
    split <;> exact ⟨rfl, rfl⟩
  have hOther : output.transactionId ≠ tx.transactionId →
      settleOutput now tx isProtected output = releasedOutput now tx isProtected output := by
    intro hNe
    unfold settleOutput retiredOutput EntityStorage.holdsOutput
    rw [hIds.2, beq_false_of_ne hNe]
    rfl
  refine ⟨?_, fun hOwn => ?_, fun hNe hNot hSpends => ?_, fun hNe hStays => ?_⟩
  · unfold settleOutput retiredOutput
    split <;> exact hIds
  · unfold settleOutput retiredOutput
    split
    · exact ⟨rfl, rfl⟩
    · rename_i hHold
      simpa [EntityStorage.holdsOutput, hIds.2, hOwn] using hHold
  · have hFalse : isProtected = false := Bool.eq_false_iff.mpr (mt hProtected.mp hNot)
    rw [hOther hNe, releasedOutput, if_pos ⟨hFalse, hSpends⟩]
  · rw [hOther hNe, releasedOutput, if_neg]
    rintro ⟨hFalse, hSpends⟩
    rcases hStays with hReclaim | hFree
    · rw [hProtected.mpr hReclaim] at hFalse
      cases hFalse
    · rw [hFree] at hSpends
      cases hSpends

theorem perform_applies (hKeys : (storage.outputs.map (·.outputId)).Nodup)
  (hRun : storage.perform call = .ok after) : ∃ tx, Applies storage call tx after := by
  rcases bind_eq_ok_iff.mp hRun with ⟨_, _, hFind⟩
  rcases bind_eq_ok_iff.mp hFind with ⟨found, hFound, hCheck⟩
  rcases bind_eq_ok_iff.mp hCheck with ⟨_, hChecked, hSettle⟩
  rcases bind_eq_ok_iff.mp hSettle with ⟨settled, hSettled, hUpd⟩
  rw [verifyOne_eq_ok_iff] at hFound
  rcases List.map_eq_singleton_iff.mp hFound with ⟨tx, hOnly, rfl⟩
  have hChecks : tx.provenTxId = none ∧ (tx.status = .completed → call.status = .completed) ∧
      (tx.status = .failed → call.status = .failed) := by
    unfold EntityStorage.checkStatus at hChecked
    split_ifs at hChecked with hCompleted hFail
    rw [not_or] at hCompleted
    exact ⟨Option.not_isSome_iff_eq_none.mp hCompleted.2,
      fun hIs => not_not.mp fun hNot => hCompleted.1 ⟨hNot, hIs⟩,
      fun hIs => not_not.mp fun hNot => hFail ⟨hNot, hIs⟩⟩
  have hOuts : call.status ≠ .failed ∧ settled = storage ∨ call.status = .failed ∧
      ∃ isProtected, storage.protectNoSendExpiryReclaimInputOnFailure tx = .ok isProtected ∧
        settled = { storage with
          outputs := storage.outputs.map (settleOutput call.now tx isProtected) } := by
    rcases call with ⟨now, status, transactionId, userId, reference⟩
    cases status with
    | failed => exact .inr ⟨rfl, EntityStorage.failTransactionOutputs_eq_ok hKeys hSettled⟩
    | nonfinal => cases hSettled
    | unfail => cases hSettled
    | _ =>
      cases hSettled
      exact .inl ⟨nofun, rfl⟩
  cases hUpd
  rcases hOuts with ⟨hNot, rfl⟩ | ⟨hFail, isProtected, hProtected, rfl⟩
  · exact ⟨tx, hOnly, hChecks.1, hChecks.2.1, hChecks.2.2, rfl, fun _ => rfl,
      fun hIs => absurd hIs hNot, rfl⟩
  · refine ⟨tx, hOnly, hChecks.1, hChecks.2.1, hChecks.2.2, rfl, fun hNot => absurd hFail hNot,
      fun _ => ⟨_, rfl, fun output => ?_⟩, rfl⟩
    exact settleOutput_settles call.now output (protect_iff hProtected)

-- Runs

theorem Applies.placed (hApplies : Applies storage call tx after)
  (hIds : (storage.transactions.map (·.transactionId)).Nodup)
  (hPlaced : ∀ output ∈ storage.outputs, Placed storage output) :
  ∀ output ∈ after.outputs, Placed after output := by
  have hTx : tx ∈ storage.transactions := by
    have hMem : tx ∈ storage.matchingTransactions call := hApplies.only ▸ List.mem_singleton_self tx
    exact List.mem_of_mem_filter hMem
  have hSame : ∀ row ∈ storage.transactions, row.transactionId = tx.transactionId → row = tx :=
    fun row hRow hId => List.inj_on_of_nodup_map hIds hRow hTx hId
  have hUpdated : call.setStatus tx ∈ after.transactions := by
    rw [hApplies.transactions, KeyedRows.mem_update_iff]
    exact .inl ⟨tx, hTx, rfl, rfl⟩
  have hOther : ∀ row ∈ storage.transactions, row ≠ tx → row ∈ after.transactions := by
    intro row hRow hNe
    rw [hApplies.transactions, KeyedRows.mem_update_iff]
    exact .inr ⟨hRow, fun hId => hNe (hSame row hRow hId)⟩
  have hReclaim : ∀ row, IsReclaim storage row → IsReclaim after row := by
    rintro row ⟨target, hTgt, hIs⟩
    by_cases hEq : target = tx
    · exact ⟨_, hUpdated, hEq ▸ hIs⟩
    · exact ⟨target, hOther target hTgt hEq, hIs⟩
  -- what the change of the row leaves of the outputs that stay
  have hStays : ∀ output, Placed storage output → (call.status = .failed → IsReclaim storage tx ∨
      EntityTransaction.spendsOutput tx output = false) → Placed after output := by
    rintro output (hFree | ⟨row, hRow, hSpent, hUser, hStat⟩ | ⟨hNot, hNone, row, hRow, hId, hStat⟩)
      hFailing
    · exact .inl hFree
    · refine .inr (.inl ?_)
      by_cases hEq : row = tx
      · subst hEq
        refine ⟨_, hUpdated, hSpent, hUser, ?_⟩
        by_cases hFail : call.status = .failed
        · rcases hFailing hFail with hIs | hFalse
          · exact .inr (hReclaim row hIs)
          · simp [EntityTransaction.spendsOutput, hUser, hSpent] at hFalse
        · exact .inl hFail
      · exact ⟨row, hOther row hRow hEq, hSpent, hUser, hStat.imp_right (hReclaim row)⟩
    · refine .inr (.inr ⟨hNot, hNone, ?_⟩)
      by_cases hEq : row = tx
      · subst hEq
        exact ⟨_, hUpdated, hId, hApplies.failed hStat⟩
      · exact ⟨row, hOther row hRow hEq, hId, hStat⟩
  intro output hOut
  by_cases hFail : call.status = .failed
  · rcases hApplies.settled hFail with ⟨settle, hOuts, hSettles⟩
    rw [hOuts] at hOut
    rcases List.mem_map.mp hOut with ⟨old, hOld, rfl⟩
    have hSettled := hSettles old
    by_cases hOwn : old.transactionId = tx.transactionId
    · rcases hSettled.own hOwn with ⟨hNot, hNone⟩
      exact .inr (.inr ⟨hNot, hNone, _, hUpdated, (hSettled.ids.2.trans hOwn).symm, hFail⟩)
    · by_cases hFrees : IsReclaim storage tx ∨ EntityTransaction.spendsOutput tx old = false
      · rw [hSettled.other hOwn hFrees]
        exact hStays old (hPlaced old hOld) fun _ => hFrees
      · rw [not_or, Bool.not_eq_false] at hFrees
        rw [hSettled.freed hOwn hFrees.1 hFrees.2]
        exact .inl ⟨rfl, rfl⟩
  · rw [hApplies.same hFail] at hOut
    exact hStays output (hPlaced output hOut) fun hIs => absurd hIs hFail

theorem Applies.keys (hApplies : Applies storage call tx after) :
  after.outputs.map (·.outputId) = storage.outputs.map (·.outputId) ∧
    after.transactions.map (·.transactionId) = storage.transactions.map (·.transactionId) := by
  constructor
  · by_cases hFail : call.status = .failed
    · rcases hApplies.settled hFail with ⟨settle, hOuts, hSettles⟩
      rw [hOuts, List.map_map]
      exact List.map_congr_left fun output _ => (hSettles output).ids.1
    · rw [hApplies.same hFail]
  · rw [hApplies.transactions]
    exact KeyedRows.update_keys fun _ _ hKey => hKey

/-
  A call throws and changes nothing, or applies the whole change; and after any calls an output can
  be spent, or is allocated to the one transaction, or belongs to one that has failed.
-/
theorem statusCalls_keep :
  (∀ (storage after : EntityStorage) (call : StatusCall),
    (storage.outputs.map (·.outputId)).Nodup → storage.perform call = .ok after →
      ∃ tx, Applies storage call tx after) ∧
  ∀ (calls : List StatusCall) (storage : EntityStorage),
    (storage.outputs.map (·.outputId)).Nodup →
    (storage.transactions.map (·.transactionId)).Nodup →
    (∀ output ∈ storage.outputs, Placed storage output) →
      ((calls.foldl EntityStorage.afterCall storage).transactions.map (·.transactionId)).Nodup ∧
        ∀ output ∈ (calls.foldl EntityStorage.afterCall storage).outputs,
          Placed (calls.foldl EntityStorage.afterCall storage) output := by
  refine ⟨fun _ _ _ => perform_applies, fun calls => ?_⟩
  induction calls with
  | nil => exact fun storage _ hIds hPlaced => ⟨hIds, hPlaced⟩
  | cons call calls ih =>
    intro storage hKeys hIds hPlaced
    rw [List.foldl_cons]
    cases hRun : storage.perform call with
    | error error =>
      have hSame : storage.afterCall call = storage := by rw [EntityStorage.afterCall, hRun]; rfl
      rw [hSame]
      exact ih storage hKeys hIds hPlaced
    | ok after =>
      have hAfter : storage.afterCall call = after := by rw [EntityStorage.afterCall, hRun]; rfl
      rcases perform_applies hKeys hRun with ⟨tx, hApplies⟩
      rw [hAfter]
      exact ih after (hApplies.keys.1 ▸ hKeys) (hApplies.keys.2 ▸ hIds)
        (hApplies.placed hIds hPlaced)

theorem failed_not_spendable :
  ¬ ∀ (storage : EntityStorage) (calls : List StatusCall),
    (∀ output ∈ storage.outputs, output.spendable = true ∧ output.spentBy = none) →
    ∀ output ∈ (calls.foldl EntityStorage.afterCall storage).outputs,
      output.spendable = true ∧ output.spentBy = none ∨
        ∃ tx ∈ (calls.foldl EntityStorage.afterCall storage).transactions,
          output.spentBy = some tx.transactionId ∧ tx.status ≠ .failed := by
  intro hPlaced
  have hOutput := hPlaced
    { outputs := [storedOutput 1 true none], transactions := [storedTransaction 1 .nosend] }
    [{ now := 0, status := .failed, transactionId := some 1 }] (by simp [storedOutput])
    (storedOutput 1 false none) (by decide +kernel)
  rcases hOutput with ⟨hSpendable, -⟩ | ⟨tx, -, hSpent⟩
  · cases hSpendable
  · cases hSpent.1

end TsStack.Wallet
