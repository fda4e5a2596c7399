import TsStack.Wallet.ProofRace

/-
  What the broadcast and the proofs of a request leave of the
  stored transactions and outputs.

  Rows keep their keys.  The recovery of failed transactions
  changes the status of these only, allocates the outputs
  that the transaction spends, and settles the outputs of the
  failed transactions.
-/

-- Keys

open List

namespace TsStack.Wallet

open EntityStorage ProofWorld

structure KeysUnique (storage : EntityStorage) : Prop where
  outputs : (storage.outputs.map (·.outputId)).Nodup
  transactions : (storage.transactions.map (·.transactionId)).Nodup

structure SameKeys (before after : EntityStorage) : Prop where
  outputs : after.outputs.map (·.outputId) = before.outputs.map (·.outputId)
  transactions :
    after.transactions.map (·.transactionId) = before.transactions.map (·.transactionId)

variable {storage before middle after : EntityStorage}

theorem SameKeys.refl (storage : EntityStorage) : SameKeys storage storage :=
  ⟨rfl, rfl⟩

theorem SameKeys.trans (hFst : SameKeys before middle) (hSnd : SameKeys middle after) :
  SameKeys before after :=
  ⟨hSnd.outputs.trans hFst.outputs, hSnd.transactions.trans hFst.transactions⟩

theorem KeysUnique.sameKeys (hKeys : KeysUnique before) (hSame : SameKeys before after) :
  KeysUnique after := by
  refine ⟨?_, ?_⟩
  · rw [hSame.outputs]
    exact hKeys.outputs
  · rw [hSame.transactions]
    exact hKeys.transactions

variable {change : TableOutput → TableOutput}

theorem sameKeys_updateOutput (storage : EntityStorage) (id : Nat)
  (hChange : ∀ output, (change output).outputId = output.outputId) :
  SameKeys storage (storage.updateOutput id change) := by
  refine ⟨?_, rfl⟩
  apply KeyedRows.update_keys
  intro output _ hId
  rw [hChange, hId]

theorem sameKeys_updateTransaction
  (storage : EntityStorage) (id : Nat) {change : TableTransaction → TableTransaction}
  (hChange : ∀ tx, (change tx).transactionId = tx.transactionId) :
  SameKeys storage (storage.updateTransaction id change) := by
  refine ⟨rfl, ?_⟩
  apply KeyedRows.update_keys
  intro tx _ hId
  rw [hChange, hId]

theorem sameKeys_updateOutputs
  {ids : List Nat} (hChange : ∀ output, (change output).outputId = output.outputId)
  (hRun : storage.updateOutputs change ids = .ok after) : SameKeys storage after := by
  induction ids generalizing storage with
  | nil =>
    cases hRun
    exact SameKeys.refl _
  | cons id ids ih =>
    unfold updateOutputs at hRun
    rw [foldlM_cons] at hRun
    rcases bind_eq_ok_iff.mp hRun with ⟨next, hNext, hRest⟩
    rcases bind_eq_ok_iff.mp hNext with ⟨verified, -, hUpd⟩
    cases hUpd
    exact (sameKeys_updateOutput storage verified hChange).trans (ih hRest)

theorem sameKeys_failTransactionOutputs
  {now : Int} {tx : TableTransaction} (hRun : storage.failTransactionOutputs now tx = .ok after) :
  SameKeys storage after := by
  unfold failTransactionOutputs at hRun
  rcases bind_eq_ok_iff.mp hRun with ⟨isProtected, -, hRun⟩
  rcases bind_eq_ok_iff.mp hRun with ⟨released, hReleased, hMarked⟩
  have hFst : SameKeys storage released := by
    unfold releaseUnlessProtected at hReleased
    split at hReleased
    · cases hReleased
      exact SameKeys.refl _
    · unfold releaseInputsAllocatedToFailedTransaction at hReleased
      rcases bind_eq_ok_iff.mp hReleased with ⟨inputs, -, hUpdates⟩
      exact sameKeys_updateOutputs (TableOutput.release_outputId now) hUpdates
  unfold markFailedTransactionOutputsNotSpendable at hMarked
  rcases bind_eq_ok_iff.mp hMarked with ⟨-, -, hUpdates⟩
  exact hFst.trans (sameKeys_updateOutputs (TableOutput.retire_outputId now) hUpdates)

theorem sameKeys_updateTransactionStatus
  {now : Int} {status : TransactionStatus} {transactionId userId : Option Nat}
  {reference : Option String}
  (hRun : storage.updateTransactionStatus now status transactionId userId reference = .ok after) :
  SameKeys storage after := by
  unfold updateTransactionStatus at hRun
  rcases bind_eq_ok_iff.mp hRun with ⟨-, -, hRun⟩
  rcases bind_eq_ok_iff.mp hRun with ⟨tx, -, hRun⟩
  rcases bind_eq_ok_iff.mp hRun with ⟨-, -, hRun⟩
  rcases bind_eq_ok_iff.mp hRun with ⟨settled, hSettle, hUpd⟩
  have hFst : SameKeys storage settled := by
    cases status with
    | failed => exact sameKeys_failTransactionOutputs hSettle
    | nonfinal => cases hSettle
    | unfail => cases hSettle
    | _ =>
      cases hSettle
      exact SameKeys.refl _
  cases hUpd
  exact hFst.trans (sameKeys_updateTransaction settled tx.transactionId fun _ => rfl)

theorem sameKeys_updateTransactionsStatus {now : Int} {ids : List Nat} {status : TransactionStatus}
  (hRun : storage.updateTransactionsStatus now ids status = .ok after) :
  SameKeys storage after := by
  induction ids generalizing storage with
  | nil =>
    cases hRun
    exact SameKeys.refl _
  | cons id ids ih =>
    unfold updateTransactionsStatus at hRun
    rw [foldlM_cons] at hRun
    rcases bind_eq_ok_iff.mp hRun with ⟨next, hNext, hRest⟩
    exact (sameKeys_updateTransactionStatus hNext).trans (ih hRest)

-- Recovery

def SpentByInputs (inputs : List TransactionInput) (output : TableOutput) : Prop :=
  ∃ input ∈ inputs, output.txid = input.sourceTXID.map String.ofList ∧
      output.vout = input.sourceOutputIndex

structure SameTransaction (before after : TableTransaction) : Prop where
  transactionId : after.transactionId = before.transactionId
  txid : after.txid = before.txid

structure SamePlace (before after : TableOutput) : Prop where
  outputId : after.outputId = before.outputId
  transactionId : after.transactionId = before.transactionId
  txid : after.txid = before.txid
  vout : after.vout = before.vout

/-
  Failed transactions were recovered: only they change their status, and an output is changed if
  it is spent by the inputs or is one of them.
-/
structure Recovered
  (failed : List Nat) (inputs : List TransactionInput) (before after : EntityStorage) : Prop where
  keys : SameKeys before after
  forward : ∀ tx ∈ before.transactions, ∃ next ∈ after.transactions,
        SameTransaction tx next ∧ (next.status = tx.status ∨ tx.transactionId ∈ failed ∧
              next.status = .unproven)
  backward : ∀ next ∈ after.transactions, ∃ tx ∈ before.transactions,
        SameTransaction tx next ∧ (next.status = tx.status ∨ tx.transactionId ∈ failed ∧
              next.status = .unproven)
  outputs : ∀ output ∈ before.outputs, ∃ next ∈ after.outputs,
        SamePlace output next ∧ (next.spentBy = output.spentBy ∨
            ∃ id ∈ failed, next.spentBy = some id) ∧
          (next.spendable = true → output.spendable = true ∨ output.transactionId ∈ failed) ∧
          (output.spendable = true →
            next.spendable = true ∨ SpentByInputs inputs output ∨ output.transactionId ∈ failed)

variable {failed : List Nat} {inputs : List TransactionInput} {tx : TableTransaction} {now : Int}

theorem SameTransaction.refl (tx : TableTransaction) : SameTransaction tx tx :=
  ⟨rfl, rfl⟩

theorem SameTransaction.trans
  {first second third : TableTransaction} (hFst : SameTransaction first second)
  (hSnd : SameTransaction second third) : SameTransaction first third :=
  ⟨hSnd.transactionId.trans hFst.transactionId, hSnd.txid.trans hFst.txid⟩

theorem SamePlace.refl (output : TableOutput) : SamePlace output output :=
  ⟨rfl, rfl, rfl, rfl⟩

theorem SamePlace.trans {first second third : TableOutput} (hFst : SamePlace first second)
  (hSnd : SamePlace second third) : SamePlace first third :=
  ⟨hSnd.outputId.trans hFst.outputId, hSnd.transactionId.trans hFst.transactionId,
    hSnd.txid.trans hFst.txid, hSnd.vout.trans hFst.vout⟩

theorem Recovered.refl
  (failed : List Nat) (inputs : List TransactionInput) (storage : EntityStorage) :
  Recovered failed inputs storage storage where
  keys := SameKeys.refl storage
  forward := fun tx hTx => ⟨tx, hTx, SameTransaction.refl tx, .inl rfl⟩
  backward := fun tx hTx => ⟨tx, hTx, SameTransaction.refl tx, .inl rfl⟩
  outputs := fun output hOut =>
    ⟨output, hOut, SamePlace.refl output, .inl rfl, .inl, .inl⟩

theorem status_trans {first second third : TableTransaction} (hSame : SameTransaction first second)
  (hFst : second.status = first.status ∨
      first.transactionId ∈ failed ∧ second.status = .unproven)
  (hSnd :
    third.status = second.status ∨ second.transactionId ∈ failed ∧ third.status = .unproven) :
  third.status = first.status ∨ first.transactionId ∈ failed ∧ third.status = .unproven := by
  rcases hSnd with hSnd | ⟨hFail, hSnd⟩
  · rw [hSnd]
    exact hFst
  · rw [hSame.transactionId] at hFail
    exact .inr ⟨hFail, hSnd⟩

theorem Recovered.trans (hFst : Recovered failed inputs before middle)
  (hSnd : Recovered failed inputs middle after) : Recovered failed inputs before after := by
  refine ⟨hFst.keys.trans hSnd.keys, ?_, ?_, ?_⟩
  · intro tx hTx
    rcases hFst.forward tx hTx with ⟨next, hNext, hSame, hStat⟩
    rcases hSnd.forward next hNext with ⟨last, hLast, hSameLast, hStatLast⟩
    exact ⟨last, hLast, hSame.trans hSameLast, status_trans hSame hStat hStatLast⟩
  · intro last hLast
    rcases hSnd.backward last hLast with ⟨next, hNext, hSameLast, hStatLast⟩
    rcases hFst.backward next hNext with ⟨tx, hTx, hSame, hStat⟩
    exact ⟨tx, hTx, hSame.trans hSameLast, status_trans hSame hStat hStatLast⟩
  · intro output hOut
    rcases hFst.outputs output hOut with ⟨next, hNext, hSame, hSpent, hGained, hSpendable⟩
    rcases hSnd.outputs next hNext with
      ⟨last, hLast, hSameLast, hSpentLast, hGainedLast, hSpendableLast⟩
    refine ⟨last, hLast, hSame.trans hSameLast, ?_, ?_, ?_⟩
    · rcases hSpentLast with hSpentLast | hAlloc
      · rw [hSpentLast]
        exact hSpent
      · exact .inr hAlloc
    · intro hTrue
      rcases hGainedLast hTrue with hNextTrue | hOwned
      · exact hGained hNextTrue
      · rw [hSame.transactionId] at hOwned
        exact .inr hOwned
    · intro hTrue
      rcases hSpendable hTrue with hNextTrue | hExcept
      · rcases hSpendableLast hNextTrue with hLastTrue | hInputs | hOwned
        · exact .inl hLastTrue
        · rcases hInputs with ⟨input, hIn, hTxid, hVout⟩
          rw [hSame.txid] at hTxid
          rw [hSame.vout] at hVout
          exact .inr (Or.inl ⟨input, hIn, hTxid, hVout⟩)
        · rw [hSame.transactionId] at hOwned
          exact .inr (Or.inr hOwned)
      · exact .inr hExcept

theorem recovered_updateOutput
  (hKeys : KeysUnique storage) {found : TableOutput} (hFound : found ∈ storage.outputs)
  (hPlace : SamePlace found (change found))
  (hId : ∀ output, (change output).outputId = output.outputId) (hSpent :
    (change found).spentBy = found.spentBy ∨ ∃ id ∈ failed, (change found).spentBy = some id)
  (hGained :
    (change found).spendable = true → found.spendable = true ∨ found.transactionId ∈ failed)
  (hMay : SpentByInputs inputs found ∨ found.transactionId ∈ failed) :
  Recovered failed inputs storage (storage.updateOutput found.outputId change) := by
  refine ⟨sameKeys_updateOutput storage found.outputId hId,
    fun tx hTx => ⟨tx, hTx, SameTransaction.refl tx, .inl rfl⟩,
    fun tx hTx => ⟨tx, hTx, SameTransaction.refl tx, .inl rfl⟩, ?_⟩
  intro output hOut
  by_cases hSame : output.outputId = found.outputId
  · have hOwn : output = found := inj_on_of_nodup_map hKeys.outputs hOut hFound hSame
    rw [hOwn]
    refine ⟨change found, KeyedRows.mem_update_iff.mpr (Or.inl ⟨found, hFound, rfl, rfl⟩),
      hPlace, hSpent, hGained, ?_⟩
    intro _
    exact .inr hMay
  · exact ⟨output, KeyedRows.mem_update_iff.mpr (Or.inr ⟨hOut, hSame⟩),
      SamePlace.refl output, .inl rfl, .inl, .inl⟩

theorem recovered_restoreInput
  (hKeys : KeysUnique storage) {input : TransactionInput} (hInput : input ∈ inputs)
  (hFail : tx.transactionId ∈ failed) :
  Recovered failed inputs storage (storage.restoreInput now tx input) := by
  unfold restoreInput
  split
  · exact Recovered.refl _ _ _
  · rename_i sourceTXID hSrc
    split
    · rename_i found hFound
      rcases (filter_eq_singleton_only hFound).1 with ⟨hMem, hMatches⟩
      simp only [Bool.and_eq_true, beq_iff_eq] at hMatches
      refine recovered_updateOutput hKeys hMem ⟨rfl, rfl, rfl, rfl⟩ (fun _ => rfl)
        (Or.inr ⟨tx.transactionId, hFail, rfl⟩) nofun
        (Or.inl ⟨input, hInput, ?_, hMatches.2⟩)
      rw [hSrc]
      exact hMatches.1.2
    · exact Recovered.refl _ _ _

theorem recovered_restoreInputs (hKeys : KeysUnique storage) {part : List TransactionInput}
  (hPart : ∀ input ∈ part, input ∈ inputs) (hFail : tx.transactionId ∈ failed) :
  Recovered failed inputs storage (part.foldl (restoreInput now tx) storage) := by
  induction part generalizing storage with
  | nil => exact Recovered.refl _ _ _
  | cons input rest ih =>
    have hFst : Recovered failed inputs storage (storage.restoreInput now tx input) :=
      recovered_restoreInput hKeys (hPart input mem_cons_self) hFail
    exact hFst.trans (ih (hKeys.sameKeys hFst.keys) fun other hOther =>
      hPart other (mem_cons_of_mem _ hOther))

variable {verdicts : List (Nat × Option Bool)}

theorem recovered_restoreOutputs (hKeys : KeysUnique storage) {outputs : List TableOutput}
  (hOuts : ∀ output ∈ outputs, ∃ found ∈ storage.outputs,
      found.outputId = output.outputId ∧ found.transactionId ∈ failed)
  (hRun : outputs.foldlM (restoreOutput now verdicts) storage = some after) :
  Recovered failed inputs storage after := by
  induction outputs generalizing storage with
  | nil =>
    cases hRun
    exact Recovered.refl _ _ _
  | cons output rest ih =>
    rw [foldlM_cons] at hRun
    rcases Option.bind_eq_some_iff.mp hRun with ⟨next, hNext, hRest⟩
    rcases hOuts output mem_cons_self with ⟨found, hFound, hId, hOwned⟩
    have hFst : Recovered failed inputs storage next := by
      unfold restoreOutput at hNext
      split at hNext
      · cases hNext
      · cases hNext
        exact Recovered.refl _ _ _
      · split at hNext
        · cases hNext
          exact Recovered.refl _ _ _
        · cases hNext
          rw [← hId]
          exact recovered_updateOutput hKeys hFound ⟨rfl, rfl, rfl, rfl⟩ (fun _ => rfl)
            (Or.inl rfl) (fun _ => .inr hOwned)
            (Or.inr hOwned)
    refine hFst.trans (ih (hKeys.sameKeys hFst.keys) ?_ hRest)
    intro other hOther
    rcases hOuts other (mem_cons_of_mem _ hOther) with ⟨old, hOld, hOldId, hOldOwned⟩
    rcases hFst.outputs old hOld with ⟨new, hNew, hPlace, -⟩
    refine ⟨new, hNew, hPlace.outputId.trans hOldId, ?_⟩
    rw [hPlace.transactionId]
    exact hOldOwned

theorem recovered_updateTransaction (hFail : tx.transactionId ∈ failed) (storage : EntityStorage) :
  Recovered failed inputs storage (storage.updateTransaction tx.transactionId fun row =>
      { row with status := .unproven, updatedAt := now }) := by
  refine ⟨sameKeys_updateTransaction storage tx.transactionId fun _ => rfl,
    ?_, ?_, fun output hOut =>
      ⟨output, hOut, SamePlace.refl output, .inl rfl, .inl, .inl⟩⟩
  · intro row hRow
    by_cases hSame : row.transactionId = tx.transactionId
    · refine ⟨_, KeyedRows.mem_update_iff.mpr (Or.inl ⟨row, hRow, hSame, rfl⟩),
          ⟨rfl, rfl⟩, .inr ⟨?_, rfl⟩⟩
      rw [hSame]
      exact hFail
    · exact ⟨row, KeyedRows.mem_update_iff.mpr (Or.inr ⟨hRow, hSame⟩),
        SameTransaction.refl row, .inl rfl⟩
  · intro next hNext
    rcases KeyedRows.mem_update_iff.mp hNext with ⟨row, hRow, hSame, rfl⟩ | ⟨hRow, -⟩
    · refine ⟨row, hRow, ⟨rfl, rfl⟩, .inr ⟨?_, rfl⟩⟩
      rw [hSame]
      exact hFail
    · exact ⟨next, hRow, SameTransaction.refl next, .inl rfl⟩

theorem recovered_restoreTransaction
  (hKeys : KeysUnique storage) (hFail : tx.transactionId ∈ failed) {prepared : List Nat}
  (hRun : restoreTransactionForProof now inputs
      prepared verdicts storage tx = some after) :
  Recovered failed inputs storage after := by
  unfold restoreTransactionForProof at hRun
  split at hRun
  · have hStat :
        Recovered failed inputs storage (storage.updateTransaction tx.transactionId fun row =>
          { row with status := .unproven, updatedAt := now }) :=
      recovered_updateTransaction hFail storage
    have hInputs :
        Recovered failed inputs (storage.updateTransaction tx.transactionId fun row =>
            { row with status := .unproven, updatedAt := now })
          (inputs.foldl (restoreInput now tx)
            (storage.updateTransaction tx.transactionId fun row =>
              { row with
                status := .unproven
                updatedAt := now })) :=
      recovered_restoreInputs (hKeys.sameKeys hStat.keys) (fun _ hInput => hInput) hFail
    have hBoth := hStat.trans hInputs
    refine hBoth.trans (recovered_restoreOutputs (hKeys.sameKeys hBoth.keys) ?_ hRun)
    intro output hOut
    rcases mem_filter.mp hOut with ⟨hIn, hOwned⟩
    rw [Bool.and_eq_true, beq_iff_eq, beq_iff_eq] at hOwned
    refine ⟨output, hIn, rfl, ?_⟩
    rw [hOwned.2]
    exact hFail
  · cases hRun

theorem recovered_restoreTransactions
  (hKeys : KeysUnique storage) {transactions : List TableTransaction}
  (hFail : ∀ tx ∈ transactions, tx.transactionId ∈ failed) {prepared : List Nat}
  (hRun : transactions.foldlM (restoreTransactionForProof now inputs
        prepared verdicts) storage = some after) :
  Recovered failed inputs storage after := by
  induction transactions generalizing storage with
  | nil =>
    cases hRun
    exact Recovered.refl _ _ _
  | cons tx rest ih =>
    rw [foldlM_cons] at hRun
    rcases Option.bind_eq_some_iff.mp hRun with ⟨next, hNext, hRest⟩
    have hFst : Recovered failed inputs storage next :=
      recovered_restoreTransaction hKeys (hFail tx mem_cons_self) hNext
    exact hFst.trans (ih (hKeys.sameKeys hFst.keys) (fun other hOther =>
        hFail other (mem_cons_of_mem _ hOther))
      hRest)

-- Stores that are kept

def OwnedByFailed (storage : EntityStorage) (txid : String) (output : TableOutput) : Prop :=
  ∃ tx ∈ storage.transactions, tx.txid = some txid ∧ tx.status = .failed ∧
      output.transactionId = tx.transactionId

def AllocatedToOwn (storage : EntityStorage) (txid : String) (output : TableOutput) : Prop :=
  ∃ tx ∈ storage.transactions, tx.txid = some txid ∧ output.spentBy = some tx.transactionId

/-
  What a completed request keeps of the store: completed transactions, the inputs that are
  allocated to its own ones, and the outputs of those that did not fail.
-/
structure StoreKept
  (txid : String) (inputs : List TransactionInput) (before after : EntityStorage) : Prop where
  transactions : ∀ tx ∈ before.transactions, ∃ next ∈ after.transactions, SameTransaction tx next ∧
          (tx.status = .completed → next.status = .completed)
  failed : ∀ next ∈ after.transactions, next.status = .failed → ∃ tx ∈ before.transactions,
          SameTransaction tx next ∧ tx.status = .failed
  outputs : ∀ output ∈ before.outputs, ∃ next ∈ after.outputs,
        SamePlace output next ∧ (AllocatedToOwn before txid output →
            AllocatedToOwn after txid next) ∧
          (next.spendable = true → output.spendable = true ∨ OwnedByFailed before txid output) ∧
          (output.spendable = true →
            next.spendable = true ∨ SpentByInputs inputs output ∨ OwnedByFailed before txid output)

variable {txid : String}

theorem StoreKept.refl (txid : String) (inputs : List TransactionInput) (storage : EntityStorage) :
  StoreKept txid inputs storage storage where
  transactions := fun tx hTx => ⟨tx, hTx, SameTransaction.refl tx, fun hDone => hDone⟩
  failed := fun tx hTx hFail => ⟨tx, hTx, SameTransaction.refl tx, hFail⟩
  outputs := fun output hOut =>
    ⟨output, hOut, SamePlace.refl output, fun hOwn => hOwn, .inl, .inl⟩

theorem OwnedByFailed.back (hKept : StoreKept txid inputs before middle) {output next : TableOutput}
  (hPlace : SamePlace output next) (hOwned : OwnedByFailed middle txid next) :
  OwnedByFailed before txid output := by
  rcases hOwned with ⟨tx, hTx, hTxid, hFail, hOwner⟩
  rcases hKept.failed tx hTx hFail with ⟨old, hOld, hSame, hOldFail⟩
  refine ⟨old, hOld, ?_, hOldFail, ?_⟩
  · rw [← hSame.txid]
    exact hTxid
  · rw [← hPlace.transactionId, hOwner]
    exact hSame.transactionId

theorem StoreKept.trans
  (hFst : StoreKept txid inputs before middle) (hSnd : StoreKept txid inputs middle after) :
  StoreKept txid inputs before after := by
  refine ⟨?_, ?_, ?_⟩
  · intro tx hTx
    rcases hFst.transactions tx hTx with ⟨next, hNext, hSame, hDone⟩
    rcases hSnd.transactions next hNext with ⟨last, hLast, hSameLast, hDoneLast⟩
    exact ⟨last, hLast, hSame.trans hSameLast, fun hTrue => hDoneLast (hDone hTrue)⟩
  · intro last hLast hFail
    rcases hSnd.failed last hLast hFail with ⟨next, hNext, hSameLast, hNextFail⟩
    rcases hFst.failed next hNext hNextFail with ⟨tx, hTx, hSame, hTxFail⟩
    exact ⟨tx, hTx, hSame.trans hSameLast, hTxFail⟩
  · intro output hOut
    rcases hFst.outputs output hOut with ⟨next, hNext, hSame, hAlloc, hGained, hLost⟩
    rcases hSnd.outputs next hNext with
      ⟨last, hLast, hSameLast, hAllocLast, hGainedLast, hLostLast⟩
    refine ⟨last, hLast, hSame.trans hSameLast,
      fun hOwn => hAllocLast (hAlloc hOwn), ?_, ?_⟩
    · intro hTrue
      rcases hGainedLast hTrue with hNextTrue | hOwned
      · exact hGained hNextTrue
      · exact .inr (hOwned.back hFst hSame)
    · intro hTrue
      rcases hLost hTrue with hNextTrue | hExcept
      · rcases hLostLast hNextTrue with hLastTrue | hInputs | hOwned
        · exact .inl hLastTrue
        · rcases hInputs with ⟨input, hInput, hTxid, hVout⟩
          rw [hSame.txid] at hTxid
          rw [hSame.vout] at hVout
          exact .inr (Or.inl ⟨input, hInput, hTxid, hVout⟩)
        · exact .inr (Or.inr (hOwned.back hFst hSame))
      · exact .inr hExcept

theorem Recovered.storeKept (hKeys : KeysUnique before) {own : List TableTransaction}
  (hOwn : ∀ tx ∈ own, tx ∈ before.transactions ∧ tx.txid = some txid ∧ tx.status = .failed)
  (hRecovered : Recovered (own.map (·.transactionId)) inputs before after) :
  StoreKept txid inputs before after := by
  have hOwned : ∀ output : TableOutput, output.transactionId ∈ own.map (·.transactionId) →
        OwnedByFailed before txid output := by
    intro output hIn
    rcases List.mem_map.mp hIn with ⟨tx, hTx, hId⟩
    rcases hOwn tx hTx with ⟨hMem, hTxid, hFail⟩
    exact ⟨tx, hMem, hTxid, hFail, hId.symm⟩
  refine ⟨?_, ?_, ?_⟩
  · intro tx hTx
    rcases hRecovered.forward tx hTx with ⟨next, hNext, hSame, hStat⟩
    refine ⟨next, hNext, hSame, ?_⟩
    intro hDone
    rcases hStat with hStat | ⟨hIn, -⟩
    · exact hStat.trans hDone
    · -- a row has one status, by its key
      rcases List.mem_map.mp hIn with ⟨other, hOther, hId⟩
      rcases hOwn other hOther with ⟨hMem, -, hFail⟩
      have hEqual : other = tx := inj_on_of_nodup_map hKeys.transactions hMem hTx hId
      rw [hEqual, hDone] at hFail
      cases hFail
  · intro next hNext hFail
    rcases hRecovered.backward next hNext with ⟨tx, hTx, hSame, hStat⟩
    rcases hStat with hStat | ⟨-, hUnproven⟩
    · exact ⟨tx, hTx, hSame, hStat.symm.trans hFail⟩
    · rw [hFail] at hUnproven
      cases hUnproven
  · intro output hOut
    rcases hRecovered.outputs output hOut with ⟨next, hNext, hPlace, hSpent, hGained, hLost⟩
    refine ⟨next, hNext, hPlace, ?_, ?_, ?_⟩
    · rintro ⟨tx, hTx, hTxid, hAlloc⟩
      have hOwner : ∃ row ∈ before.transactions, row.txid = some txid ∧
            next.spentBy = some row.transactionId := by
        rcases hSpent with hSpent | ⟨id, hIn, hSpent⟩
        · exact ⟨tx, hTx, hTxid, hSpent.trans hAlloc⟩
        · rcases List.mem_map.mp hIn with ⟨row, hRow, rfl⟩
          rcases hOwn row hRow with ⟨hMem, hRowTxid, -⟩
          exact ⟨row, hMem, hRowTxid, hSpent⟩
      rcases hOwner with ⟨row, hRow, hRowTxid, hRowSpent⟩
      rcases hRecovered.forward row hRow with ⟨last, hLast, hSame, -⟩
      refine ⟨last, hLast, hSame.txid.trans hRowTxid, ?_⟩
      rw [hSame.transactionId]
      exact hRowSpent
    · intro hTrue
      exact (hGained hTrue).imp_right (hOwned output)
    · intro hTrue
      rcases hLost hTrue with hKept | hInputs | hIn
      · exact .inl hKept
      · exact .inr (Or.inl hInputs)
      · exact .inr (Or.inr (hOwned output hIn))

theorem sameKeys_notifyTransaction
  (now : Int) (provenTxId : Nat) (storage : EntityStorage) (id : Nat) :
  SameKeys storage (notifyTransaction now provenTxId storage id) :=
  sameKeys_updateTransaction storage id fun _ => rfl

theorem storeKept_notifyTransaction
  (now : Int) (provenTxId : Nat) (storage : EntityStorage) (id : Nat) :
  StoreKept txid inputs storage (notifyTransaction now provenTxId storage id) := by
  have hForward : ∀ tx ∈ storage.transactions,
      ∃ next ∈ (notifyTransaction now provenTxId storage id).transactions,
        SameTransaction tx next ∧ (tx.status = .completed → next.status = .completed) := by
    intro tx hTx
    by_cases hId : tx.transactionId = id
    · exact ⟨_, KeyedRows.mem_update_iff.mpr (Or.inl ⟨tx, hTx, hId, rfl⟩), ⟨rfl, rfl⟩, fun _ => rfl⟩
    · exact ⟨tx, KeyedRows.mem_update_iff.mpr (Or.inr ⟨hTx, hId⟩),
        SameTransaction.refl tx, fun hDone => hDone⟩
  refine ⟨hForward, ?_, ?_⟩
  · intro next hNext hFail
    rcases KeyedRows.mem_update_iff.mp hNext with ⟨tx, -, -, rfl⟩ | ⟨hTx, -⟩
    · cases hFail
    · exact ⟨next, hTx, SameTransaction.refl next, hFail⟩
  · intro output hOut
    refine ⟨output, hOut, SamePlace.refl output, ?_, .inl, .inl⟩
    rintro ⟨tx, hTx, hTxid, hAlloc⟩
    rcases hForward tx hTx with ⟨next, hNext, hSame, -⟩
    refine ⟨next, hNext, hSame.txid.trans hTxid, ?_⟩
    rw [hSame.transactionId]
    exact hAlloc

theorem sameKeys_notify (now : Int) (provenTxId : Nat) (ids : List Nat) (storage : EntityStorage) :
  SameKeys storage (ids.foldl (notifyTransaction now provenTxId) storage) := by
  induction ids generalizing storage with
  | nil => exact SameKeys.refl _
  | cons id ids ih => exact (sameKeys_notifyTransaction now provenTxId storage id).trans (ih _)

theorem storeKept_notify (now : Int) (provenTxId : Nat) (ids : List Nat) (storage : EntityStorage) :
  StoreKept txid inputs storage (ids.foldl (notifyTransaction now provenTxId)
      storage) := by
  induction ids generalizing storage with
  | nil => exact StoreKept.refl _ _ _
  | cons id ids ih => exact (storeKept_notifyTransaction now provenTxId storage id).trans (ih _)

end TsStack.Wallet
