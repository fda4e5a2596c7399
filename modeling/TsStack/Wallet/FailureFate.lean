import TsStack.Wallet.PendingDescendants

/-
  What the rows of a wallet's storage say of each other, and
  what becomes of one output when transactions fail.
-/

-- Consistent Storage

open List

namespace TsStack.Wallet

open EntityStorage EntityTransaction

def OutputsAgree (storage : EntityStorage) : Prop :=
  ∀ output ∈ storage.outputs, ∀ tx ∈ storage.transactions,
      output.transactionId = tx.transactionId → output.txid = tx.txid

def FailedHoldNone (storage : EntityStorage) : Prop :=
  ∀ tx ∈ storage.transactions, tx.status = .failed →
    ∀ output ∈ storage.outputs, output.transactionId = tx.transactionId →
        output.spendable = false ∧ output.spentBy = none

def NotifiedAgree (storage : ProviderStorage) : Prop :=
  ∀ req ∈ storage.pendingReqs, ∀ ids, req.notifyTransactionIds = some ids → ids ≠ [] →
      ∀ tx ∈ storage.transactions, tx.transactionId ∈ ids ↔ tx.txid = some req.txid

/- The unique columns, and what the rows say of each other. -/
structure ProviderStorage.Consistent (storage : ProviderStorage) : Prop where
  outputIds : (storage.outputs.map (·.outputId)).Nodup
  transactionIds : (storage.transactions.map (·.transactionId)).Nodup
  reqIds : (storage.reqs.map (·.provenTxReqId)).Nodup
  reqTxids : (storage.reqs.map (·.txid)).Nodup
  outputsAgree : OutputsAgree storage.toEntityStorage
  failedHoldNone : FailedHoldNone storage.toEntityStorage
  notifiedAgree : NotifiedAgree storage

def EntityStorage.isReclaim (storage : EntityStorage) (tx : TableTransaction) : Bool :=
  storage.transactions.any (EntityStorage.isReclaimOf tx)

theorem EntityStorage.protect_eq_ok
  {storage : EntityStorage} {tx : TableTransaction} {isProtected : Bool}
  (hRun : storage.protectNoSendExpiryReclaimInputOnFailure tx = .ok isProtected) :
  isProtected = storage.isReclaim tx := by
  unfold protectNoSendExpiryReclaimInputOnFailure at hRun
  rcases bind_eq_ok_iff.mp hRun with ⟨target, hTgt, hEq⟩
  rw [liftEntity_eq_ok_iff, verifyOneOrNone_eq_ok_iff] at hTgt
  cases hEq
  unfold isReclaim
  unfold findTransactions at hTgt
  symm
  cases target with
  | none =>
    apply List.any_eq_false.mpr
    exact filter_eq_nil_iff.mp hTgt
  | some target =>
    have hMatch := (filter_eq_singleton_only hTgt).1
    exact List.any_eq_true.mpr ⟨target, hMatch⟩

-- One Output

section

variable {now : Int} {tx : TableTransaction} {isProtected : Bool} {output : TableOutput}

/- Only these fields of an output change. -/
def SameOutput (output next : TableOutput) : Prop :=
  next = { output with
    spendable := next.spendable
    spentBy := next.spentBy
    updatedAt := next.updatedAt }

theorem SameOutput.trans {first second third : TableOutput} (hFst : SameOutput first second)
  (hSnd : SameOutput second third) : SameOutput first third := by
  unfold SameOutput at *
  rw [hSnd, hFst]

theorem sameOutput_settleOutput : SameOutput output (settleOutput now tx isProtected output) := by
  unfold SameOutput settleOutput retiredOutput releasedOutput
  split
  · split
    · rfl
    · rfl
  · split
    · rfl
    · rfl

/- An output that nothing can spend is left as it is. -/
theorem settleOutput_idle
  (hSpendable : output.spendable = false) (hSpentBy : output.spentBy = none) :
  settleOutput now tx isProtected output = output := by
  have hSpends : spendsOutput tx output = false := by
    simp [spendsOutput, hSpentBy]
  have hHold : holdsOutput tx output = false := by
    simp [holdsOutput, hSpendable, hSpentBy]
  simp [settleOutput, releasedOutput, retiredOutput, hSpends, hHold]

theorem settleOutput_own (hOwn : output.transactionId = tx.transactionId) :
  (settleOutput now tx isProtected output).spendable = false ∧
    (settleOutput now tx isProtected output).spentBy =
      none := by
  unfold settleOutput
  have hOwnReleased :
      (releasedOutput now tx isProtected output).transactionId = tx.transactionId := by
    unfold releasedOutput
    split
    · exact hOwn
    · exact hOwn
  generalize releasedOutput now tx isProtected output = released at hOwnReleased
  unfold retiredOutput
  by_cases hHold : holdsOutput tx released = true
  · rw [if_pos hHold]
    exact ⟨rfl, rfl⟩
  · rw [if_neg hHold]
    unfold holdsOutput at hHold
    cases hSpendable : released.spendable with
    | true => simp [hOwnReleased, hSpendable] at hHold
    | false =>
      cases hSpentBy : released.spentBy with
      | some id => simp [hOwnReleased, hSpentBy] at hHold
      | none => exact ⟨rfl, rfl⟩

theorem settleOutput_other (hOther : output.transactionId ≠ tx.transactionId) :
  settleOutput now tx isProtected output = releasedOutput now tx isProtected output := by
  unfold settleOutput retiredOutput
  apply if_neg
  unfold holdsOutput releasedOutput
  split
  · simp [TableOutput.release, hOther]
  · simp [hOther]

end

-- The Fate of an Output

def FreesOutput (before : EntityStorage) (failedIds : List Nat) (output : TableOutput) : Prop :=
  ∃ tx ∈ before.transactions, tx.transactionId ∈ failedIds ∧ before.isReclaim tx = false ∧
      EntityTransaction.spendsOutput tx output = true

def OutsideOf (txids : List String) (output : TableOutput) : Prop :=
  ∀ txid ∈ txids, output.txid ≠ some txid

/-
  What has become of an output when some transactions have failed, all with a txid of the closure.
-/
structure OutputFate
  (before : EntityStorage) (closure : List String) (now : Int) (failedIds : List Nat)
  (output next : TableOutput) : Prop where
  same : SameOutput output next
  retired : output.transactionId ∈ failedIds → next.spendable = false ∧ next.spentBy = none
  idle : output.spendable = false → output.spentBy = none →
      next.spendable = false ∧ next.spentBy = none
  freed : OutsideOf closure output → FreesOutput before failedIds output → next = output.release now
  kept : OutsideOf closure output → ¬FreesOutput before failedIds output → next = output

section

variable {before : EntityStorage} {closure : List String} {now : Int} {failedIds : List Nat}
variable {output next : TableOutput} {tx : TableTransaction}

theorem outputFate_start : OutputFate before closure now [] output output where
  same := rfl
  retired := by simp
  idle := fun hSpendable hSpentBy => ⟨hSpendable, hSpentBy⟩
  freed := by
    rintro _ ⟨tx, _, hNone, _⟩
    cases hNone
  kept := fun _ _ => rfl

theorem freesOutput_append_iff
  (hIds : (before.transactions.map (·.transactionId)).Nodup) (hTx : tx ∈ before.transactions) :
  FreesOutput before (failedIds ++ [tx.transactionId]) output ↔
    FreesOutput before failedIds output ∨ (before.isReclaim tx = false ∧
        spendsOutput tx output = true) := by
  constructor
  · rintro ⟨other, hOther, hFail, hReclaim, hSpends⟩
    rcases mem_append.mp hFail with hOld | hNew
    · exact .inl ⟨other, hOther, hOld, hReclaim, hSpends⟩
    · have hSame : other = tx :=
        inj_on_of_nodup_map hIds hOther hTx (mem_singleton.mp hNew)
      subst hSame
      exact .inr ⟨hReclaim, hSpends⟩
  · rintro (⟨other, hOther, hFail, hRest⟩ | hNew)
    · exact ⟨other, hOther, mem_append_left _ hFail, hRest⟩
    · exact ⟨tx, hTx, mem_append_right _ (mem_singleton_self _), hNew⟩

theorem releasedOutput_release {isProtected : Bool} :
  releasedOutput now tx isProtected (output.release now) = output.release now := by
  unfold releasedOutput
  apply if_neg
  simp [spendsOutput, TableOutput.release]

theorem OutputFate.settle (hFate : OutputFate before closure now failedIds output next)
  (hIds : (before.transactions.map (·.transactionId)).Nodup) (hAgree : OutputsAgree before)
  (hOut : output ∈ before.outputs) (hTx : tx ∈ before.transactions) {txid : String}
  (hTxid : tx.txid = some txid) (hClosure : txid ∈ closure) :
  OutputFate before closure now (failedIds ++ [tx.transactionId]) output
    (settleOutput now tx (before.isReclaim tx) next) := by
  have hOwner : next.transactionId = output.transactionId := by rw [hFate.same]
  have hOther : OutsideOf closure output → next.transactionId ≠ tx.transactionId := by
    intro hOutside hEq
    apply hOutside txid hClosure
    rw [← hTxid]
    exact hAgree output hOut tx hTx (hOwner ▸ hEq)
  constructor
  case same => exact hFate.same.trans sameOutput_settleOutput
  case retired =>
    intro hFail
    rcases mem_append.mp hFail with hOld | hNew
    · have hRetired := hFate.retired hOld
      rw [settleOutput_idle hRetired.1 hRetired.2]
      exact hRetired
    · apply settleOutput_own
      rw [hOwner]
      exact mem_singleton.mp hNew
  case idle =>
    intro hSpendable hSpentBy
    have hIdle := hFate.idle hSpendable hSpentBy
    rw [settleOutput_idle hIdle.1 hIdle.2]
    exact hIdle
  case freed =>
    intro hOutside hFrees
    rw [settleOutput_other (hOther hOutside)]
    by_cases hOld : FreesOutput before failedIds output
    · rw [hFate.freed hOutside hOld]
      exact releasedOutput_release
    · rw [hFate.kept hOutside hOld]
      rcases (freesOutput_append_iff hIds hTx).mp hFrees with hFreed | hNew
      · exact absurd hFreed hOld
      · unfold releasedOutput
        exact if_pos hNew
  case kept =>
    intro hOutside hKeeps
    rw [settleOutput_other (hOther hOutside)]
    rw [freesOutput_append_iff hIds hTx, not_or] at hKeeps
    rw [hFate.kept hOutside hKeeps.1]
    unfold releasedOutput
    exact if_neg hKeeps.2

theorem OutputFate.quarantine
  {ids : List Nat} (hFate : OutputFate before closure now failedIds output next)
  (hInside : next.outputId ∈ ids → ¬OutsideOf closure output) :
  OutputFate before closure now failedIds output (if next.outputId ∈ ids then next.quarantine now
    else next) := by
  by_cases hMem : next.outputId ∈ ids
  · rw [if_pos hMem]
    constructor
    case same =>
      apply hFate.same.trans
      rfl
    case retired =>
      intro hFail
      exact ⟨rfl, (hFate.retired hFail).2⟩
    case idle =>
      intro hSpendable hSpentBy
      exact ⟨rfl, (hFate.idle hSpendable hSpentBy).2⟩
    case freed =>
      intro hOutside _
      exact absurd hOutside (hInside hMem)
    case kept =>
      intro hOutside _
      exact absurd hOutside (hInside hMem)
  · rw [if_neg hMem]
    exact hFate

end

end TsStack.Wallet
