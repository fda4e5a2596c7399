import TsStack.Wallet.FailureProgress

/-
  The transactions that fail with some failed ones are those
  of the closure under spending, their outputs are retired,
  and the outputs of other transactions that were allocated
  to them are released.
-/

-- The Closure Has Failed

open List

namespace TsStack.Wallet

/-
  A set of txids holds the terminal ones, and that of every
  pending request that spends an output of one in the set.
-/
def FailureClosed
  (terminalTxids : List String) (storage : ProviderStorage) (txids : Set String) : Prop :=
  PassClosure.Closed TableProvenTxReq.txid (fun req => sourceTxids req.rawTx)
    storage.pendingReqs terminalTxids txids

def failsWith (failedTxids : List String) (tx : TableTransaction) : Bool :=
  tx.txid.any (failedTxids.contains ·) && !ProviderStorage.isSettled tx

structure ClosureFailed
  (now : Int) (terminalTxids : List String) (before : ProviderStorage) (failedTxids : List String)
  (after : ProviderStorage) : Prop where
  least : IsLeast
      {txids | FailureClosed terminalTxids before txids}
      {txid | txid ∈ terminalTxids ∨ txid ∈ failedTxids}
  fresh : ∀ txid ∈ failedTxids, txid ∉ terminalTxids
  reqs :
    (after.reqs.map fun req => (req.txid, req.status)) = before.reqs.map fun req =>
        (req.txid,
          if req.isPending = true ∧ req.txid ∈ failedTxids then .invalid
          else req.status)
  transactions :
    after.transactions = before.transactions.map fun tx =>
        if failsWith failedTxids tx = true then { tx with status := .failed, updatedAt := now }
        else tx
  notSpendable : ∀ tx ∈ after.transactions, tx.status = .failed →
      ∀ output ∈ after.outputs, output.transactionId = tx.transactionId → output.spendable = false
  released : ∀ tx ∈ before.transactions, failsWith failedTxids tx = true →
        before.isReclaim tx = false → ∀ output ∈ before.outputs,
            EntityTransaction.spendsOutput tx output = true →
              OutsideOf (terminalTxids ++ failedTxids) output → output.release now ∈ after.outputs

section

variable {before after : ProviderStorage} {closure doomed : List String} {now : Int}
variable {failedIds invalidIds : List Nat}

theorem Progress.failedHoldNone (hBefore : before.Consistent) (hProg :
    Progress before.toEntityStorage closure doomed now failedIds after.toEntityStorage) :
  FailedHoldNone after.toEntityStorage := by
  intro row hRow hFail next hNext hOwn
  rcases hProg.outputs with ⟨fate, hOuts, hFate⟩
  rw [hOuts] at hNext
  rcases List.mem_map.mp hNext with ⟨output, hOut, hEq⟩
  subst hEq
  have hOutFate := hFate output hOut
  rw [hProg.transactions] at hRow
  rcases List.mem_map.mp hRow with ⟨tx, hTx, hEq⟩
  subst hEq
  rw [failRow_transactionId, hOutFate.same] at hOwn
  by_cases hMem : tx.transactionId ∈ failedIds
  · apply hOutFate.retired
    rw [← hOwn] at hMem
    exact hMem
  · unfold failRow at hFail
    rw [if_neg hMem] at hFail
    have hHold := hBefore.failedHoldNone tx hTx hFail output hOut hOwn
    exact hOutFate.idle hHold.1 hHold.2

end

section

variable {before after : ProviderStorage} {time : WriteTime}
variable {terminalTxids failedTxids : List String}

theorem failPendingDescendants_eq_ok (hBefore : before.Consistent)
  (hRun : before.failPendingDescendants time terminalTxids = .ok (failedTxids, after)) :
  failedTxids = (findPendingDescendants terminalTxids
        before.pendingReqs).map (fun entry => entry.1.txid) ∧
    FailsDescendants before (terminalTxids ++ failedTxids) failedTxids time.now
      (findPendingDescendants terminalTxids before.pendingReqs) [] [] after := by
  unfold ProviderStorage.failPendingDescendants at hRun
  dsimp only at hRun
  rcases bind_eq_ok_iff.mp hRun with ⟨failed, hFail, hEq⟩
  cases hEq
  refine ⟨rfl, ?_⟩
  have hSound :=
    @PassClosure.run_sound _ _ _ TableProvenTxReq.txid (fun req => sourceTxids req.rawTx)
      before.pendingReqs terminalTxids
  apply Progress.failDescendants hBefore (fun txid hTxid => mem_append_right _ hTxid)
    progress_start (reqProgress_start before.reqs) _ hFail
  intro descendant hDesc
  constructor
  case pending => exact hSound.listed descendant hDesc
  case txid => exact List.mem_map_of_mem hDesc
  case parents =>
    intro txid hTxid
    have hCause := (hSound.caused descendant hDesc).2 txid hTxid
    rw [hSound.reached_eq] at hCause
    exact hCause.2

end

-- Runs

section

variable {before after : ProviderStorage} {now : Int} {terminalTxids : List String}
variable {descendants :
  List (TableProvenTxReq × List String)}

theorem failRow_eq_failsWith {closure : List String} {failedIds : List Nat} (hAll :
    ∀ descendant ∈ descendants, ∀ tx ∈ before.transactions, tx.txid = some descendant.1.txid →
          ProviderStorage.isSettled tx = false → tx.transactionId ∈ failedIds)
  (hProg :
    Progress before.toEntityStorage closure (descendants.map fun entry => entry.1.txid) now
      failedIds after.toEntityStorage)
  {tx : TableTransaction} (hTx : tx ∈ before.transactions) : tx.transactionId ∈ failedIds ↔
    failsWith (descendants.map fun entry => entry.1.txid) tx = true := by
  unfold failsWith
  rw [Bool.and_eq_true, Bool.not_eq_true']
  constructor
  · intro hFail
    rcases hProg.failed tx hTx hFail with ⟨hOpen, txid, hDoomed, hTxid⟩
    constructor
    · rw [hTxid]
      exact contains_iff_mem.mpr hDoomed
    · exact hOpen
  · rintro ⟨hDoomed, hOpen⟩
    cases hTxid : tx.txid with
    | none =>
      rw [hTxid] at hDoomed
      cases hDoomed
    | some txid =>
      rw [hTxid] at hDoomed
      have hMem := contains_iff_mem.mp hDoomed
      rcases List.mem_map.mp hMem with ⟨descendant, hDesc, hEq⟩
      apply hAll descendant hDesc tx hTx _ hOpen
      rw [hTxid, hEq]

theorem reqs_of_progress (hBefore : before.Consistent)
  (hPending : ∀ descendant ∈ descendants, descendant.1 ∈ before.pendingReqs) (hReqs :
    ReqProgress before.reqs (descendants.map fun entry => entry.1.provenTxReqId) after.reqs) :
  (after.reqs.map fun req => (req.txid, req.status)) = before.reqs.map fun req =>
      (req.txid,
        if req.isPending = true ∧ req.txid ∈ descendants.map fun entry => entry.1.txid then
          .invalid
        else req.status) := by
  rcases hReqs.rows with ⟨change, hChanged, hChange⟩
  rw [hChanged, List.map_map]
  apply map_congr_left
  intro req hReq
  rcases hChange req hReq with ⟨_, hTxid, hInvalid, hKept⟩
  change ((change req).txid, (change req).status) = _
  rw [hTxid]
  congr 1
  by_cases hDone : req.provenTxReqId ∈ descendants.map fun entry => entry.1.provenTxReqId
  · rw [hInvalid hDone]
    rcases List.mem_map.mp hDone with ⟨descendant, hDesc, hId⟩
    rcases mem_filter.mp (hPending descendant hDesc) with ⟨hStore, hIsPending⟩
    have hSame : descendant.1 = req := inj_on_of_nodup_map hBefore.reqIds hStore hReq hId
    rw [hSame] at hIsPending
    have hMem : req.txid ∈ descendants.map fun entry => entry.1.txid := by
      rw [← hSame]
      exact List.mem_map_of_mem hDesc
    exact (if_pos ⟨hIsPending, hMem⟩).symm
  · rw [hKept hDone, if_neg]
    rintro ⟨hIsPending, hMem⟩
    apply hDone
    rcases List.mem_map.mp hMem with ⟨descendant, hDesc, hEq⟩
    rcases mem_filter.mp (hPending descendant hDesc) with ⟨hStore, _⟩
    have hSame : descendant.1 = req := inj_on_of_nodup_map hBefore.reqTxids hStore hReq hEq
    rw [← hSame]
    exact List.mem_map_of_mem hDesc

theorem Progress.released
  {closure doomed : List String} {failedIds : List Nat} {tx : TableTransaction}
  {output : TableOutput}
  (hProg : Progress before.toEntityStorage closure doomed now failedIds after.toEntityStorage)
  (hTx : tx ∈ before.transactions) (hFail : tx.transactionId ∈ failedIds)
  (hReclaim : before.isReclaim tx = false) (hOut : output ∈ before.outputs)
  (hSpends : EntityTransaction.spendsOutput tx output = true)
  (hOutside : OutsideOf closure output) : output.release now ∈ after.outputs := by
  rcases hProg.outputs with ⟨fate, hOuts, hFate⟩
  have hFrees : FreesOutput before.toEntityStorage failedIds output :=
    ⟨tx, hTx, hFail, hReclaim, hSpends⟩
  rw [← (hFate output hOut).freed hOutside hFrees, hOuts]
  exact List.mem_map_of_mem hOut

end

/-
  The transactions that fail are those of the least closed
  set, in whatever order their requests are stored.
-/
theorem failPendingDescendants_closure
  (time : WriteTime) (terminalTxids failedTxids : List String) (before after : ProviderStorage)
  (hBefore : before.Consistent)
  (hRun : before.failPendingDescendants time terminalTxids = .ok (failedTxids, after)) :
  ClosureFailed time.now terminalTxids before failedTxids
    after := by
  rcases failPendingDescendants_eq_ok hBefore hRun with
    ⟨hTxids, ⟨failedIds, _, hAll, hProgress⟩, hReqs⟩
  have hSound :=
    @PassClosure.run_sound _ _ _ TableProvenTxReq.txid (fun req => sourceTxids req.rawTx)
      before.pendingReqs terminalTxids
  have hFails : ∀ tx ∈ before.transactions, tx.transactionId ∈ failedIds ↔
          failsWith failedTxids tx = true := by
    subst hTxids
    exact fun tx hTx => failRow_eq_failsWith hAll hProgress hTx
  constructor
  case least =>
    have hLeast :=
      @PassClosure.isLeast_run _ _ _ TableProvenTxReq.txid (fun req => sourceTxids req.rawTx)
        before.pendingReqs terminalTxids
    rw [hSound.reached_eq] at hLeast
    simp only [List.mem_append] at hLeast
    rw [hTxids]
    exact hLeast
  case fresh =>
    intro txid hTxid
    rw [hTxids] at hTxid
    rcases List.mem_map.mp hTxid with ⟨entry, hEntry, hEq⟩
    rw [← hEq]
    exact hSound.fresh entry hEntry
  case reqs =>
    rw [hTxids]
    exact reqs_of_progress hBefore hSound.listed hReqs
  case transactions =>
    rw [hProgress.transactions]
    apply List.map_congr_left
    intro tx hTx
    unfold failRow
    simp only [hFails tx hTx]
  case notSpendable =>
    intro tx hTx hFailed output hOutput hOwn
    exact (hProgress.failedHoldNone hBefore tx hTx hFailed output hOutput hOwn).1
  case released =>
    intro tx hTx hFailed hReclaim output hOutput hSpends hOutside
    exact hProgress.released hTx ((hFails tx hTx).mpr hFailed) hReclaim hOutput hSpends hOutside

-- A Descendant Found Before Its Second Failed Parent

def rawSpending (parents : List UInt8) : List UInt8 :=
  [1, 0, 0, 0, UInt8.ofNat parents.length] ++ parents.flatMap (fun parent =>
      List.replicate 32 parent ++ [0, 0, 0, 0, 0, 255, 255, 255, 255]) ++
    [0, 0, 0, 0, 0]

def repeatedTxid (byte : UInt8) : String :=
  String.ofList (toHex (List.replicate 32 byte))

def storedTransaction (id : Nat) (status : TransactionStatus) : TableTransaction where
  createdAt := 0
  updatedAt := 0
  transactionId := id
  userId := 1
  status := status
  reference := ""
  isOutgoing := true
  satoshis := 0
  txid := some (repeatedTxid (UInt8.ofNat id))

def storedOutput (id : Nat) (spendable : Bool) (spentBy : Option Nat) : TableOutput where
  createdAt := 0
  updatedAt := 0
  outputId := id
  userId := 1
  transactionId := id
  spendable := spendable
  change := true
  vout := 0
  satoshis := 1
  txid := some (repeatedTxid (UInt8.ofNat id))
  spentBy := spentBy

def pendingReq (id : Nat) (parents : List UInt8) : TableProvenTxReq where
  updatedAt := 0
  provenTxReqId := id
  txid := repeatedTxid (UInt8.ofNat id)
  status := .unmined
  rawTx := rawSpending parents
  notifyTransactionIds := some [id]

/-
  The first transaction has failed.  The second spends it, and the third spends both and the
  fourth.  The request of the third is stored first, so it is found first.
-/
def twoParents : ProviderStorage where
  outputs := [storedOutput 1 false none, storedOutput 2 false (some 3),
      storedOutput 3 true none, storedOutput 4 false (some 3)]
  transactions :=
    [storedTransaction 1 .failed, storedTransaction 2 .unproven, storedTransaction 3 .unproven,
      storedTransaction 4 .completed]
  reqs := [pendingReq 3 [1, 2, 4], pendingReq 2 [1]]

def completedDescendant : ProviderStorage where
  outputs := [storedOutput 1 false none, storedOutput 3 true none, storedOutput 4 false (some 3)]
  transactions :=
    [storedTransaction 1 .failed, storedTransaction 3 .completed, storedTransaction 4 .completed]
  reqs := [pendingReq 3 [1, 4]]

/- The rows of these storages agree, each by evaluation. -/
theorem notifiedAgree_of_singletons {storage : ProviderStorage}
  (hReqs : ∀ req ∈ storage.pendingReqs, req.notifyTransactionIds = some [req.provenTxReqId])
  (hIds : ∀ req ∈ storage.pendingReqs, ∀ tx ∈ storage.transactions,
        tx.transactionId = req.provenTxReqId ↔ tx.txid = some req.txid) :
  NotifiedAgree storage := by
  intro req hReq ids hNotify _ tx hTx
  rw [hReqs req hReq] at hNotify
  cases hNotify
  rw [mem_singleton]
  exact hIds req hReq tx hTx

theorem twoParents_consistent : twoParents.Consistent where
  outputIds := by decide
  transactionIds := by decide
  reqIds := by decide
  reqTxids := by decide +kernel
  outputsAgree := by
    unfold OutputsAgree
    decide +kernel
  failedHoldNone := by
    unfold FailedHoldNone
    decide +kernel
  notifiedAgree := by
    apply notifiedAgree_of_singletons
    · decide +kernel
    · decide +kernel

theorem completedDescendant_consistent : completedDescendant.Consistent where
  outputIds := by decide
  transactionIds := by decide
  reqIds := by decide
  reqTxids := by decide
  outputsAgree := by
    unfold OutputsAgree
    decide +kernel
  failedHoldNone := by
    unfold FailedHoldNone
    decide +kernel
  notifiedAgree := by
    apply notifiedAgree_of_singletons
    · decide +kernel
    · decide +kernel

theorem failPendingDescendants_closure_twoParents :
  ∃ after, twoParents.failPendingDescendants ⟨5, "t"⟩ [repeatedTxid 1] =
      .ok ([repeatedTxid 3, repeatedTxid 2], after) ∧
    ClosureFailed 5 [repeatedTxid 1] twoParents [repeatedTxid 3, repeatedTxid 2] after := by
  have hTxids : (twoParents.failPendingDescendants ⟨5, "t"⟩
        [repeatedTxid 1]).toOption.map Prod.fst = some [repeatedTxid 3, repeatedTxid 2] := by
    decide +kernel
  cases hRun : twoParents.failPendingDescendants ⟨5, "t"⟩ [repeatedTxid 1] with
  | error error =>
    rw [hRun] at hTxids
    cases hTxids
  | ok result =>
    rcases result with ⟨txids, after⟩
    rw [hRun] at hTxids
    cases hTxids
    exact ⟨after, rfl, failPendingDescendants_closure ⟨5, "t"⟩ _ _ _ _ twoParents_consistent hRun⟩

theorem not_released_completedDescendant :
  ¬∀ (time : WriteTime)
      (terminalTxids failedTxids : List String)
      (before after : ProviderStorage),
    before.Consistent → before.failPendingDescendants time terminalTxids =
          .ok (failedTxids, after) →
        ∀ tx ∈ before.transactions, (∃ txid ∈ failedTxids, tx.txid = some txid) →
            ∀ output ∈ before.outputs, EntityTransaction.spendsOutput tx output = true →
                OutsideOf (terminalTxids ++ failedTxids) output → ∃ next ∈ after.outputs,
                    next.outputId = output.outputId ∧ next.spendable = true := by
  intro hReleased
  have hOutputs : (completedDescendant.failPendingDescendants ⟨5, "t"⟩
        [repeatedTxid 1]).toOption.map (fun result =>
            (result.1, result.2.outputs.all fun output =>
              output.outputId != 4 || !output.spendable)) =
        some ([repeatedTxid 3], true) := by
    decide +kernel
  cases hRun : completedDescendant.failPendingDescendants ⟨5, "t"⟩ [repeatedTxid 1] with
  | error error =>
    rw [hRun] at hOutputs
    cases hOutputs
  | ok result =>
    rcases result with ⟨txids, after⟩
    rw [hRun] at hOutputs
    injection hOutputs with hPair
    injection hPair with hTxids hHeld
    dsimp only at hTxids hHeld
    subst hTxids
    rcases hReleased ⟨5, "t"⟩ _ _ _ _ completedDescendant_consistent hRun
        (storedTransaction 3 .completed) (by simp [completedDescendant])
        ⟨repeatedTxid 3, List.mem_singleton_self _, rfl⟩ (storedOutput 4 false (some 3))
        (by simp [completedDescendant])
        rfl
        (by unfold OutsideOf; decide +kernel) with
      ⟨next, hNext, hId, hSpendable⟩
    have hKept := List.all_eq_true.mp hHeld next hNext
    rw [hId, hSpendable] at hKept
    cases hKept

end TsStack.Wallet
