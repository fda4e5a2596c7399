import TsStack.Wallet.FailureFate

/-
  What the failure of each descendant does to the storage,
  from the storage there was before the first one failed.
-/

-- Failing One Transaction

open List

namespace TsStack.Wallet

def failRow (now : Int) (failedIds : List Nat) (tx : TableTransaction) : TableTransaction :=
  if tx.transactionId ∈ failedIds then { tx with status := .failed, updatedAt := now }
  else tx

@[simp] theorem failRow_transactionId (now : Int) (failedIds : List Nat) (tx : TableTransaction) :
  (failRow now failedIds tx).transactionId =
    tx.transactionId := by
  unfold failRow
  split
  · rfl
  · rfl

@[simp] theorem failRow_txid (now : Int) (failedIds : List Nat) (tx : TableTransaction) :
  (failRow now failedIds tx).txid = tx.txid := by
  unfold failRow
  split
  · rfl
  · rfl

theorem isReclaimOf_failRow (now : Int) (failedIds : List Nat) (tx target : TableTransaction) :
  EntityStorage.isReclaimOf tx (failRow now failedIds target) =
    EntityStorage.isReclaimOf tx target := by
  unfold failRow
  split
  · rfl
  · rfl

/-
  What the storage has become when the transactions of some ids have failed.  They were not
  settled, and their txids are among the doomed ones.
-/
structure Progress
  (before : EntityStorage) (closure doomed : List String) (now : Int) (failedIds : List Nat)
  (current : EntityStorage) : Prop where
  transactions : current.transactions = before.transactions.map (failRow now failedIds)
  failed : ∀ tx ∈ before.transactions, tx.transactionId ∈ failedIds →
        ProviderStorage.isSettled tx = false ∧ ∃ txid ∈ doomed, tx.txid = some txid
  outputs : ∃ fate : TableOutput → TableOutput,
      current.outputs = before.outputs.map fate ∧ ∀ output ∈ before.outputs,
          OutputFate before closure now failedIds output (fate output)

section

variable {before current : EntityStorage} {closure doomed : List String} {now : Int}
variable {failedIds : List Nat}

theorem progress_start : Progress before closure doomed now [] before where
  transactions := by
    unfold failRow
    simp
  failed := by simp
  outputs := ⟨id, (List.map_id _).symm, fun _output _ => outputFate_start⟩

section

variable (hProg : Progress before closure doomed now failedIds current)

include hProg

theorem Progress.outputIds :
  current.outputs.map (·.outputId) = before.outputs.map (·.outputId) := by
  rcases hProg.outputs with ⟨fate, hOuts, hFate⟩
  rw [hOuts, List.map_map]
  apply map_congr_left
  intro output hOut
  change (fate output).outputId = output.outputId
  rw [(hFate output hOut).same]

theorem Progress.isReclaim (tx : TableTransaction) :
  current.isReclaim tx = before.isReclaim tx := by
  unfold EntityStorage.isReclaim
  rw [hProg.transactions, List.any_map]
  congr 1
  funext target
  exact isReclaimOf_failRow now failedIds tx target

theorem Progress.row_of_find {row : TableTransaction}
  (hRow : row ∈ current.transactions) (hOpen : ProviderStorage.isSettled row = false) :
  row ∈ before.transactions ∧ row.transactionId ∉ failedIds := by
  rw [hProg.transactions] at hRow
  rcases List.mem_map.mp hRow with ⟨tx, hTx, hEq⟩
  have hFresh : tx.transactionId ∉ failedIds := by
    intro hFail
    rw [← hEq] at hOpen
    unfold failRow at hOpen
    rw [if_pos hFail] at hOpen
    simp [ProviderStorage.isSettled] at hOpen
  have hSame : failRow now failedIds tx = tx := if_neg hFresh
  rw [hSame] at hEq
  subst hEq
  exact ⟨hTx, hFresh⟩

end

theorem failRow_append (id : Nat) (tx : TableTransaction) : failRow now (failedIds ++ [id]) tx =
    if (failRow now failedIds tx).transactionId = id then
      { failRow now failedIds tx with
        status := .failed, updatedAt := now }
    else failRow now failedIds tx := by
  rw [failRow_transactionId]
  unfold failRow
  by_cases hOld : tx.transactionId ∈ failedIds
  · rw [if_pos (mem_append_left _ hOld), if_pos hOld]
    split
    · rfl
    · rfl
  · rw [if_neg hOld]
    by_cases hId : tx.transactionId = id
    · rw [if_pos hId, if_pos]
      rw [hId]
      exact mem_append_right _ (mem_singleton_self id)
    · rw [if_neg hId, if_neg]
      rw [mem_append, mem_singleton]
      exact not_or.mpr ⟨hOld, hId⟩

theorem Progress.updateTransactionStatus
  {after : EntityStorage} {tx : TableTransaction} {txid : String}
  (hProg : Progress before closure doomed now failedIds current)
  (hOutIds : (before.outputs.map (·.outputId)).Nodup)
  (hIds : (before.transactions.map (·.transactionId)).Nodup) (hAgree : OutputsAgree before)
  (hTx : tx ∈ before.transactions) (hFresh : tx.transactionId ∉ failedIds)
  (hOpen : ProviderStorage.isSettled tx = false) (hTxid : tx.txid = some txid)
  (hDoomed : txid ∈ doomed) (hClosure : txid ∈ closure) (hRun :
    current.updateTransactionStatus now .failed (some tx.transactionId) none none = .ok after) :
  Progress before closure doomed now (failedIds ++ [tx.transactionId]) after := by
  have hKeys : (current.outputs.map (·.outputId)).Nodup := by
    rw [hProg.outputIds]
    exact hOutIds
  rcases EntityStorage.updateTransactionStatus_failed_eq_ok hKeys hRun with
    ⟨row, isProtected, hFound, hProtect, hAfter⟩
  have hRow : row = tx := by
    have hMem : tx ∈ current.transactions := by
      rw [hProg.transactions]
      apply List.mem_map.mpr
      exact ⟨tx, hTx, if_neg hFresh⟩
    symm
    exact (filter_eq_singleton_only hFound).2 tx hMem (beq_self_eq_true _)
  subst hRow
  have hReclaim : isProtected = before.isReclaim row := by
    rw [EntityStorage.protect_eq_ok hProtect]
    exact hProg.isReclaim row
  subst hReclaim
  subst hAfter
  constructor
  case transactions =>
    dsimp only
    rw [hProg.transactions]
    unfold KeyedRows.update
    rw [List.map_map]
    apply map_congr_left
    intro other _
    exact (failRow_append row.transactionId other).symm
  case failed =>
    intro other hOther hFail
    rcases mem_concat_iff.mp hFail with hOld | hNew
    · exact hProg.failed other hOther hOld
    · have hSame : other = row :=
        inj_on_of_nodup_map hIds hOther hTx hNew
      subst hSame
      exact ⟨hOpen, txid, hDoomed, hTxid⟩
  case outputs =>
    rcases hProg.outputs with ⟨fate, hOuts, hFate⟩
    refine ⟨fun output => settleOutput now row (before.isReclaim row) (fate output), ?_, ?_⟩
    · dsimp only
      rw [hOuts, List.map_map]
      rfl
    · intro output hOut
      exact (hFate output hOut).settle hIds hAgree hOut hTx hTxid hClosure

end

-- Failing the Transactions of a Request

section

variable {before : ProviderStorage} {storage after : ProviderStorage} {closure doomed : List String}
variable {now : Int} {failedIds : List Nat}

def AllFailed (before : EntityStorage) (ids failedIds : List Nat) : Prop :=
  ∀ tx ∈ before.transactions, tx.transactionId ∈ ids →
    ProviderStorage.isSettled tx = false → tx.transactionId ∈ failedIds

/-
  The step from one storage to the next fails transactions of
  some ids, all of them that are open, and keeps the requests.
-/
structure FailsAll
  (before : ProviderStorage) (closure doomed : List String) (now : Int) (ids failedIds : List Nat)
  (storage after : ProviderStorage) : Prop where
  step : ∃ nextIds, failedIds ⊆ nextIds ∧ AllFailed before.toEntityStorage ids nextIds ∧
        Progress before.toEntityStorage closure doomed now nextIds after.toEntityStorage
  reqs : after.reqs = storage.reqs

def Notifies (before : EntityStorage) (txid : String) (id : Nat) : Prop :=
  ∀ tx ∈ before.transactions, tx.transactionId = id → tx.txid = some txid

section

variable
    (hPre : before.Consistent)
    (hProg : Progress before.toEntityStorage closure doomed now failedIds storage.toEntityStorage)

include hPre hProg

theorem Progress.failTransaction {id : Nat} {txid : String}
  (hNotifies : Notifies before.toEntityStorage txid id) (hDoomed : txid ∈ doomed)
  (hClosure : txid ∈ closure) (hRun : ProviderStorage.failTransaction now storage id = .ok after) :
  FailsAll before closure doomed now [id] failedIds storage after := by
  have hRowOf : ∀ tx ∈ before.transactions, tx.transactionId = id →
        failRow now failedIds tx ∈ storage.transactions.filter (·.transactionId == id) := by
    intro tx hTx hId
    apply mem_filter.mpr
    constructor
    · rw [hProg.transactions]
      exact List.mem_map_of_mem hTx
    · simp [hId]
  unfold ProviderStorage.failTransaction at hRun
  cases hFind : (storage.findTransactions (·.transactionId == id)).head? with
  | none =>
    rw [hFind] at hRun
    cases hRun
    constructor
    case reqs => rfl
    case step =>
      refine ⟨failedIds, fun _ hId => hId, ?_, hProg⟩
      intro tx hTx hId _
      have hRow := hRowOf tx hTx (mem_singleton.mp hId)
      unfold EntityStorage.findTransactions at hFind
      rw [head?_eq_none_iff.mp hFind] at hRow
      cases hRow
  | some row =>
    rw [hFind] at hRun
    dsimp only at hRun
    have hRow := mem_of_mem_head? hFind
    unfold EntityStorage.findTransactions at hRow
    rcases mem_filter.mp hRow with ⟨hRow, hRowId⟩
    have hRowId : row.transactionId = id := beq_iff_eq.mp hRowId
    by_cases hSettle : ProviderStorage.isSettled row = true
    · rw [if_pos hSettle] at hRun
      cases hRun
      constructor
      case reqs => rfl
      case step =>
        refine ⟨failedIds, fun _ hId => hId, ?_, hProg⟩
        intro tx hTx hId hOpen
        by_cases hFail : tx.transactionId ∈ failedIds
        · exact hFail
        · have hTxRow : tx ∈ storage.transactions := by
            rw [hProg.transactions]
            apply List.mem_map.mpr
            exact ⟨tx, hTx, if_neg hFail⟩
          have hIds : (storage.transactions.map (·.transactionId)).Nodup := by
            rw [hProg.transactions, List.map_map]
            simpa only [Function.comp_def, failRow_transactionId] using hPre.transactionIds
          have hSame : tx = row := by
            apply inj_on_of_nodup_map hIds hTxRow hRow
            rw [hRowId]
            exact mem_singleton.mp hId
          rw [hSame, hSettle] at hOpen
          cases hOpen
    · rw [if_neg hSettle] at hRun
      have hOpen : ProviderStorage.isSettled row = false := Bool.eq_false_iff.mpr hSettle
      rcases hProg.row_of_find hRow hOpen with ⟨hTx, hFresh⟩
      cases hUpd :
        storage.toEntityStorage.updateTransactionStatus now .failed (some id) none none with
      | error error =>
        rw [hUpd] at hRun
        cases hRun
      | ok entities =>
        rw [hUpd] at hRun
        cases hRun
        rw [← hRowId] at hUpd
        constructor
        case reqs => rfl
        case step =>
          refine ⟨failedIds ++ [row.transactionId], fun _ hId => mem_append_left _ hId, ?_, ?_⟩
          · intro tx _ hId _
            rw [mem_singleton.mp hId, hRowId]
            exact mem_append_right _ (mem_singleton_self id)
          · exact hProg.updateTransactionStatus hPre.outputIds hPre.transactionIds
              hPre.outputsAgree hTx hFresh hOpen (hNotifies row hTx hRowId) hDoomed hClosure
              hUpd

theorem Progress.failTransactions {ids : List Nat} {txid : String}
  (hNotifies : ∀ id ∈ ids, Notifies before.toEntityStorage txid id) (hDoomed : txid ∈ doomed)
  (hClosure : txid ∈ closure)
  (hRun : ids.foldlM (ProviderStorage.failTransaction now) storage = .ok after) :
  FailsAll before closure doomed now ids failedIds storage after := by
  induction ids generalizing storage failedIds with
  | nil =>
    cases hRun
    constructor
    case reqs => rfl
    case step =>
      refine ⟨failedIds, fun _ hId => hId, ?_, hProg⟩
      intro tx _ hNone
      cases hNone
  | cons id ids ih =>
    rw [foldlM_cons] at hRun
    rcases bind_eq_ok_iff.mp hRun with ⟨next, hNext, hRest⟩
    rcases hProg.failTransaction hPre (hNotifies id mem_cons_self) hDoomed hClosure
        hNext with
      ⟨⟨nextIds, hSubset, hHead, hNextProg⟩, hReqs⟩
    rcases ih hNextProg (fun other hOther => hNotifies other (mem_cons_of_mem id hOther))
        hRest with
      ⟨⟨lastIds, hLastSubset, hTail, hLast⟩, hLastReqs⟩
    constructor
    case reqs => rw [hLastReqs, hReqs]
    case step =>
      refine ⟨lastIds, fun other hOther => hLastSubset (hSubset hOther), ?_, hLast⟩
      intro tx hTx hId hOpen
      rcases mem_cons.mp hId with hFst | hOther
      · apply hLastSubset
        apply hHead tx hTx _ hOpen
        rw [hFst]
        exact mem_singleton_self id
      · exact hTail tx hTx hOther hOpen

end

end

section

variable {before : ProviderStorage} {storage after : ProviderStorage} {closure doomed : List String}
variable {now : Int} {failedIds : List Nat} {req : TableProvenTxReq}

theorem findLocalInputs_eq_ok {localInputs : List (TableOutput × Outpoint)}
  (hRun : storage.findLocalInputs req = .ok localInputs) {entry : TableOutput × Outpoint}
  (hEntry : entry ∈ localInputs) :
  entry.1 ∈ storage.outputs ∧ entry.1.txid = some entry.2.txid := by
  unfold ProviderStorage.findLocalInputs at hRun
  rcases bind_eq_ok_iff.mp hRun with ⟨outpoints, _, hEq⟩
  cases hEq
  rcases mem_flatMap.mp hEntry with ⟨userId, _, hIn⟩
  rcases mem_filterMap.mp hIn with ⟨outpoint, _, hFound⟩
  rcases Option.map_eq_some_iff.mp hFound with ⟨output, hOut, hPair⟩
  subst hPair
  unfold ProviderStorage.findOutputByOutpoint at hOut
  have hMem := mem_of_getLast? hOut
  unfold EntityStorage.findOutputs at hMem
  rcases mem_filter.mp hMem with ⟨hIn, hMatch⟩
  simp only [Bool.and_eq_true, beq_iff_eq] at hMatch
  exact ⟨hIn, hMatch.1.2⟩

theorem Progress.quarantine {parentTxids : List String} (hPre : before.Consistent) (hProg :
    Progress before.toEntityStorage closure doomed now failedIds storage.toEntityStorage)
  (hParents : ∀ txid ∈ parentTxids, txid ∈ closure)
  (hRun : storage.quarantineReqInputsFromFailedParents now req parentTxids = .ok after) :
  Progress before.toEntityStorage closure doomed now failedIds after.toEntityStorage ∧
    after.reqs = storage.reqs := by
  unfold ProviderStorage.quarantineReqInputsFromFailedParents at hRun
  rcases bind_eq_ok_iff.mp hRun with ⟨localInputs, hInputs, hRun⟩
  unfold ProviderStorage.quarantineLocalInputs at hRun
  rcases bind_eq_ok_iff.mp hRun with ⟨entities, hEntities, hRun⟩
  have hOuts := EntityStorage.updateOutputs_eq_ok hEntities
  rw [KeyedRows.updateEach_eq_map _ (TableOutput.quarantine_outputId now) (fun _ => rfl)]
    at hOuts
  cases hRun
  refine ⟨?_, rfl⟩
  change Progress before.toEntityStorage closure doomed now failedIds entities
  subst hOuts
  have hKeys : (storage.outputs.map (·.outputId)).Nodup := by
    rw [hProg.outputIds]
    exact hPre.outputIds
  constructor
  case transactions => exact hProg.transactions
  case failed => exact hProg.failed
  case outputs =>
    rcases hProg.outputs with ⟨fate, hFates, hFate⟩
    dsimp only
    generalize hIds :
      ((localInputs.filter fun entry =>
        parentTxids.contains entry.2.txid).map fun entry => entry.1.outputId) = ids
    refine ⟨fun output =>
      if (fate output).outputId ∈ ids then (fate output).quarantine now
      else fate output, ?_, ?_⟩
    · rw [hFates, List.map_map]
      rfl
    · intro output hOut
      apply (hFate output hOut).quarantine
      intro hMem hOutside
      rw [← hIds] at hMem
      rcases List.mem_map.mp hMem with ⟨entry, hEntry, hId⟩
      rcases mem_filter.mp hEntry with ⟨hLocal, hParent⟩
      rcases findLocalInputs_eq_ok hInputs hLocal with ⟨hStore, hTxid⟩
      have hNext : fate output ∈ storage.outputs := by
        rw [hFates]
        exact List.mem_map_of_mem hOut
      have hSame : entry.1 = fate output := inj_on_of_nodup_map hKeys hStore hNext hId
      apply hOutside entry.2.txid
      · exact hParents _ (contains_iff_mem.mp hParent)
      · rw [← hTxid, hSame, (hFate output hOut).same]

end

-- Failing One Descendant

theorem invalidate_status (time : WriteTime) (parentTxids : List String) (req : TableProvenTxReq) :
  (EntityProvenTxReq.invalidate time parentTxids req).status = .invalid := by
  have hAdd : ∀ (req : TableProvenTxReq) (note : ReqHistoryNote),
        (EntityProvenTxReq.addHistoryNote req note).status =
          req.status := by
    intro req note
    unfold EntityProvenTxReq.addHistoryNote
    split
    · rfl
    · rfl
  unfold EntityProvenTxReq.invalidate
  dsimp only
  rw [hAdd]
  unfold EntityProvenTxReq.setStatus
  split
  · rfl
  · rename_i hSame
    exact (not_not.mp hSame).symm

theorem invalidate_keys (time : WriteTime) (parentTxids : List String) (req : TableProvenTxReq) :
  (EntityProvenTxReq.invalidate time parentTxids req).provenTxReqId = req.provenTxReqId ∧
    (EntityProvenTxReq.invalidate time parentTxids req).txid = req.txid := by
  have hAdd : ∀ (req : TableProvenTxReq) (note : ReqHistoryNote),
        (EntityProvenTxReq.addHistoryNote req note).provenTxReqId = req.provenTxReqId ∧
          (EntityProvenTxReq.addHistoryNote req note).txid = req.txid := by
    intro req note
    unfold EntityProvenTxReq.addHistoryNote
    split
    · exact ⟨rfl, rfl⟩
    · exact ⟨rfl, rfl⟩
  unfold EntityProvenTxReq.invalidate
  dsimp only
  rw [(hAdd _ _).1, (hAdd _ _).2]
  unfold EntityProvenTxReq.setStatus
  split
  · dsimp only
    rw [(hAdd _ _).1, (hAdd _ _).2]
    exact ⟨rfl, rfl⟩
  · exact ⟨rfl, rfl⟩

structure ReqProgress (before : List TableProvenTxReq) (invalidIds : List Nat)
  (current : List TableProvenTxReq) : Prop where
  rows :
    ∃ change : TableProvenTxReq → TableProvenTxReq, current = before.map change ∧ ∀ req ∈ before,
          (change req).provenTxReqId = req.provenTxReqId ∧ (change req).txid = req.txid ∧
            (req.provenTxReqId ∈ invalidIds → (change req).status = .invalid) ∧
            (req.provenTxReqId ∉ invalidIds → change req = req)

theorem reqProgress_start (before : List TableProvenTxReq) : ReqProgress before [] before where
  rows := ⟨id, (List.map_id _).symm, by simp⟩

theorem ReqProgress.invalidate
  {before current : List TableProvenTxReq} {invalidIds : List Nat} (time : WriteTime)
  (parentTxids : List String) (id : Nat) (hProg : ReqProgress before invalidIds current) :
  ReqProgress before (invalidIds ++ [id]) (KeyedRows.update TableProvenTxReq.provenTxReqId id
      (EntityProvenTxReq.invalidate time parentTxids) current) := by
  rcases hProg.rows with ⟨change, hCur, hChange⟩
  constructor
  refine ⟨fun req =>
    if (change req).provenTxReqId = id then
      EntityProvenTxReq.invalidate time parentTxids (change req)
    else change req, ?_, ?_⟩
  · unfold KeyedRows.update
    rw [hCur, List.map_map]
    rfl
  · intro req hReq
    rcases hChange req hReq with ⟨hId, hTxid, hInvalid, hKept⟩
    dsimp only
    rw [hId]
    by_cases hEq : req.provenTxReqId = id
    · rw [if_pos hEq]
      have hKeys := invalidate_keys time parentTxids (change req)
      constructor
      · rw [hKeys.1, hId]
      · constructor
        · rw [hKeys.2, hTxid]
        · constructor
          · intro _
            exact invalidate_status time parentTxids _
          · intro hOut
            exfalso
            apply hOut
            rw [hEq]
            exact mem_append_right _ (mem_singleton_self id)
    · rw [if_neg hEq]
      refine ⟨hId, hTxid, ?_, ?_⟩
      · intro hMem
        apply hInvalid
        rcases mem_concat_iff.mp hMem with hOld | hNew
        · exact hOld
        · exact absurd hNew hEq
      · intro hOut
        apply hKept
        intro hOld
        exact hOut (mem_append_left _ hOld)

-- Failing Every Descendant

section

variable {before : ProviderStorage} {storage after : ProviderStorage} {closure doomed : List String}
variable {time : WriteTime} {failedIds invalidIds : List Nat}

theorem mem_notifiedIds_iff {req : TableProvenTxReq} (hPre : before.Consistent)
  (hTxs : storage.transactions = before.transactions.map (failRow time.now failedIds))
  (hReq : req ∈ before.pendingReqs) {tx : TableTransaction} (hTx : tx ∈ before.transactions) :
  tx.transactionId ∈ storage.notifiedIds req ↔ tx.txid = some req.txid := by
  unfold ProviderStorage.notifiedIds
  dsimp only
  by_cases hNone : (req.notifyTransactionIds.getD []).eraseDups.length = 0
  · rw [if_pos hNone]
    unfold EntityStorage.findTransactions
    rw [hTxs]
    constructor
    · intro hMem
      rcases List.mem_map.mp hMem with ⟨row, hRow, hId⟩
      rcases mem_filter.mp hRow with ⟨hRow, hTxid⟩
      rcases List.mem_map.mp hRow with ⟨other, hOther, hEq⟩
      subst hEq
      rw [failRow_transactionId] at hId
      have hSame : other = tx := inj_on_of_nodup_map hPre.transactionIds hOther hTx hId
      rw [failRow_txid, hSame] at hTxid
      exact beq_iff_eq.mp hTxid
    · intro hTxid
      apply List.mem_map.mpr
      refine ⟨failRow time.now failedIds tx, ?_, ?_⟩
      · apply mem_filter.mpr
        constructor
        · exact List.mem_map_of_mem hTx
        · simp [hTxid]
      · exact failRow_transactionId time.now failedIds tx
  · rw [if_neg hNone, mem_eraseDups]
    cases hIds : req.notifyTransactionIds with
    | none =>
      rw [hIds] at hNone
      exact absurd rfl hNone
    | some ids =>
      have hNonempty : ids ≠ [] := by
        intro hEmpty
        rw [hIds, hEmpty] at hNone
        exact hNone rfl
      exact hPre.notifiedAgree req hReq ids hIds hNonempty tx hTx

/-
  A descendant is a pending request with a doomed txid, and its failed parents are in the closure.
-/
structure DoomedRequest (before : ProviderStorage) (closure doomed : List String)
  (descendant : TableProvenTxReq × List String) : Prop where
  pending : descendant.1 ∈ before.pendingReqs
  txid : descendant.1.txid ∈ doomed
  parents : ∀ txid ∈ descendant.2, txid ∈ closure

/-
  What failing some descendants has done: their requests are
  invalid, and their open transactions have failed.
-/
structure FailsDescendants (before : ProviderStorage) (closure doomed : List String) (now : Int)
  (descendants : List (TableProvenTxReq × List String)) (failedIds invalidIds : List Nat)
  (after : ProviderStorage) : Prop where
  entities : ∃ nextIds, failedIds ⊆ nextIds ∧ (∀ descendant ∈ descendants,
          ∀ tx ∈ before.transactions, tx.txid = some descendant.1.txid →
              ProviderStorage.isSettled tx = false → tx.transactionId ∈ nextIds) ∧
        Progress before.toEntityStorage closure doomed now nextIds after.toEntityStorage
  reqs : ReqProgress before.reqs (invalidIds ++ descendants.map fun entry => entry.1.provenTxReqId)
      after.reqs

section

variable
    (hPre : before.Consistent)
    (hSubset : ∀ txid ∈ doomed, txid ∈ closure)
    (hProg : Progress before.toEntityStorage closure doomed time.now failedIds storage.toEntityStorage)
    (hReqs : ReqProgress before.reqs invalidIds storage.reqs)

include hPre hSubset hProg hReqs

theorem Progress.failDescendant {descendant : TableProvenTxReq × List String}
  (hDesc : DoomedRequest before closure doomed descendant)
  (hRun : ProviderStorage.failDescendant time storage descendant = .ok after) :
  FailsDescendants before closure doomed time.now [descendant] failedIds invalidIds after := by
  unfold ProviderStorage.failDescendant at hRun
  dsimp only at hRun
  rcases bind_eq_ok_iff.mp hRun with ⟨failed, hFail, hQuarantine⟩
  have hInvalid : Progress before.toEntityStorage closure doomed time.now failedIds
    (storage.updateProvenTxReq descendant.1.provenTxReqId (EntityProvenTxReq.invalidate time
      descendant.2)).toEntityStorage := hProg
  have hIds : ∀ tx ∈ before.transactions, tx.transactionId ∈
            (storage.updateProvenTxReq descendant.1.provenTxReqId
              (EntityProvenTxReq.invalidate time descendant.2)).notifiedIds descendant.1 ↔
          tx.txid = some descendant.1.txid :=
    fun tx hTx => mem_notifiedIds_iff hPre hInvalid.transactions hDesc.pending hTx
  rcases hInvalid.failTransactions hPre (fun id hId tx hTx hEq => (hIds tx hTx).mp (hEq ▸ hId))
      hDesc.txid
      (hSubset _ hDesc.txid) hFail with
    ⟨⟨nextIds, hMore, hAll, hNext⟩, hFailReqs⟩
  rcases hNext.quarantine hPre hDesc.parents hQuarantine with ⟨hAfter, hAfterReqs⟩
  constructor
  case entities =>
    refine ⟨nextIds, hMore, ?_, hAfter⟩
    intro entry hEntry tx hTx hTxid hOpen
    rw [mem_singleton.mp hEntry] at hTxid
    exact hAll tx hTx ((hIds tx hTx).mpr hTxid) hOpen
  case reqs =>
    rw [hAfterReqs, hFailReqs]
    exact hReqs.invalidate time descendant.2 descendant.1.provenTxReqId

theorem Progress.failDescendants {descendants : List (TableProvenTxReq × List String)}
  (hDescendants : ∀ descendant ∈ descendants, DoomedRequest before closure doomed descendant)
  (hRun : descendants.foldlM (ProviderStorage.failDescendant time) storage = .ok after) :
  FailsDescendants before closure doomed time.now descendants failedIds invalidIds after := by
  induction descendants generalizing storage failedIds invalidIds with
  | nil =>
    cases hRun
    constructor
    case entities =>
      refine ⟨failedIds, fun _ hId => hId, ?_, hProg⟩
      intro descendant hNone
      cases hNone
    case reqs =>
      rw [map_nil, append_nil]
      exact hReqs
  | cons descendant descendants ih =>
    rw [foldlM_cons] at hRun
    rcases bind_eq_ok_iff.mp hRun with ⟨next, hNext, hRest⟩
    rcases hProg.failDescendant hPre hSubset hReqs
        (hDescendants descendant mem_cons_self) hNext with
      ⟨⟨nextIds, hMore, hHead, hNextProg⟩, hNextReqs⟩
    rcases ih hNextProg hNextReqs (fun other hOther => hDescendants other
          (mem_cons_of_mem descendant hOther))
        hRest with
      ⟨⟨lastIds, hLastMore, hTail, hLast⟩, hLastReqs⟩
    constructor
    case entities =>
      refine ⟨lastIds, fun id hId => hLastMore (hMore hId), ?_, hLast⟩
      intro entry hEntry tx hTx hTxid hOpen
      rcases mem_cons.mp hEntry with hFst | hOther
      · apply hLastMore
        rw [hFst] at hTxid
        exact hHead descendant (mem_singleton_self descendant) tx hTx hTxid hOpen
      · exact hTail entry hOther tx hTx hTxid hOpen
    case reqs =>
      rw [map_cons]
      rw [append_assoc] at hLastReqs
      exact hLastReqs

end

end

end TsStack.Wallet
