import TsStack.Primitives.Hex
import TsStack.Wallet.EntityMerge

/-
  What a merge leaves in the target's copy of a row whose
  source copy is strictly newer, and that a second merge of
  the same source row changes nothing.
-/

-- Lookups

namespace TsStack.Wallet

open KeyedRows

variable {syncMap : SyncMap}

theorem mappedBasketId_eq_ok
  {basketId mapped : Option Nat} (hMapped : mappedBasketId basketId syncMap = .ok mapped) :
  mapped = mapTruthyId (syncMap .outputBasket).idMap
      basketId := by
  unfold mappedBasketId at hMapped
  cases basketId with
  | none =>
    cases hMapped
    rfl
  | some id =>
    rcases bind_eq_ok_iff.mp hMapped with ⟨verified, hVerif, hMapped⟩
    rcases (verifyId_eq_ok_iff _ _).mp hVerif with ⟨hId, hPos⟩
    cases hId
    rcases bind_eq_ok_iff.mp hMapped with ⟨target, hTgt, hMapped⟩
    rcases (verifyId_eq_ok_iff _ _).mp hTgt with ⟨hTgt, -⟩
    cases hMapped
    cases id with
    | zero => omega
    | succ id => exact hTgt.symm

-- Found Copies

variable
    {storage : EntityStorage} {userId : Nat}

theorem EntityOutput.mergeFind_found {eiId : Nat} {ei eo : TableOutput}
  (hFind : mergeFind storage userId ei syncMap = .ok ⟨true, eo, eiId⟩) :
  ∃ transactionId, (syncMap .transaction).idMap ei.transactionId = some transactionId ∧
      storage.outputs.filter (isCopy userId transactionId ei.vout) = [eo] ∧
      eiId = ei.outputId ∧ 1 ≤ ei.outputId := by
  unfold mergeFind at hFind
  cases hMap : (syncMap .transaction).idMap ei.transactionId with
  | none =>
    rw [hMap] at hFind
    cases hFind
  | some transactionId =>
    rw [hMap] at hFind
    rcases bind_eq_ok_iff.mp hFind with ⟨ef, hEf, hFind⟩
    rcases bind_eq_ok_iff.mp hFind with ⟨id, hId, hFind⟩
    rcases (verifyId_eq_ok_iff _ _).mp hId with ⟨hId, hPos⟩
    cases hId
    have hFilter := (verifyOneOrNone_eq_ok_iff _ _).mp hEf
    cases ef with
    | none => cases hFind
    | some row =>
      cases hFind
      exact ⟨transactionId, rfl, hFilter, rfl, hPos⟩

theorem EntityOutput.mergeFind_of_filter {transactionId : Nat} {ei eo : TableOutput}
  (hMap : (syncMap .transaction).idMap ei.transactionId = some transactionId)
  (hFilter : storage.outputs.filter (isCopy userId transactionId ei.vout) = [eo])
  (hPos : 1 ≤ ei.outputId) : mergeFind storage userId ei syncMap = .ok ⟨true, eo, ei.outputId⟩ := by
  have hOne :
      verifyOneOrNone (storage.findOutputs (isCopy userId transactionId ei.vout)) = .ok (some eo) :=
    (verifyOneOrNone_eq_ok_iff _ _).mpr hFilter
  unfold mergeFind
  rw [hMap]
  dsimp only
  rw [hOne, verifyId_some hPos]
  rfl

variable {ei eo : TableTransaction}

theorem EntityTransaction.mergeFind_found
  {eiId : Nat} (hFind : mergeFind storage userId ei syncMap = .ok ⟨true, eo, eiId⟩) :
  (eiId = ei.transactionId ∧ 1 ≤ ei.transactionId) ∧
    (findByTxid storage userId ei = .ok (some eo) ∨ (findByTxid storage userId ei = .ok none ∧
        findByReference storage userId ei = .ok (some eo))) := by
  unfold mergeFind at hFind
  rcases bind_eq_ok_iff.mp hFind with ⟨byTxid, hTxid, hFind⟩
  rcases bind_eq_ok_iff.mp hFind with ⟨ef, hEf, hFind⟩
  rcases bind_eq_ok_iff.mp hFind with ⟨id, hId, hFind⟩
  rcases (verifyId_eq_ok_iff _ _).mp hId with ⟨hId, hPos⟩
  cases hId
  cases ef with
  | none => cases hFind
  | some row =>
    cases hFind
    refine ⟨⟨rfl, hPos⟩, ?_⟩
    cases byTxid with
    | none => exact .inr ⟨hTxid, hEf⟩
    | some byTxid =>
      cases hEf
      exact .inl hTxid

theorem EntityTransaction.mergeFind_of_findByTxid
  (hTxid : findByTxid storage userId ei = .ok (some eo)) (hPos : 1 ≤ ei.transactionId) :
  mergeFind storage userId ei syncMap = .ok ⟨true, eo, ei.transactionId⟩ := by
  unfold mergeFind
  rw [hTxid, verifyId_some hPos]
  rfl

theorem EntityTransaction.mergeFind_of_findByReference
  (hTxid : findByTxid storage userId ei = .ok none)
  (hRef : findByReference storage userId ei = .ok (some eo)) (hPos : 1 ≤ ei.transactionId) :
  mergeFind storage userId ei syncMap = .ok ⟨true, eo, ei.transactionId⟩ := by
  unfold mergeFind
  rw [hTxid, hRef, verifyId_some hPos]
  rfl

-- Merges into a Found Copy

def SyncMap.SameIds (first second : SyncMap) : Prop :=
  ∀ name, (first name).idMap = (second name).idMap

namespace MergeEntity

variable {API : Type}

theorem seeUpdatedAt_sameIds (merger : MergeEntity API) (syncMap : SyncMap) (ei : API) :
  (merger.seeUpdatedAt syncMap ei).SameIds syncMap := by
  intro name
  unfold seeUpdatedAt SyncMap.set
  by_cases hName : name = merger.name
  · subst hName
    simp
  · simp [hName]

theorem updateSyncMap_eq_ok
  (map : Nat → Option Nat) {inId outId : Nat} (hIn : 1 ≤ inId) (hOut : 1 ≤ outId)
  (hMap : ∀ current, map inId = some current → current = outId) :
  updateSyncMap map inId outId = .ok fun id => if id = inId then some outId else map id := by
  unfold updateSyncMap
  rw [verifyId_some hIn, verifyId_some hOut]
  cases hCur : map inId with
  | none =>
    dsimp only [bind, Except.bind]
    rw [hCur]
    rfl
  | some current =>
    dsimp only [bind, Except.bind]
    rw [hCur]
    dsimp only
    rw [if_neg (not_not.mpr (hMap current hCur))]
    apply congrArg Except.ok
    funext id
    by_cases hId : id = inId
    · rw [if_pos hId, hId, hCur, hMap current hCur]
    · rw [if_neg hId]

structure MapsTo (before after : SyncMap) (name : EntityName) (inId outId : Nat) : Prop where
  others : ∀ other, other ≠ name → (after other).idMap = (before other).idMap
  mapped : (after name).idMap =
      fun id =>
        if id = inId then some outId
        else (before name).idMap id

theorem MapsTo.self {before after : SyncMap} {name : EntityName} {inId outId : Nat}
  (hMaps : MapsTo before after name inId outId) : (after name).idMap inId = some outId := by
  rw [hMaps.mapped]
  exact if_pos rfl

theorem mergeOne_found
  (merger : MergeEntity API) {userId eiId : Nat} {state : MergeState} {ei eo row : API}
  {wasMerged : Bool} {storage : EntityStorage}
  (hFind : merger.find state.storage userId ei (merger.seeUpdatedAt state.syncMap ei) =
      .ok ⟨true, eo, eiId⟩)
  (hMerge : merger.mergeExisting eo state.storage ei (merger.seeUpdatedAt state.syncMap ei) =
      .ok (wasMerged, row, storage))
  (hIn : 1 ≤ eiId) (hOut : 1 ≤ merger.id row) (hMap :
    ∀ current, (state.syncMap merger.name).idMap eiId = some current → current = merger.id row) :
  ∃ state', merger.mergeOne userId state ei = .ok state' ∧ state'.storage = storage ∧
      MapsTo state.syncMap state'.syncMap merger.name eiId (merger.id row) := by
  have hSame := merger.seeUpdatedAt_sameIds state.syncMap ei
  have hUpd :=
    updateSyncMap_eq_ok (merger.seeUpdatedAt state.syncMap ei merger.name).idMap hIn hOut (by
      rw [hSame merger.name]
      exact hMap)
  let syncMap := merger.seeUpdatedAt state.syncMap ei
  let idMap := fun id =>
    if id = eiId then some (merger.id row)
    else (syncMap merger.name).idMap id
  refine ⟨⟨storage, syncMap.set merger.name { syncMap merger.name with idMap := idMap },
    state.inserts,
    if wasMerged then state.updates + 1
      else state.updates⟩, ?_, rfl, ?_, ?_⟩
  · unfold mergeOne
    dsimp only
    rw [hFind]
    dsimp only [bind, Except.bind, if_true]
    unfold mergeFoundCopy
    rw [hMerge]
    dsimp only [bind, Except.bind, pure, Except.pure]
    rw [hUpd]
    exact if_pos rfl
  · intro other hOther
    dsimp only [SyncMap.set]
    rw [if_neg hOther]
    exact hSame other
  · dsimp only [SyncMap.set]
    rw [if_pos rfl]
    funext id
    dsimp only [idMap, syncMap]
    rw [hSame merger.name]

end MergeEntity

-- Outputs

def UnresolvedReclaim (storage : EntityStorage) (userId : Nat) (txid : Option String) : Prop :=
  txid ≠ none ∧ ∃ t ∈ storage.transactions, isReclaimedBy userId txid t = true ∧
        t.noSendExpiryState ≠ some .reclaimed

def ReclaimUnique (storage : EntityStorage) (userId : Nat) (txid : Option String) : Prop :=
  txid ≠ none → (storage.findTransactions (isReclaimedBy userId txid)).length ≤ 1

theorem verifyOneOrNone_of_length {α : Type} {results : List α} (hLen : results.length ≤ 1) :
  ∃ result, verifyOneOrNone results = .ok result ∧ results = result.toList := by
  refine ⟨results.head?, if_neg (by omega), ?_⟩
  cases results with
  | nil => rfl
  | cons first rest =>
    cases rest with
    | nil => rfl
    | cons second rest =>
      simp only [List.length_cons] at hLen
      omega

theorem quarantine_eq_ok (output : TableOutput) (storage : EntityStorage)
  (hUnique : output.spendable = true → ReclaimUnique storage output.userId output.txid) :
  ∃ spendable, quarantineUnresolvedBrc177Reclaim output storage =
        .ok { output with spendable := spendable } ∧
      (spendable = true ↔ output.spendable = true ∧ ¬UnresolvedReclaim storage output.userId
            output.txid) := by
  unfold quarantineUnresolvedBrc177Reclaim
  by_cases hSkip : ¬output.spendable ∨ output.txid = none
  · rw [if_pos hSkip]
    refine ⟨output.spendable, rfl, ?_⟩
    rcases hSkip with hSpendable | hTxid
    · simp [hSpendable]
    · simp [UnresolvedReclaim, hTxid]
  · rw [if_neg hSkip]
    push Not at hSkip
    rcases hSkip with ⟨hSpendable, hTxid⟩
    rcases verifyOneOrNone_of_length (hUnique hSpendable hTxid) with ⟨target, hTgt, hFound⟩
    rw [hTgt]
    have hUnresolved : UnresolvedReclaim storage output.userId output.txid ↔
          ∃ t ∈ target.toList, t.noSendExpiryState ≠ some .reclaimed := by
      rw [← hFound]
      unfold UnresolvedReclaim
      unfold EntityStorage.findTransactions
      simp only [List.mem_filter, ne_eq, hTxid, not_false_eq_true, true_and, and_assoc]
    cases target with
    | none =>
      refine ⟨output.spendable, rfl, ?_⟩
      simp [hUnresolved]
    | some t =>
      dsimp only [bind, Except.bind]
      by_cases hState : t.noSendExpiryState ≠ some .reclaimed
      · rw [if_pos hState]
        refine ⟨false, rfl, ?_⟩
        simp [hUnresolved, hState]
      · rw [if_neg hState]
        refine ⟨output.spendable, rfl, ?_⟩
        simp [hUnresolved, hState]

namespace EntityOutput

structure Carried (row ei : TableOutput) (syncMap : SyncMap) : Prop where
  basketId : row.basketId = mapTruthyId (syncMap .outputBasket).idMap ei.basketId
  spentBy : row.spentBy = mapIdOrUndefined (syncMap .transaction).idMap ei.spentBy
  change : row.change = ei.change
  type : row.type = ei.type
  providedBy : row.providedBy = ei.providedBy
  purpose : row.purpose = ei.purpose
  outputDescription : row.outputDescription = ei.outputDescription
  spendingDescription : row.spendingDescription = ei.spendingDescription
  senderIdentityKey : row.senderIdentityKey = ei.senderIdentityKey
  customInstructions : row.customInstructions = ei.customInstructions
  scriptLength : row.scriptLength = ei.scriptLength
  scriptOffset : row.scriptOffset = ei.scriptOffset
  lockingScript : row.lockingScript = ei.lockingScript
  updatedAt : row.updatedAt = ei.updatedAt

/- The fields `mergeExisting` leaves agree beforehand. -/
structure AgreeOnRest (eo ei : TableOutput) : Prop where
  satoshis : eo.satoshis = ei.satoshis
  txid : eo.txid = ei.txid
  derivationPrefix : eo.derivationPrefix = ei.derivationPrefix
  derivationSuffix : eo.derivationSuffix = ei.derivationSuffix
  spentBy_pos : ei.spentBy ≠ some 0

structure Mergeable (state : MergeState) (userId : Nat) (ei eo : TableOutput) : Prop where
  keys : (state.storage.outputs.map TableOutput.outputId).Nodup
  found : mergeFind state.storage userId ei state.syncMap = .ok ⟨true, eo, ei.outputId⟩
  id_pos : 1 ≤ eo.outputId
  idMap :
    ∀ current, (state.syncMap .output).idMap ei.outputId = some current → current = eo.outputId
  basket : ∃ mapped, mappedBasketId ei.basketId state.syncMap = .ok mapped
  reclaim : ei.spendable = true → ReclaimUnique state.storage eo.userId eo.txid

variable {syncMap syncMap' : SyncMap}

theorem mergeFind_congr (storage : EntityStorage) (userId : Nat) (ei : TableOutput)
  (hSame : (syncMap' .transaction).idMap = (syncMap .transaction).idMap) :
  mergeFind storage userId ei syncMap' = mergeFind storage userId ei syncMap := by
  unfold mergeFind
  rw [hSame]

theorem mappedBasketId_congr (basketId : Option Nat)
  (hSame : (syncMap' .outputBasket).idMap = (syncMap .outputBasket).idMap) :
  mappedBasketId basketId syncMap' = mappedBasketId basketId syncMap := by
  unfold mappedBasketId
  rw [hSame]

variable {eo ei : TableOutput}

theorem mergeExisting_newer
  {storage : EntityStorage} {basketId : Option Nat} (hNewer : eo.updatedAt < ei.updatedAt)
  (hBasket : mappedBasketId ei.basketId syncMap = .ok basketId)
  (hReclaim : ei.spendable = true → ReclaimUnique storage eo.userId eo.txid) :
  ∃ spendable, mergeExisting eo storage ei syncMap = .ok (true,
          { copyFields eo ei basketId syncMap with
            spendable := spendable
            updatedAt := max ei.updatedAt eo.updatedAt },
          storage.updateOutput eo.outputId fun _ =>
            { copyFields eo ei basketId syncMap with
              spendable := spendable
              updatedAt := max ei.updatedAt eo.updatedAt }) ∧
      (spendable = true ↔ ei.spendable = true ∧ ¬UnresolvedReclaim storage eo.userId
            eo.txid) := by
  rcases quarantine_eq_ok (copyFields eo ei basketId syncMap) storage hReclaim with
    ⟨spendable, hQuarantine, hSpendable⟩
  refine ⟨spendable, ?_, hSpendable⟩
  unfold mergeExisting
  rw [if_pos hNewer, hBasket]
  dsimp only [bind, Except.bind]
  rw [hQuarantine]
  rfl

theorem carried_of_copyFields
  {basketId : Option Nat} {spendable : Bool} (hNewer : eo.updatedAt < ei.updatedAt)
  (hBasket : mappedBasketId ei.basketId syncMap = .ok basketId) : Carried
    { copyFields eo ei basketId syncMap with
      spendable := spendable
      updatedAt := max ei.updatedAt eo.updatedAt }
    ei syncMap where
  basketId := mappedBasketId_eq_ok hBasket
  spentBy := rfl
  change := rfl
  type := rfl
  providedBy := rfl
  purpose := rfl
  outputDescription := rfl
  spendingDescription := rfl
  senderIdentityKey := rfl
  customInstructions := rfl
  scriptLength := rfl
  scriptOffset := rfl
  lockingScript := rfl
  updatedAt := Int.max_eq_left (Int.le_of_lt hNewer)

theorem Carried.congr {row : TableOutput} (hCarried : Carried row ei syncMap)
  (hBasket : (syncMap' .outputBasket).idMap = (syncMap .outputBasket).idMap)
  (hTx : (syncMap' .transaction).idMap = (syncMap .transaction).idMap) : Carried row ei syncMap' :=
  { hCarried with
    basketId := by
      rw [hBasket]
      exact hCarried.basketId
    spentBy := by
      rw [hTx]
      exact hCarried.spentBy }

theorem mapIdOrUndefined_eq (idMap : Nat → Option Nat) {id : Option Nat} (hPos : id ≠ some 0) :
  mapIdOrUndefined idMap id = mapTruthyId idMap id := by
  cases id with
  | none => rfl
  | some id =>
    cases id with
    | zero => exact absurd rfl hPos
    | succ id => rfl

theorem equals_iff_spendable
  {row : TableOutput} {transactionId : Nat} (hCarried : Carried row ei syncMap)
  (hAgree : AgreeOnRest row ei)
  (hTx : (syncMap .transaction).idMap ei.transactionId = some transactionId)
  (hCopy : row.transactionId = transactionId ∧ row.vout = ei.vout) :
  equals row ei syncMap = true ↔ row.spendable = ei.spendable := by
  have hSpentBy := mapIdOrUndefined_eq (syncMap .transaction).idMap hAgree.spentBy_pos
  unfold equals
  simp only [hTx, hCopy.1, hCopy.2, hCarried.basketId, hCarried.spentBy, hSpentBy,
    hCarried.change, hCarried.type, hCarried.providedBy,
    hCarried.purpose, hCarried.outputDescription, hCarried.spendingDescription,
    hCarried.senderIdentityKey, hCarried.customInstructions, hCarried.scriptLength,
    hCarried.scriptOffset, hCarried.lockingScript,
    hAgree.satoshis, hAgree.txid, hAgree.derivationPrefix,
    hAgree.derivationSuffix, decide_true, Bool.and_true, Bool.true_and, decide_eq_true_eq]

theorem mergeExisting_not_newer
  (storage : EntityStorage) (syncMap : SyncMap) (hNewer : ¬eo.updatedAt < ei.updatedAt) :
  mergeExisting eo storage ei syncMap = .ok (false, eo, storage) :=
  if_neg hNewer

theorem spendable_eq_iff {spendable source : Bool} {Quarantined : Prop}
  (hSpendable : spendable = true ↔ source = true ∧ ¬Quarantined) :
  spendable = source ↔ ¬(source = true ∧ Quarantined) := by
  cases source with
  | false => simpa using hSpendable
  | true => simpa using hSpendable

/-
  The copy carries the fields of the source row after a merge, and equals it if it agreed on the
  rest and is no unresolved reclaim.  A second merge of the same row leaves the storage as it is.
-/
def Converges (state : MergeState) (userId : Nat) (ei eo : TableOutput) : Prop :=
  ∃ state' row, outputMerger.mergeOne userId state ei = .ok state' ∧ row ∈ state'.storage.outputs ∧
      row.outputId = eo.outputId ∧ Carried row ei state'.syncMap ∧
      (AgreeOnRest eo ei → (equals row ei state'.syncMap = true ↔ ¬(ei.spendable = true ∧
            UnresolvedReclaim state.storage eo.userId eo.txid))) ∧
      ∃ state'', outputMerger.mergeOne userId state' ei = .ok state'' ∧
          state''.storage = state'.storage

theorem converges_of_newer
  {state : MergeState} {userId : Nat} (hMergeable : Mergeable state userId ei eo)
  (hNewer : eo.updatedAt < ei.updatedAt) : Converges state userId ei eo := by
  rcases mergeFind_found hMergeable.found with ⟨transactionId, hTx, hFilter, -, hPos⟩
  rcases filter_eq_singleton_only hFilter with ⟨⟨hEo, hCopy⟩, hOnly⟩
  have hSame := outputMerger.seeUpdatedAt_sameIds state.syncMap ei
  rcases hMergeable.basket with ⟨basketId, hBasket⟩
  rw [← mappedBasketId_congr ei.basketId (hSame .outputBasket)] at hBasket
  rcases mergeExisting_newer hNewer hBasket hMergeable.reclaim with ⟨spendable, hMerge, hSpendable⟩
  have hFind :=
    (mergeFind_congr state.storage userId ei (hSame .transaction)).trans hMergeable.found
  rcases MergeEntity.mergeOne_found outputMerger hFind
      hMerge hPos hMergeable.id_pos hMergeable.idMap with
    ⟨state', hState', hStorage, hMaps⟩
  have hTx' := hMaps.others .transaction (by decide)
  have hBasket' := hMaps.others .outputBasket (by decide)
  let row : TableOutput :=
    { copyFields eo ei basketId (outputMerger.seeUpdatedAt state.syncMap ei) with
      spendable := spendable
      updatedAt := max ei.updatedAt eo.updatedAt }
  have hRow : row ∈ state'.storage.outputs := by
    rw [hStorage]
    apply KeyedRows.mem_update_iff.mpr
    exact .inl ⟨eo, hEo, rfl, rfl⟩
  have hCarried : Carried row ei state'.syncMap :=
    (carried_of_copyFields hNewer hBasket).congr (hBasket'.trans (hSame .outputBasket).symm)
      (hTx'.trans (hSame .transaction).symm)
  have hKeeps : row.transactionId = transactionId ∧ row.vout = ei.vout := by
    have hEoCopy := of_decide_eq_true hCopy
    exact ⟨hEoCopy.2.1, hEoCopy.2.2⟩
  refine ⟨state', row, hState', hRow, rfl, hCarried, ?_, ?_⟩
  · intro hAgree
    rw [equals_iff_spendable hCarried ⟨hAgree.satoshis, hAgree.txid,
        hAgree.derivationPrefix, hAgree.derivationSuffix, hAgree.spentBy_pos⟩
      ((congrFun hTx' _).trans hTx) hKeeps]
    exact spendable_eq_iff hSpendable
  · have hSame' := outputMerger.seeUpdatedAt_sameIds state'.syncMap ei
    have hTx'' := hSame' .transaction
    have hFilter' : state'.storage.outputs.filter (isCopy userId transactionId ei.vout) =
          [row] := by
      rw [hStorage]
      exact filter_update_eq_singleton hMergeable.keys hEo hOnly hCopy
    have hFind' : mergeFind state'.storage userId ei (outputMerger.seeUpdatedAt state'.syncMap ei) =
          .ok ⟨true, row, ei.outputId⟩ := by
      apply mergeFind_of_filter _ hFilter' hPos
      rw [hTx'', hTx']
      exact hTx
    have hNotNewer : ¬row.updatedAt < ei.updatedAt := by
      rw [hCarried.updatedAt]
      exact Int.lt_irrefl _
    have hMapped : ∀ current, (state'.syncMap .output).idMap ei.outputId = some current →
            current = eo.outputId := by
      intro current hCur
      exact Option.some.inj (hCur.symm.trans hMaps.self)
    rcases MergeEntity.mergeOne_found outputMerger hFind'
        (mergeExisting_not_newer _ _ hNotNewer) hPos hMergeable.id_pos hMapped with
      ⟨state'', hState'', hStorage'', -⟩
    exact ⟨state'', hState'', hStorage''⟩

end EntityOutput

-- Expiry Metadata

/- A field that is kept once it is defined follows. -/
def FollowsOptional {α : Type} (current incoming : Option α) : Prop :=
  current = none ∨ current = incoming

def FollowsEarliest (current incoming : Option Int) : Prop :=
  ∀ c ∈ current, ∃ i ∈ incoming, i ≤ c

theorem or_eq_right_iff {α : Type} (current incoming : Option α) :
  current.or incoming = incoming ↔ FollowsOptional current incoming := by
  unfold FollowsOptional
  cases current with
  | none => simp
  | some value => simp

theorem earliestDefined_eq_right_iff (current incoming : Option Int) :
  earliestDefined current incoming = incoming ↔ FollowsEarliest current incoming := by
  unfold FollowsEarliest
  cases current with
  | none => simp [earliestDefined]
  | some c =>
    cases incoming with
    | none => simp [earliestDefined]
    | some i =>
      simp only [earliestDefined, Option.some.injEq, Option.mem_def, forall_eq', exists_eq_left']
      omega

namespace EntityTransaction

def LifecycleBehind (eo ei : TableTransaction) : Prop :=
  brc177NoSendExpiryStateRank ei.noSendExpiryState <
      brc177NoSendExpiryStateRank eo.noSendExpiryState ∧
    ei.provenTxId = none

def StateFollows (eo ei : TableTransaction) : Prop :=
  if targetWinnerSupersedesReclaim eo ei then ei.noSendExpiryState = some .targetWon
  else lifecycleAdvanced eo ei = true ∨ eo.noSendExpiryState = ei.noSendExpiryState

/- Each expiry field of the copy gives way to the source's. -/
structure ExpiryFollows (eo ei : TableTransaction) : Prop where
  mode : FollowsOptional eo.noSendExpiryMode ei.noSendExpiryMode
  value : FollowsOptional eo.noSendExpiryValue ei.noSendExpiryValue
  deadline : FollowsEarliest eo.noSendExpiryDeadline ei.noSendExpiryDeadline
  state : StateFollows eo ei
  anchorTxid : FollowsOptional eo.noSendExpiryAnchorTxid ei.noSendExpiryAnchorTxid
  anchorVout : FollowsOptional eo.noSendExpiryAnchorVout ei.noSendExpiryAnchorVout
  releasedAt : FollowsEarliest eo.noSendExpiryReleasedAt ei.noSendExpiryReleasedAt
  observedAt : FollowsEarliest eo.noSendExpiryObservedAt ei.noSendExpiryObservedAt
  reclaimTxid : FollowsOptional eo.noSendExpiryReclaimTxid ei.noSendExpiryReclaimTxid
  reclaimRawTx : FollowsOptional eo.noSendExpiryReclaimRawTx ei.noSendExpiryReclaimRawTx
  reclaimDerivationPrefix :
    FollowsOptional eo.noSendExpiryReclaimDerivationPrefix ei.noSendExpiryReclaimDerivationPrefix
  reclaimDerivationSuffix :
    FollowsOptional eo.noSendExpiryReclaimDerivationSuffix ei.noSendExpiryReclaimDerivationSuffix
  reclaimSatoshis : FollowsOptional eo.noSendExpiryReclaimSatoshis ei.noSendExpiryReclaimSatoshis

theorem mergedExpiryState_eq_iff (eo ei : TableTransaction) :
  mergedExpiryState eo.noSendExpiryState ei.noSendExpiryState (lifecycleAdvanced eo ei)
        (targetWinnerSupersedesReclaim eo ei) =
      ei.noSendExpiryState ↔
    StateFollows eo ei := by
  unfold mergedExpiryState StateFollows
  cases targetWinnerSupersedesReclaim eo ei with
  | true => exact eq_comm
  | false =>
    cases lifecycleAdvanced eo ei with
    | true => simp
    | false => simp

theorem expiryEquals_mergedRow_iff (eo ei : TableTransaction) (syncMap : SyncMap) :
  expiryEquals (mergedRow eo ei syncMap) ei = true ↔ ExpiryFollows eo ei := by
  have hFields : expiryEquals (mergedRow eo ei syncMap) ei = true ↔
        FollowsOptional eo.noSendExpiryReclaimRawTx ei.noSendExpiryReclaimRawTx ∧
          FollowsOptional eo.noSendExpiryMode ei.noSendExpiryMode ∧
          FollowsOptional eo.noSendExpiryValue ei.noSendExpiryValue ∧
          FollowsEarliest eo.noSendExpiryDeadline ei.noSendExpiryDeadline ∧ StateFollows eo ei ∧
          FollowsOptional eo.noSendExpiryAnchorTxid ei.noSendExpiryAnchorTxid ∧
          FollowsOptional eo.noSendExpiryAnchorVout ei.noSendExpiryAnchorVout ∧
          FollowsEarliest eo.noSendExpiryReleasedAt ei.noSendExpiryReleasedAt ∧
          FollowsEarliest eo.noSendExpiryObservedAt ei.noSendExpiryObservedAt ∧
          FollowsOptional eo.noSendExpiryReclaimTxid ei.noSendExpiryReclaimTxid ∧
          FollowsOptional eo.noSendExpiryReclaimDerivationPrefix
            ei.noSendExpiryReclaimDerivationPrefix ∧
          FollowsOptional eo.noSendExpiryReclaimDerivationSuffix
            ei.noSendExpiryReclaimDerivationSuffix ∧
          FollowsOptional eo.noSendExpiryReclaimSatoshis
            ei.noSendExpiryReclaimSatoshis := by
    unfold expiryEquals mergedRow mergeNoSendExpiryMetadata
    dsimp only
    simp only [Bool.and_eq_true, and_assoc,
      decide_eq_true_iff, or_eq_right_iff, earliestDefined_eq_right_iff, mergedExpiryState_eq_iff]
  rw [hFields]
  constructor
  · rintro ⟨hRawTx, hMode, hValue, hDeadline, hState,
      hAnchorTxid, hAnchorVout, hReleasedAt, hObservedAt, hReclaimTxid, hPre, hSuf, hSatoshis⟩
    exact ⟨hMode, hValue, hDeadline, hState, hAnchorTxid,
      hAnchorVout, hReleasedAt, hObservedAt, hReclaimTxid, hRawTx, hPre, hSuf, hSatoshis⟩
  · intro h
    exact ⟨h.reclaimRawTx, h.mode, h.value, h.deadline,
      h.state, h.anchorTxid, h.anchorVout, h.releasedAt, h.observedAt, h.reclaimTxid,
      h.reclaimDerivationPrefix, h.reclaimDerivationSuffix, h.reclaimSatoshis⟩

-- Transactions

structure Carried (row ei : TableTransaction) (syncMap : SyncMap) : Prop where
  version : row.version = ei.version
  lockTime : row.lockTime = ei.lockTime
  isOutgoing : row.isOutgoing = ei.isOutgoing
  status : row.status = ei.status
  provenTxId : row.provenTxId = mappedProvenTxId ei syncMap
  satoshis : row.satoshis = ei.satoshis
  txid : row.txid = ei.txid
  description : row.description = ei.description
  rawTx : row.rawTx = ei.rawTx
  inputBEEF : row.inputBEEF = ei.inputBEEF
  updatedAt : row.updatedAt = ei.updatedAt

structure Mergeable (state : MergeState) (userId : Nat) (ei eo : TableTransaction) : Prop where
  keys : (state.storage.transactions.map TableTransaction.transactionId).Nodup
  found : mergeFind state.storage userId ei state.syncMap = .ok ⟨true, eo, ei.transactionId⟩
  id_pos : 1 ≤ eo.transactionId
  idMap : ∀ current, (state.syncMap .transaction).idMap ei.transactionId = some current →
        current = eo.transactionId
  proof : ∀ id, ei.provenTxId = some id → ((state.syncMap .provenTx).idMap id).isSome
  reclaim : targetWinnerSupersedesReclaim eo ei = true →
      (state.storage.findOutputs (isReclaimOutput eo.userId (eo.noSendExpiryReclaimTxid.or
            ei.noSendExpiryReclaimTxid))).length ≤ 1

variable {syncMap : SyncMap}

theorem mappedProvenTxId_congr {syncMap' : SyncMap} (ei : TableTransaction)
  (hSame : (syncMap' .provenTx).idMap = (syncMap .provenTx).idMap) :
  mappedProvenTxId ei syncMap' = mappedProvenTxId ei syncMap := by
  unfold mappedProvenTxId
  rw [hSame]

theorem quarantineReclaimOutput_eq_ok
  (storage : EntityStorage) (target : TableTransaction) (reclaimTxid : Option String) (now : Int)
  (hUnique : (storage.findOutputs (isReclaimOutput target.userId reclaimTxid)).length ≤ 1) :
  ∃ storage', quarantineReclaimOutput storage target reclaimTxid now = .ok storage' ∧
      storage'.transactions = storage.transactions := by
  unfold quarantineReclaimOutput
  by_cases hTxid : reclaimTxid = none
  · rw [if_pos hTxid]
    exact ⟨storage, rfl, rfl⟩
  · rw [if_neg hTxid]
    rcases verifyOneOrNone_of_length hUnique with ⟨target, hTgt, -⟩
    rw [hTgt]
    cases target with
    | none => exact ⟨storage, rfl, rfl⟩
    | some output =>
      dsimp only [bind, Except.bind]
      by_cases hSpendable : output.spendable = true
      · rw [if_pos hSpendable]
        exact ⟨_, rfl, rfl⟩
      · rw [if_neg hSpendable]
        exact ⟨storage, rfl, rfl⟩

theorem mergedRow_keys (eo ei : TableTransaction) (syncMap : SyncMap) :
  (mergedRow eo ei syncMap).transactionId = eo.transactionId ∧
    (mergedRow eo ei syncMap).userId = eo.userId ∧ (mergedRow eo ei syncMap).reference =
      eo.reference := by
  unfold mergedRow
  split_ifs with hOrdinary hProof
  · exact ⟨rfl, rfl, rfl⟩
  · exact ⟨rfl, rfl, rfl⟩
  · exact ⟨rfl, rfl, rfl⟩

variable
    {eo ei : TableTransaction} {storage : EntityStorage}

theorem mergeExisting_merges
  (syncMap : SyncMap) (now : Int) (hOrdinary : mergeOrdinaryProperties eo ei = true)
  (hReclaim : targetWinnerSupersedesReclaim eo ei = true →
      (storage.findOutputs (isReclaimOutput eo.userId (eo.noSendExpiryReclaimTxid.or
            ei.noSendExpiryReclaimTxid))).length ≤ 1) :
  ∃ storage', mergeExisting eo storage ei syncMap now =
        .ok (true, mergedRow eo ei syncMap, storage') ∧
      storage'.transactions = update TableTransaction.transactionId eo.transactionId
          (fun _ => mergedRow eo ei syncMap)
          storage.transactions := by
  rcases mergedRow_keys eo ei syncMap with ⟨hId, hUser, -⟩
  unfold mergeExisting
  dsimp only
  rw [hOrdinary, Bool.or_true, Bool.not_true, if_neg Bool.false_ne_true]
  by_cases hWins : targetWinnerSupersedesReclaim eo ei = true
  · rw [if_pos hWins]
    have hUnique := hReclaim hWins
    rw [← hUser] at hUnique
    rcases quarantineReclaimOutput_eq_ok (storage.updateTransaction
          (mergedRow eo ei syncMap).transactionId fun _ => mergedRow eo ei syncMap)
        (mergedRow eo ei syncMap) (mergedRow eo ei syncMap).noSendExpiryReclaimTxid now hUnique with
      ⟨storage', hQuarantine, hTxs⟩
    refine ⟨storage', ?_, ?_⟩
    · rw [hQuarantine]
      rfl
    · rw [hTxs, ← hId]
      rfl
  · rw [if_neg hWins]
    refine ⟨_, rfl, ?_⟩
    rw [← hId]
    rfl

/- A row that only the clock puts ahead is not merged. -/
theorem mergeExisting_behind
  (storage : EntityStorage) (syncMap : SyncMap) (now : Int) (hBehind : LifecycleBehind eo ei) :
  mergeExisting eo storage ei syncMap now = .ok (false, eo, storage) := by
  have hAdvanced : lifecycleAdvanced eo ei = false := decide_eq_false (Int.lt_asymm hBehind.1)
  have hAdds : addsProofEvidence eo ei = false := by
    unfold addsProofEvidence carriesProofEvidence
    rw [hBehind.2]
    rfl
  have hOrdinary : mergeOrdinaryProperties eo ei = false := by
    have hRank := decide_eq_false (Int.not_le_of_gt hBehind.1)
    unfold mergeOrdinaryProperties carriesProofEvidence
    rw [hBehind.2, hRank]
    exact Bool.and_false _
  unfold mergeExisting
  rw [hAdvanced, hAdds, hOrdinary]
  rfl

theorem mergeOrdinaryProperties_of_newer
  (hNewer : eo.updatedAt < ei.updatedAt) (hBehind : ¬LifecycleBehind eo ei) :
  mergeOrdinaryProperties eo ei = true := by
  unfold mergeOrdinaryProperties carriesProofEvidence
  rw [decide_eq_true hNewer, Bool.true_and, Bool.or_eq_true, decide_eq_true_iff]
  by_cases hProof : ei.provenTxId = none
  · left
    apply Int.not_lt.mp
    intro hRank
    exact hBehind ⟨hRank, hProof⟩
  · right
    exact Option.isSome_iff_ne_none.mpr hProof

theorem carried_of_mergedRow (syncMap : SyncMap) (hNewer : eo.updatedAt < ei.updatedAt)
  (hOrdinary : mergeOrdinaryProperties eo ei = true) :
  Carried (mergedRow eo ei syncMap) ei syncMap := by
  unfold mergedRow
  rw [if_pos hOrdinary]
  constructor
  case updatedAt => exact Int.max_eq_left (Int.le_of_lt hNewer)
  all_goals rfl

variable {row : TableTransaction}

theorem Carried.congr {syncMap' : SyncMap} (hCarried : Carried row ei syncMap)
  (hProof : (syncMap' .provenTx).idMap = (syncMap .provenTx).idMap) : Carried row ei syncMap' :=
  { hCarried with
    provenTxId := by
      rw [mappedProvenTxId_congr ei hProof]
      exact hCarried.provenTxId }

theorem proofEquals_of_mapped (hCarried : row.provenTxId = mappedProvenTxId ei syncMap)
  (hMapped : ∀ id, ei.provenTxId = some id → ((syncMap .provenTx).idMap id).isSome) :
  proofEquals row ei syncMap = true := by
  unfold proofEquals
  unfold mappedProvenTxId at hCarried
  cases hProof : ei.provenTxId with
  | none =>
    rw [hProof] at hCarried
    rw [hCarried]
    rfl
  | some id =>
    have hSome := hMapped id hProof
    rw [hProof] at hCarried
    rw [hCarried]
    cases id with
    | zero => exact hSome
    | succ id =>
      dsimp only [Option.bind_some]
      rw [hSome, Bool.true_and]
      exact decide_eq_true rfl

theorem equals_iff (hCarried : Carried row ei syncMap) (hProof : proofEquals row ei syncMap = true)
  (hExpiry : expiryEquals row ei = true ↔ ExpiryFollows eo ei)
  (hRef : row.reference = eo.reference) (hPos : 1 ≤ ei.transactionId)
  (hId : (syncMap .transaction).idMap ei.transactionId = some row.transactionId) :
  equals row ei syncMap = .ok true ↔ eo.reference = ei.reference ∧ ExpiryFollows eo ei := by
  unfold equals
  rw [verifyId_some hPos]
  dsimp only [bind, Except.bind, pure, Except.pure]
  rw [Except.ok.injEq, hId, hCarried.version, hCarried.lockTime, hCarried.isOutgoing,
    hCarried.status, hCarried.satoshis, hCarried.txid, hCarried.description, hCarried.rawTx,
    hCarried.inputBEEF, hProof, hRef]
  simp only [decide_true, Bool.and_true, Bool.true_and,
    Bool.and_eq_true, decide_eq_true_iff, hExpiry]

theorem brc177NoSendExpiryStateRank_le (state : Option Brc177NoSendExpiryState) :
  brc177NoSendExpiryStateRank state ≤ 9 := by
  cases state with
  | none => decide
  | some state =>
    cases state
    all_goals decide

theorem lifecycleAdvanced_mergedRow (eo ei : TableTransaction) (syncMap : SyncMap) :
  lifecycleAdvanced (mergedRow eo ei syncMap) ei =
    false := by
  apply decide_eq_false
  apply Int.not_lt.mpr
  have hState : (mergedRow eo ei syncMap).noSendExpiryState = mergedExpiryState eo.noSendExpiryState
    ei.noSendExpiryState (lifecycleAdvanced eo ei)
    (targetWinnerSupersedesReclaim eo ei) := rfl
  rw [hState]
  unfold mergedExpiryState
  by_cases hWins : targetWinnerSupersedesReclaim eo ei = true
  · rw [if_pos hWins]
    exact brc177NoSendExpiryStateRank_le _
  · rw [if_neg hWins]
    by_cases hAdvanced : lifecycleAdvanced eo ei = true
    · exact Int.le_of_eq (by rw [if_pos hAdvanced])
    · rw [if_neg hAdvanced]
      apply Int.not_lt.mp
      intro hLt
      exact hAdvanced (decide_eq_true hLt)

theorem mergeExisting_merged (storage : EntityStorage) (syncMap' : SyncMap) (now : Int)
  (hCarried : Carried (mergedRow eo ei syncMap) ei syncMap)
  (hMapped : ∀ id, ei.provenTxId = some id → ((syncMap .provenTx).idMap id).isSome) :
  mergeExisting (mergedRow eo ei syncMap) storage ei syncMap' now =
    .ok (false, mergedRow eo ei syncMap, storage) := by
  have hAdds : addsProofEvidence (mergedRow eo ei syncMap) ei =
        false := by
    unfold addsProofEvidence carriesProofEvidence
    rw [hCarried.provenTxId]
    unfold mappedProvenTxId
    cases hProof : ei.provenTxId with
    | none => rfl
    | some id =>
      rw [Option.bind_some, hMapped id hProof]
      rfl
  have hOrdinary : mergeOrdinaryProperties (mergedRow eo ei syncMap) ei =
        false := by
    unfold mergeOrdinaryProperties
    rw [hCarried.updatedAt, decide_eq_false (Int.lt_irrefl _)]
    exact Bool.false_and _
  unfold mergeExisting
  rw [lifecycleAdvanced_mergedRow, hAdds, hOrdinary]
  rfl

theorem findByTxid_eq_ok_iff (storage : EntityStorage) (userId : Nat) (ei : TableTransaction)
  (ef : Option TableTransaction) :
  findByTxid storage userId ei = .ok ef ↔ ((ei.txid = none ∨ ei.txid = some "") ∧ ef = none) ∨
      ∃ txid, ei.txid = some txid ∧ txid ≠ "" ∧
        storage.transactions.filter (hasTxid userId txid) =
          ef.toList := by
  unfold findByTxid
  cases hTxid : ei.txid with
  | none => simp [eq_comm]
  | some txid =>
    dsimp only
    by_cases hEmpty : txid = ""
    · rw [if_pos hEmpty]
      simp [hEmpty, eq_comm]
    · rw [if_neg hEmpty, verifyOneOrNone_eq_ok_iff]
      simp [hEmpty, EntityStorage.findTransactions]

theorem findByReference_eq_ok_iff
  (storage : EntityStorage) (userId : Nat) (ei : TableTransaction) (eo : TableTransaction) :
  findByReference storage userId ei = .ok (some eo) ↔
    ei.reference ≠ "" ∧ storage.transactions.filter (hasReference userId ei.reference) =
        [eo] := by
  unfold findByReference
  by_cases hEmpty : ei.reference = ""
  · rw [if_pos hEmpty]
    simp [hEmpty]
  · rw [if_neg hEmpty, verifyOneOrNone_eq_ok_iff]
    simp [hEmpty, EntityStorage.findTransactions]

variable {userId : Nat}

theorem mergeFind_mem
  {eiId : Nat} (hFind : mergeFind storage userId ei syncMap = .ok ⟨true, eo, eiId⟩) :
  eo ∈ storage.transactions := by
  rcases (mergeFind_found hFind).2 with hByTxid | ⟨-, hByRef⟩
  · rcases (findByTxid_eq_ok_iff _ _ _ _).mp hByTxid with ⟨-, hNone⟩ | ⟨txid, -, -, hFilter⟩
    · cases hNone
    · exact (filter_eq_singleton_only hFilter).1.1
  · rcases (findByReference_eq_ok_iff _ _ _ _).mp hByRef with ⟨-, hFilter⟩
    exact (filter_eq_singleton_only hFilter).1.1

theorem mergeFind_after_update {storage' : EntityStorage} (syncMap' : SyncMap)
  (hKeys : (storage.transactions.map TableTransaction.transactionId).Nodup)
  (hFind : mergeFind storage userId ei syncMap = .ok ⟨true, eo, ei.transactionId⟩)
  (hTxs : storage'.transactions = update TableTransaction.transactionId
        eo.transactionId (fun _ => row) storage.transactions)
  (hTxid : row.txid = ei.txid) (hUser : row.userId = eo.userId)
  (hRef : row.reference = eo.reference) :
  mergeFind storage' userId ei syncMap' = .ok ⟨true, row, ei.transactionId⟩ := by
  rcases mergeFind_found hFind with ⟨⟨-, hPos⟩, hFound⟩
  rcases hFound with hByTxid | ⟨hMiss, hByRef⟩
  · -- The row keeps the txid by which it was found.
    apply mergeFind_of_findByTxid _ hPos
    rcases (findByTxid_eq_ok_iff _ _ _ _).mp hByTxid with
      ⟨-, hNone⟩ | ⟨txid, hSome, hEmpty, hFilter⟩
    · cases hNone
    · rcases filter_eq_singleton_only hFilter with ⟨⟨hEo, hEoTxid⟩, hOnly⟩
      have hEoUser := (of_decide_eq_true hEoTxid).2
      apply (findByTxid_eq_ok_iff _ _ _ _).mpr
      refine .inr ⟨txid, hSome, hEmpty, ?_⟩
      rw [hTxs]
      exact filter_update_eq_singleton hKeys hEo hOnly
        (decide_eq_true ⟨hTxid.trans hSome, hUser.trans hEoUser⟩)
  · rcases (findByReference_eq_ok_iff _ _ _ _).mp hByRef with ⟨hEmptyRef, hFilterRef⟩
    rcases filter_eq_singleton_only hFilterRef with ⟨⟨hEo, hEoRef⟩, hOnlyRef⟩
    have hEoRef' := of_decide_eq_true hEoRef
    rcases (findByTxid_eq_ok_iff _ _ _ _).mp hMiss with
      ⟨hNoTxid, -⟩ | ⟨txid, hSome, hEmpty, hFilter⟩
    · -- The source has no txid, so the reference finds it.
      apply mergeFind_of_findByReference ((findByTxid_eq_ok_iff _ _ _ _).mpr
        (Or.inl ⟨hNoTxid, rfl⟩)) _ hPos
      apply (findByReference_eq_ok_iff _ _ _ _).mpr
      refine ⟨hEmptyRef, ?_⟩
      rw [hTxs]
      exact filter_update_eq_singleton hKeys hEo hOnlyRef
        (decide_eq_true ⟨hRef.trans hEoRef'.1, hUser.trans hEoRef'.2⟩)
    · -- The row has learned the txid of the source.
      apply mergeFind_of_findByTxid _ hPos
      apply (findByTxid_eq_ok_iff _ _ _ _).mpr
      refine .inr ⟨txid, hSome, hEmpty, ?_⟩
      rw [hTxs]
      apply filter_update_eq_singleton hKeys hEo
      · intro other hOther hHas
        have hMem : other ∈ storage.transactions.filter (hasTxid userId txid) :=
          List.mem_filter.mpr ⟨hOther, hHas⟩
        rw [hFilter] at hMem
        cases hMem
      · exact decide_eq_true ⟨hTxid.trans hSome, hUser.trans hEoRef'.2⟩

def MergesAgain (state : MergeState) (userId : Nat) (ei : TableTransaction) : Prop :=
  ∀ now, ∃ state', (transactionMerger now).mergeOne userId state ei = .ok state' ∧
        state'.storage = state.storage

variable {state : MergeState}

theorem mergesAgain_of_idle
  (hFind : mergeFind state.storage userId ei state.syncMap = .ok ⟨true, row, ei.transactionId⟩)
  (hIdle : ∀ syncMap now, mergeExisting row state.storage ei syncMap now =
        .ok (false, row, state.storage))
  (hPos : 1 ≤ row.transactionId)
  (hMapped : ∀ current, (state.syncMap .transaction).idMap ei.transactionId = some current →
        current = row.transactionId) :
  MergesAgain state userId ei := by
  intro now
  have hEiPos := (mergeFind_found hFind).1.2
  rcases MergeEntity.mergeOne_found (transactionMerger now) hFind (hIdle _ now) hEiPos
      hPos hMapped with
    ⟨state', hState', hStorage, -⟩
  exact ⟨state', hState', hStorage⟩

theorem mergeOne_behind
  (now : Int) (hMergeable : Mergeable state userId ei eo) (hBehind : LifecycleBehind eo ei) :
  ∃ state', (transactionMerger now).mergeOne userId state ei = .ok state' ∧
      state'.storage = state.storage ∧ MergesAgain state' userId ei := by
  have hPos : 1 ≤ ei.transactionId := (mergeFind_found hMergeable.found).1.2
  rcases MergeEntity.mergeOne_found (transactionMerger now) hMergeable.found
      (mergeExisting_behind _ _ now hBehind) hPos hMergeable.id_pos hMergeable.idMap with
    ⟨state', hState', hStorage, hMaps⟩
  refine ⟨state', hState', hStorage, ?_⟩
  have hFind' :
      mergeFind state'.storage userId ei state'.syncMap = .ok ⟨true, eo, ei.transactionId⟩ := by
    rw [hStorage]
    exact hMergeable.found
  apply mergesAgain_of_idle hFind' _ hMergeable.id_pos
  · intro current hCur
    exact Option.some.inj (hCur.symm.trans hMaps.self)
  · intro syncMap now'
    exact mergeExisting_behind _ _ now' hBehind

/- The copy is not ahead, or a proof comes in. -/
theorem mergeOne_not_behind
  (now : Int) (hMergeable : Mergeable state userId ei eo) (hNewer : eo.updatedAt < ei.updatedAt)
  (hBehind : ¬LifecycleBehind eo ei) :
  ∃ state' row, (transactionMerger now).mergeOne userId state ei = .ok state' ∧
      row ∈ state'.storage.transactions ∧ row.transactionId = eo.transactionId ∧
      Carried row ei state'.syncMap ∧ (equals row ei state'.syncMap = .ok true ↔
        eo.reference = ei.reference ∧ ExpiryFollows eo ei) ∧
      MergesAgain state' userId ei := by
  have hPos : 1 ≤ ei.transactionId := (mergeFind_found hMergeable.found).1.2
  have hOrdinary := mergeOrdinaryProperties_of_newer hNewer hBehind
  have hSame := (transactionMerger now).seeUpdatedAt_sameIds state.syncMap ei
  rcases mergeExisting_merges ((transactionMerger now).seeUpdatedAt state.syncMap ei)
      now hOrdinary hMergeable.reclaim with
    ⟨storage', hMerge, hTxs⟩
  have hKeys := mergedRow_keys eo ei ((transactionMerger now).seeUpdatedAt state.syncMap ei)
  have hOut : 1 ≤ (mergedRow eo ei ((transactionMerger now).seeUpdatedAt state.syncMap
          ei)).transactionId := by
    rw [hKeys.1]
    exact hMergeable.id_pos
  rcases MergeEntity.mergeOne_found (transactionMerger now) hMergeable.found hMerge hPos hOut (by
        intro current hCur
        exact (hMergeable.idMap current hCur).trans hKeys.1.symm) with
    ⟨state', hState', hStorage, hMaps⟩
  have hOther : EntityName.provenTx ≠ (transactionMerger now).name := by
    change EntityName.provenTx ≠ .transaction
    decide
  have hProof' := hMaps.others .provenTx hOther
  have hSeen := hSame .provenTx
  have hCarried :=
    carried_of_mergedRow ((transactionMerger now).seeUpdatedAt state.syncMap ei) hNewer hOrdinary
  have hCarried' := hCarried.congr (hProof'.trans hSeen.symm)
  have hEo := mergeFind_mem hMergeable.found
  have hRow : mergedRow eo ei ((transactionMerger now).seeUpdatedAt state.syncMap ei) ∈
        state'.storage.transactions := by
    rw [hStorage, hTxs]
    apply KeyedRows.mem_update_iff.mpr
    exact .inl ⟨eo, hEo, rfl, rfl⟩
  refine ⟨state', _, hState', hRow, hKeys.1, hCarried', ?_, ?_⟩
  · apply equals_iff hCarried' _ (expiryEquals_mergedRow_iff eo ei _) hKeys.2.2 hPos hMaps.self
    apply proofEquals_of_mapped hCarried'.provenTxId
    rw [hProof']
    exact hMergeable.proof
  · have hFind' := mergeFind_after_update state'.syncMap hMergeable.keys hMergeable.found
        (hStorage ▸ hTxs) hCarried.txid hKeys.2.1 hKeys.2.2
    apply mergesAgain_of_idle hFind' _ hOut
    · intro current hCur
      exact Option.some.inj (hCur.symm.trans hMaps.self)
    · intro syncMap' now'
      apply mergeExisting_merged _ _ _ hCarried
      rw [hSeen]
      exact hMergeable.proof

/-
  The copy stays as it is if it is ahead in its lifecycle and no proof comes in.  Otherwise it
  carries the fields of the source row, and equals it exactly if the references agree and its
  expiry metadata give way.  A second merge of the same row leaves the storage as it is.
-/
def Converges (now : Int) (state : MergeState) (userId : Nat) (ei eo : TableTransaction) : Prop :=
  ∃ state' row, (transactionMerger now).mergeOne userId state ei = .ok state' ∧
      row ∈ state'.storage.transactions ∧ row.transactionId = eo.transactionId ∧
      (LifecycleBehind eo ei → row = eo ∧ state'.storage = state.storage) ∧
      (¬LifecycleBehind eo ei → Carried row ei state'.syncMap ∧
          (equals row ei state'.syncMap = .ok true ↔
            eo.reference = ei.reference ∧ ExpiryFollows eo ei)) ∧
      MergesAgain state' userId ei

theorem converges_of_newer
  (now : Int) (hMergeable : Mergeable state userId ei eo) (hNewer : eo.updatedAt < ei.updatedAt) :
  Converges now state userId ei eo := by
  by_cases hBehind : LifecycleBehind eo ei
  · rcases mergeOne_behind now hMergeable hBehind with ⟨state', hState', hStorage, hAgain⟩
    have hEo : eo ∈ state'.storage.transactions := by
      rw [hStorage]
      exact mergeFind_mem hMergeable.found
    exact ⟨state', eo, hState', hEo, rfl,
      fun _ => ⟨rfl, hStorage⟩, fun hNot => absurd hBehind hNot, hAgain⟩
  · rcases mergeOne_not_behind now hMergeable hNewer hBehind with
      ⟨state', row, hState', hRow, hId, hCarried, hEquals, hAgain⟩
    exact ⟨state', row, hState', hRow, hId,
      fun hIs => absurd hIs hBehind, fun _ => ⟨hCarried, hEquals⟩, hAgain⟩

end EntityTransaction

-- Convergence

/-
  A found copy of an output or of a transaction that is
  strictly older than its source converges to it.
-/
theorem merge_newer_converges (state : MergeState) (userId : Nat) :
  (∀ ei eo, EntityOutput.Mergeable state userId ei eo → eo.updatedAt < ei.updatedAt →
        EntityOutput.Converges state userId ei eo) ∧
    ∀ now ei eo, EntityTransaction.Mergeable state userId ei eo →
        eo.updatedAt < ei.updatedAt → EntityTransaction.Converges now state userId ei
            eo :=
  ⟨fun _ _ => EntityOutput.converges_of_newer,
    fun now _ _ => EntityTransaction.converges_of_newer now⟩

def sourceOutput : TableOutput :=
  { createdAt := 10
    updatedAt := 30
    outputId := 5
    userId := 2
    transactionId := 7
    spendable := true
    change := true
    vout := 0
    satoshis := 1000
    txid := some "aa"
    basketId := some 4 }

def targetOutput : TableOutput :=
  { sourceOutput with
    updatedAt := 20
    outputId := 9
    userId := 1
    transactionId := 3
    spendable := false
    basketId := none }

def sourceTransaction : TableTransaction :=
  { createdAt := 10
    updatedAt := 30
    transactionId := 7
    userId := 2
    provenTxId := some 6
    status := .completed
    reference := "source"
    isOutgoing := false
    satoshis := 1000
    txid := some "aa" }

def targetTransaction : TableTransaction :=
  { sourceTransaction with
    updatedAt := 20
    transactionId := 3
    userId := 1
    provenTxId := none
    status := .unproven
    reference := "target" }

def mergingState : MergeState :=
  { storage :=
      { outputs := [targetOutput]
        transactions := [targetTransaction]
        nextOutputId := 10
        nextTransactionId := 4 }
    syncMap := fun name =>
      match name with
      | .transaction => { idMap := fun id => if id = 7 then some 3 else none }
      | .outputBasket => { idMap := fun id => if id = 4 then some 8 else none }
      | .provenTx => { idMap := fun id => if id = 6 then some 2 else none }
      | _ => {} }

theorem merge_newer_converges_in_mergingState :
  EntityOutput.Converges mergingState 1 sourceOutput targetOutput ∧
    EntityTransaction.Converges 40 mergingState 1 sourceTransaction targetTransaction := by
  constructor
  · apply (merge_newer_converges mergingState 1).1
    · constructor
      case keys => decide
      case found => rfl
      case id_pos => decide
      case idMap =>
        intro current hCurrent
        cases hCurrent
      case basket => exact ⟨some 8, rfl⟩
      case reclaim =>
        intro _ _
        decide
    · decide
  · apply (merge_newer_converges mergingState 1).2 40
    · constructor
      case keys => decide
      case found => rfl
      case id_pos => decide
      case idMap =>
        intro current hCurrent
        cases hCurrent
        rfl
      case proof =>
        intro id hId
        cases hId
        rfl
      case reclaim =>
        intro hWins
        cases hWins
    · decide

theorem not_equals_after_merge :
  EntityTransaction.mergeFind mergingState.storage 1 sourceTransaction mergingState.syncMap =
      .ok ⟨true, targetTransaction, 7⟩ ∧
    targetTransaction.updatedAt < sourceTransaction.updatedAt ∧
    ∃ state' row, (transactionMerger 40).mergeOne 1 mergingState sourceTransaction = .ok state' ∧
        state'.storage.transactions = [row] ∧
        EntityTransaction.equals row sourceTransaction state'.syncMap = .ok false :=
  ⟨rfl, by decide, _, _, rfl, rfl, rfl⟩

end TsStack.Wallet
