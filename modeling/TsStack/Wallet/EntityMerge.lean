import TsStack.Wallet.EntityTables

/-
  The merge of synced outputs and transactions, from
  `EntityOutput.ts`, `EntityTransaction.ts` and
  `MergeEntity.ts`.

  An entity is the row it wraps.  A method that changes its
  entity returns the changed row.
-/

-- Outputs

namespace TsStack.Wallet

/- What `mergeFind` returns. -/
structure MergeFound (API : Type) where
  found : Bool
  eo : API
  eiId : Nat
deriving Repr

/- An id that is not falsy is mapped, another is kept. -/
def mapTruthyId (idMap : Nat → Option Nat) :
  Option Nat → Option Nat
| some (id + 1) => idMap (id + 1)
| other => other

/- An id that is not falsy is mapped, another is dropped. -/
def mapIdOrUndefined (idMap : Nat → Option Nat) :
  Option Nat → Option Nat
| some (id + 1) => idMap (id + 1)
| _ => none

def mappedBasketId (basketId : Option Nat) (syncMap : SyncMap) : Except EntityError (Option Nat) :=
  match basketId with
  | none => .ok none
  | some id => do
      let id ← verifyId (some id)
      let mapped ← verifyId ((syncMap .outputBasket).idMap id)
      return some mapped

def isReclaimedBy (userId : Nat) (txid : Option String) (t : TableTransaction) : Bool :=
  t.userId = userId ∧ t.noSendExpiryReclaimTxid = txid

def quarantineUnresolvedBrc177Reclaim (output : TableOutput) (storage : EntityStorage) :
  Except EntityError TableOutput :=
  if ¬output.spendable ∨ output.txid = none then .ok output
  else do
    let target ← verifyOneOrNone
      (storage.findTransactions (isReclaimedBy output.userId output.txid))
    match target with
    | some t =>
      if t.noSendExpiryState ≠ some .reclaimed then return { output with spendable := false }
      else return output
    | none => return output

namespace EntityOutput

def equals (eo ei : TableOutput) (syncMap : SyncMap) : Bool :=
  some eo.transactionId = (syncMap .transaction).idMap ei.transactionId &&
    eo.basketId = mapTruthyId (syncMap .outputBasket).idMap ei.basketId &&
    eo.spentBy = mapTruthyId (syncMap .transaction).idMap ei.spentBy && eo.vout = ei.vout &&
    eo.satoshis = ei.satoshis && eo.spendable = ei.spendable && eo.change = ei.change &&
    eo.txid = ei.txid && eo.type = ei.type && eo.providedBy = ei.providedBy &&
    eo.purpose = ei.purpose && eo.outputDescription = ei.outputDescription &&
    eo.spendingDescription = ei.spendingDescription && eo.derivationPrefix = ei.derivationPrefix &&
    eo.derivationSuffix = ei.derivationSuffix && eo.senderIdentityKey = ei.senderIdentityKey &&
    eo.customInstructions = ei.customInstructions && eo.lockingScript = ei.lockingScript &&
    eo.scriptLength = ei.scriptLength && eo.scriptOffset = ei.scriptOffset

/- The partial that `mergeFind` looks for. -/
def isCopy (userId transactionId vout : Nat) (o : TableOutput) : Bool :=
  o.userId = userId ∧ o.transactionId = transactionId ∧ o.vout = vout

def mergeFind (storage : EntityStorage) (userId : Nat) (ei : TableOutput) (syncMap : SyncMap) :
  Except EntityError (MergeFound TableOutput) :=
  match (syncMap .transaction).idMap ei.transactionId with
  | none => .error .undefinedBinding
  | some transactionId => do
      let ef ← verifyOneOrNone (storage.findOutputs (isCopy userId transactionId ei.vout))
      let eiId ← verifyId (some ei.outputId)
      return ⟨ef.isSome, ef.getD ei, eiId⟩

def mergeNew (eo : TableOutput) (storage : EntityStorage) (userId : Nat) (syncMap : SyncMap) :
  Except EntityError (TableOutput × EntityStorage) := do
  let basketId ← mappedBasketId eo.basketId syncMap
  match (syncMap .transaction).idMap eo.transactionId with
  | none => .error .undefinedBinding
  | some transactionId => do
      let eo ← quarantineUnresolvedBrc177Reclaim
        { eo with
          userId := userId
          basketId := basketId
          transactionId := transactionId
          spentBy := mapIdOrUndefined (syncMap .transaction).idMap eo.spentBy }
        storage
      let (outputId, storage) := storage.insertOutput { eo with outputId := 0 }
      return ({ eo with outputId := outputId }, storage)

/- The fields that `mergeExisting` copies. -/
def copyFields (eo ei : TableOutput) (basketId : Option Nat) (syncMap : SyncMap) : TableOutput :=
  { eo with
    basketId := basketId
    spentBy := mapIdOrUndefined (syncMap .transaction).idMap ei.spentBy
    spendable := ei.spendable
    change := ei.change
    type := ei.type
    providedBy := ei.providedBy
    purpose := ei.purpose
    outputDescription := ei.outputDescription
    spendingDescription := ei.spendingDescription
    senderIdentityKey := ei.senderIdentityKey
    customInstructions := ei.customInstructions
    scriptLength := ei.scriptLength
    scriptOffset := ei.scriptOffset
    lockingScript := ei.lockingScript }

def mergeExisting
  (eo : TableOutput) (storage : EntityStorage) (ei : TableOutput) (syncMap : SyncMap) :
  Except EntityError (Bool × TableOutput × EntityStorage) :=
  if eo.updatedAt < ei.updatedAt then do
    let basketId ← mappedBasketId ei.basketId syncMap
    let copied := copyFields eo ei basketId syncMap
    let row ← quarantineUnresolvedBrc177Reclaim copied storage
    let row :=
      { row with
        updatedAt := max ei.updatedAt row.updatedAt }
    return (true, row, storage.updateOutput row.outputId fun _ => row)
  else .ok (false, eo, storage)

end EntityOutput

-- Expiry Metadata

def earliestDefined :
  Option Int → Option Int → Option Int
| none, b => b
| some a, none => some a
| some a, some b => some (min a b)

def brc177NoSendExpiryStateRank :
  Option Brc177NoSendExpiryState → Int
| some .preparing => 0
| some .unsigned => 1
| some .cancelled => 2
| some .signed => 3
| some .revocationRequested => 4
| some .conflicted => 5
| some .broadcast => 6
| some .reclaiming => 7
| some .reclaimed => 8
| some .targetWon => 9
| none => -1

/- The state after both flags are applied. -/
def mergedExpiryState (current incoming : Option Brc177NoSendExpiryState) (lifecycleAdvanced : Bool)
  (targetWinnerSupersedesReclaim : Bool) : Option Brc177NoSendExpiryState :=
  if targetWinnerSupersedesReclaim then some .targetWon
  else if lifecycleAdvanced then incoming
  else current

def mergeNoSendExpiryMetadata
  (target : TableTransaction) (current : NoSendExpirySnapshot) (incoming : TableTransaction)
  (lifecycleAdvanced : Bool) (targetWinnerSupersedesReclaim : Bool) : TableTransaction :=
  { target with
    noSendExpiryMode := current.noSendExpiryMode.or incoming.noSendExpiryMode
    noSendExpiryValue := current.noSendExpiryValue.or incoming.noSendExpiryValue
    noSendExpiryDeadline := earliestDefined current.noSendExpiryDeadline
        incoming.noSendExpiryDeadline
    noSendExpiryState := mergedExpiryState current.noSendExpiryState
        incoming.noSendExpiryState lifecycleAdvanced targetWinnerSupersedesReclaim
    noSendExpiryAnchorTxid := current.noSendExpiryAnchorTxid.or incoming.noSendExpiryAnchorTxid
    noSendExpiryAnchorVout := current.noSendExpiryAnchorVout.or incoming.noSendExpiryAnchorVout
    noSendExpiryReleasedAt := earliestDefined current.noSendExpiryReleasedAt
        incoming.noSendExpiryReleasedAt
    noSendExpiryObservedAt := earliestDefined current.noSendExpiryObservedAt
        incoming.noSendExpiryObservedAt
    noSendExpiryReclaimTxid := current.noSendExpiryReclaimTxid.or incoming.noSendExpiryReclaimTxid
    noSendExpiryReclaimRawTx := current.noSendExpiryReclaimRawTx.or
        incoming.noSendExpiryReclaimRawTx
    noSendExpiryReclaimDerivationPrefix := current.noSendExpiryReclaimDerivationPrefix.or
        incoming.noSendExpiryReclaimDerivationPrefix
    noSendExpiryReclaimDerivationSuffix := current.noSendExpiryReclaimDerivationSuffix.or
        incoming.noSendExpiryReclaimDerivationSuffix
    noSendExpiryReclaimSatoshis := current.noSendExpiryReclaimSatoshis.or
        incoming.noSendExpiryReclaimSatoshis }

-- Transactions

def carriesProofEvidence (transaction : TableTransaction) : Bool :=
  transaction.provenTxId.isSome

def mappedProvenTxId (incoming : TableTransaction) (syncMap : SyncMap) : Option Nat :=
  incoming.provenTxId.bind (syncMap .provenTx).idMap

def mergeOrdinaryTransactionProperties
  (target incoming : TableTransaction) (syncMap : SyncMap) : TableTransaction :=
  { target with
    version := incoming.version
    lockTime := incoming.lockTime
    isOutgoing := incoming.isOutgoing
    status := incoming.status
    provenTxId := mappedProvenTxId incoming syncMap
    satoshis := incoming.satoshis
    txid := incoming.txid
    description := incoming.description
    rawTx := incoming.rawTx
    inputBEEF := incoming.inputBEEF }

def mergeProofEvidence
  (target incoming : TableTransaction) (syncMap : SyncMap) : TableTransaction :=
  { target with
    status := incoming.status
    provenTxId := mappedProvenTxId incoming syncMap
    rawTx := target.rawTx.or incoming.rawTx
    inputBEEF := target.inputBEEF.or incoming.inputBEEF }

def isReclaimOutput (userId : Nat) (reclaimTxid : Option String) (o : TableOutput) : Bool :=
  o.userId = userId ∧ o.txid = reclaimTxid ∧ o.vout = 0

def quarantineReclaimOutput
  (storage : EntityStorage) (target : TableTransaction) (reclaimTxid : Option String)
  (now : Int) : Except EntityError EntityStorage :=
  if reclaimTxid = none then .ok storage
  else do
    let reclaimOutput ← verifyOneOrNone
      (storage.findOutputs (isReclaimOutput target.userId reclaimTxid))
    match reclaimOutput with
    | some o =>
      if o.spendable then
        return storage.updateOutput o.outputId fun row =>
          { row with spendable := false, updatedAt := now }
      else return storage
    | none => return storage

namespace EntityTransaction

def expiryEquals (eo ei : TableTransaction) : Bool :=
  eo.noSendExpiryReclaimRawTx = ei.noSendExpiryReclaimRawTx &&
    eo.noSendExpiryMode = ei.noSendExpiryMode && eo.noSendExpiryValue = ei.noSendExpiryValue &&
    eo.noSendExpiryDeadline = ei.noSendExpiryDeadline &&
    eo.noSendExpiryState = ei.noSendExpiryState &&
    eo.noSendExpiryAnchorTxid = ei.noSendExpiryAnchorTxid &&
    eo.noSendExpiryAnchorVout = ei.noSendExpiryAnchorVout &&
    eo.noSendExpiryReleasedAt = ei.noSendExpiryReleasedAt &&
    eo.noSendExpiryObservedAt = ei.noSendExpiryObservedAt &&
    eo.noSendExpiryReclaimTxid = ei.noSendExpiryReclaimTxid &&
    eo.noSendExpiryReclaimDerivationPrefix = ei.noSendExpiryReclaimDerivationPrefix &&
    eo.noSendExpiryReclaimDerivationSuffix = ei.noSendExpiryReclaimDerivationSuffix &&
    eo.noSendExpiryReclaimSatoshis = ei.noSendExpiryReclaimSatoshis

def proofEquals (eo ei : TableTransaction) (syncMap : SyncMap) : Bool :=
  match ei.provenTxId with
  | none => eo.provenTxId.isNone
  | some 0 => eo.provenTxId.isSome
  | some (id + 1) => eo.provenTxId.isSome && eo.provenTxId = (syncMap .provenTx).idMap (id + 1)

/- An id that `verifyId` refuses throws. -/
def equals (eo ei : TableTransaction) (syncMap : SyncMap) : Except EntityError Bool := do
  let eiId ← verifyId (some ei.transactionId)
  return some eo.transactionId = (syncMap .transaction).idMap eiId && eo.reference = ei.reference &&
    eo.version = ei.version && eo.lockTime = ei.lockTime && eo.isOutgoing = ei.isOutgoing &&
    eo.status = ei.status && eo.satoshis = ei.satoshis && eo.txid = ei.txid &&
    eo.description = ei.description && eo.rawTx = ei.rawTx && eo.inputBEEF = ei.inputBEEF &&
    expiryEquals eo ei && proofEquals eo ei syncMap

def hasTxid (userId : Nat) (txid : String) (t : TableTransaction) : Bool :=
  t.txid = some txid ∧ t.userId = userId

def hasReference (userId : Nat) (reference : String) (t : TableTransaction) : Bool :=
  t.reference = reference ∧ t.userId = userId

/- The lookup of `mergeFind` when the txid is known. -/
def findByTxid (storage : EntityStorage) (userId : Nat) (ei : TableTransaction) :
  Except EntityError (Option TableTransaction) :=
  match ei.txid with
  | none => .ok none
  | some txid =>
    if txid = "" then .ok none
    else verifyOneOrNone (storage.findTransactions (hasTxid userId txid))

/- The lookup it falls through to. -/
def findByReference (storage : EntityStorage) (userId : Nat) (ei : TableTransaction) :
  Except EntityError (Option TableTransaction) :=
  if ei.reference = "" then .ok none
  else verifyOneOrNone (storage.findTransactions (hasReference userId ei.reference))

/- The second lookup is made if the first one misses. -/
def orElseFind
  (ef : Option TableTransaction) (lookup : Except EntityError (Option TableTransaction)) :
  Except EntityError (Option TableTransaction) :=
  match ef with
  | some row => .ok (some row)
  | none => lookup

def mergeFind
  (storage : EntityStorage) (userId : Nat) (ei : TableTransaction) (_syncMap : SyncMap) :
  Except EntityError (MergeFound TableTransaction) := do
  let ef ← findByTxid storage userId ei
  let ef ← orElseFind ef (findByReference storage userId ei)
  let eiId ← verifyId (some ei.transactionId)
  return ⟨ef.isSome, ef.getD ei, eiId⟩

def mergeNew (eo : TableTransaction) (storage : EntityStorage) (userId : Nat) (syncMap : SyncMap) :
  Except EntityError (TableTransaction × EntityStorage) :=
  let eo :=
    { eo with
      provenTxId := mapTruthyId (syncMap .provenTx).idMap eo.provenTxId
      userId := userId
      transactionId := 0 }
  let (transactionId, storage) := storage.insertTransaction eo
  .ok ({ eo with transactionId := transactionId }, storage)

def lifecycleAdvanced (eo ei : TableTransaction) : Bool :=
  brc177NoSendExpiryStateRank eo.noSendExpiryState <
    brc177NoSendExpiryStateRank ei.noSendExpiryState

def addsProofEvidence (eo ei : TableTransaction) : Bool :=
  carriesProofEvidence ei && !carriesProofEvidence eo

def targetWinnerSupersedesReclaim (eo ei : TableTransaction) : Bool :=
  eo.noSendExpiryState = some .reclaimed && (ei.noSendExpiryState = some .targetWon ||
      carriesProofEvidence ei)

/- The row that came in is newer and may be copied. -/
def mergeOrdinaryProperties (eo ei : TableTransaction) : Bool :=
  eo.updatedAt < ei.updatedAt && (brc177NoSendExpiryStateRank eo.noSendExpiryState ≤
        brc177NoSendExpiryStateRank ei.noSendExpiryState ||
      carriesProofEvidence ei)

/- The row of the entity after `mergeExisting` merges. -/
def mergedRow (eo ei : TableTransaction) (syncMap : SyncMap) : TableTransaction :=
  let merged :=
    if mergeOrdinaryProperties eo ei then mergeOrdinaryTransactionProperties eo ei syncMap
    else if carriesProofEvidence ei then mergeProofEvidence eo ei syncMap
    else eo
  { mergeNoSendExpiryMetadata merged
      eo.toNoSendExpirySnapshot ei (lifecycleAdvanced eo ei)
      (targetWinnerSupersedesReclaim eo ei) with
    updatedAt := max ei.updatedAt eo.updatedAt }

def mergeExisting
  (eo : TableTransaction) (storage : EntityStorage) (ei : TableTransaction) (syncMap : SyncMap)
  (now : Int) : Except EntityError (Bool × TableTransaction × EntityStorage) :=
  let shouldMerge := lifecycleAdvanced eo ei || addsProofEvidence eo ei ||
      mergeOrdinaryProperties eo ei
  if !shouldMerge then .ok (false, eo, storage)
  else do
    let row := mergedRow eo ei syncMap
    let storage := storage.updateTransaction row.transactionId fun _ => row
    let storage ←
      if targetWinnerSupersedesReclaim eo ei then
        quarantineReclaimOutput storage row row.noSendExpiryReclaimTxid now
      else pure storage
    return (true, row, storage)

end EntityTransaction

-- Merging a Chunk

/- What `MergeEntity` calls on a kind of entities. -/
structure MergeEntity (API : Type) where
  name : EntityName
  updatedAt : API → Int
  id : API → Nat
  find : EntityStorage → Nat → API → SyncMap → Except EntityError (MergeFound API)
  mergeNew : API → EntityStorage → Nat → SyncMap → Except EntityError (API × EntityStorage)
  mergeExisting :
    API → EntityStorage → API → SyncMap → Except EntityError (Bool × API × EntityStorage)

structure MergeState where
  storage : EntityStorage
  syncMap : SyncMap
  inserts : Nat := 0
  updates : Nat := 0

namespace MergeEntity

variable {API : Type}

def updateSyncMap (map : Nat → Option Nat) (inId outId : Nat) :
  Except EntityError (Nat → Option Nat) := do
  let i ← verifyId (some inId)
  let o ← verifyId (some outId)
  match map i with
  | none => return fun id => if id = i then some o else map id
  | some current =>
    if current ≠ o then .error (.cannotOverride inId current outId)
    else return map

def maxDate : Option Int → Int → Option Int
| none, date => some date
| some date, other => some (max date other)

variable (merger : MergeEntity API)

def mergeFoundCopy (state : MergeState) (ei eo : API) (syncMap : SyncMap) :
  Except EntityError (API × MergeState) := do
  let (wasMerged, eo, storage) ← merger.mergeExisting eo state.storage ei syncMap
  return (eo, { state with
    storage := storage
    updates :=
      if wasMerged then state.updates + 1
      else state.updates })

def insertCopy (userId : Nat) (state : MergeState) (eo : API) (syncMap : SyncMap) :
  Except EntityError (API × MergeState) := do
  let (eo, storage) ← merger.mergeNew eo state.storage userId syncMap
  return (eo, { state with
    storage := storage
    inserts := state.inserts + 1 })

def seeUpdatedAt (syncMap : SyncMap) (ei : API) : SyncMap :=
  let esm := syncMap merger.name
  syncMap.set merger.name
    { esm with
      maxUpdatedAt := maxDate esm.maxUpdatedAt (merger.updatedAt ei) }

def mergeOne (userId : Nat) (state : MergeState)
  (ei : API) : Except EntityError MergeState := do
  let syncMap := merger.seeUpdatedAt state.syncMap ei
  let found ← merger.find state.storage userId ei syncMap
  let (eo, state) ←
    if found.found then merger.mergeFoundCopy state ei found.eo syncMap
    else merger.insertCopy userId state found.eo syncMap
  let esm := syncMap merger.name
  let idMap ← updateSyncMap esm.idMap found.eiId (merger.id eo)
  return { state with
    syncMap := syncMap.set merger.name { esm with idMap := idMap } }

def merge (userId : Nat) (state : MergeState)
  (stateArray : Option (List API)) : Except EntityError MergeState :=
  match stateArray with
  | none => .ok state
  | some entities => entities.foldlM (mergeOne merger userId) state

end MergeEntity

def outputMerger : MergeEntity TableOutput where
  name := .output
  updatedAt := TableOutput.updatedAt
  id := TableOutput.outputId
  find := EntityOutput.mergeFind
  mergeNew := EntityOutput.mergeNew
  mergeExisting := EntityOutput.mergeExisting

def transactionMerger (now : Int) : MergeEntity TableTransaction where
  name := .transaction
  updatedAt := TableTransaction.updatedAt
  id := TableTransaction.transactionId
  find := EntityTransaction.mergeFind
  mergeNew := EntityTransaction.mergeNew
  mergeExisting := fun eo storage ei syncMap =>
    EntityTransaction.mergeExisting eo storage ei syncMap now

end TsStack.Wallet
