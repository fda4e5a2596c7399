import Mathlib.Algebra.Order.Ring.Int
import TsStack.Wallet.ListOutputs

/-
  `listOutputsKnex` and `listOutputsIdb`, each from its own
  source, and the operations on tags that both call.
-/

-- Operations on tags

namespace TsStack.Wallet

structure PrefixReads where
  findOutputs : (TableOutput → Bool) → List TransactionStatus → Bool → List TableOutput
  getLabelsForTransactionId : Nat → List String
  getTagsForOutputId : Nat → List String

def LISTED_OUTPUT_TX_STATUSES : List TransactionStatus :=
  [.completed, .unproven, .nosend, .sending, .unprocessed]

def RESERVING_TX_STATUSES : List TransactionStatus :=
  [.unsigned, .unprocessed, .nosend, .sending]

/- `byOutpoint`: the first does not come after the second. -/
def byOutpoint (a b : TableOutput) : Bool :=
  if a.txid = b.txid then a.vout ≤ b.vout
  else decide (a.txid.getD "" < b.txid.getD "")

variable {β : Type} (services : ListingServices β)

variable (vargs : ValidListOutputsArgs)

def mergeTransaction (output : TableOutput) (beef : β) : Except ListingError β :=
  match output.txid with
  | none => .ok beef
  | some txid =>
    if vargs.includeTransactions && !services.hasTxid beef txid then
      services.getValidBeefForKnownTxid txid beef
    else .ok beef

def customInstructionsOf (output : TableOutput) : Option String :=
  if vargs.includeCustomInstructions then output.customInstructions.filter (· ≠ "")
  else none

def hydrateBasketPrefixOutput
  (reads : PrefixReads) (store : ListingStore) (vargs : ValidListOutputsArgs)
  (output : TableOutput) : WalletOutput where
  satoshis := output.satoshis
  spendable := output.spendable
  outpoint := outpointText "undefined" output
  customInstructions := customInstructionsOf vargs output
  labels :=
    if vargs.includeLabels then some (reads.getLabelsForTransactionId output.transactionId)
    else none
  tags :=
    if vargs.includeTags then some (reads.getTagsForOutputId output.outputId)
    else none
  lockingScript :=
    if vargs.includeLockingScripts then (store.validateOutputScript output).lockingScript
    else none

def mergeTransactions (outputs : List TableOutput) : Except ListingError β :=
  outputs.foldlM (fun beef output => mergeTransaction services vargs output beef) services.emptyBeef

def listingResult (totalOutputs : Int)
  (outputs : List TableOutput) (hydrated : List WalletOutput) :
  Except ListingError (ListOutputsResult β) := do
  let beef ← mergeTransactions services vargs outputs
  return {
    totalOutputs
    outputs := hydrated
    beef := if vargs.includeTransactions then some beef else none }

def prefixBasketIds (store : ListingStore) (userId : Nat) (space : String) : List Nat :=
  ((store.baskets.filter fun row => row.userId == userId && !row.isDeleted).filter fun row =>
    (space ++ " ").toList.isPrefixOf row.name.toList).map (·.basketId)

/- The outputs that `listBasketPrefixOutputs` shows. -/
def basketPrefixRows (reads : PrefixReads) (store : ListingStore) (userId : Nat) (space : String)
  (noScript : Bool) : List TableOutput :=
  let basketIds := prefixBasketIds store userId space
  let unspent := basketIds.flatMap fun basketId =>
    reads.findOutputs (fun row =>
        row.userId == userId && row.basketId == some basketId && row.spendable)
      LISTED_OUTPUT_TX_STATUSES noScript
  let spenders := store.findTransactions fun tx =>
    tx.userId == userId && RESERVING_TX_STATUSES.contains tx.status
  let reserved := spenders.flatMap fun spender =>
    reads.findOutputs (fun row => row.userId == userId && row.spentBy == some spender.transactionId)
      LISTED_OUTPUT_TX_STATUSES noScript
  unspent ++ reserved.filter fun row => row.basketId.any basketIds.contains

def listBasketPrefixOutputs (reads : PrefixReads) (store : ListingStore) (userId : Nat)
  (vargs : ValidListOutputsArgs) (specOpTags : List String) :
  Except ListingError (ListOutputsResult β) :=
  match specOpTags.head?.filter (· ≠ "") with
  | none => .error .namespaceRequired
  | some space =>
    let rows := basketPrefixRows reads store userId space (!vargs.includeLockingScripts)
    if MAX_UTXO_REVIEW_CANDIDATES < rows.length then .error .tooManyPrefixOutputs
    else
      let sorted := rows.mergeSort byOutpoint
      listingResult services vargs sorted.length sorted
        (sorted.map (hydrateBasketPrefixOutput reads store vargs))

/- `setWalletChangeParams`, but for the basket it updates. -/
def setWalletChangeParams (store : ListingStore) (userId : Nat)
  (specOpTags : List String) : Except ListingError (ListOutputsResult β) :=
  match specOpTags with
  | [desired, minimum] =>
    match services.toInteger desired, services.toInteger minimum with
    | some _, some _ =>
      match store.baskets.filter fun row => row.userId == userId && row.name == "default" with
      | [_] => .ok { totalOutputs := 0 }
      | [] => .error .resultMustExist
      | _ => .error (.entity .resultMustBeUnique)
    | _, _ => .error .integerRequired
  | _ => .error .changeParamsInvalid

def resultFromTags (reads : PrefixReads) (store : ListingStore) (userId : Nat)
  (vargs : ValidListOutputsArgs) (specOpTags : List String) :
  TagOperation → Except ListingError (ListOutputsResult β)
| .setWalletChangeParams => setWalletChangeParams services store userId specOpTags
| .basketPrefixOutputs => listBasketPrefixOutputs services reads store userId vargs specOpTags

/- The `resultFromOutputs` of a balance. -/
def balanceResult (outputs : List TableOutput) : ListOutputsResult β where
  totalOutputs := (outputs.map (·.satoshis)).sum

-- SQL

namespace Knex

variable (store : ListingStore)

def joinsStatus (statuses : List TransactionStatus) (output : TableOutput) : Bool :=
  store.transactions.any fun tx =>
    tx.transactionId == output.transactionId && statuses.contains tx.status

/- `applyKnexBaseFilters`. -/
def matchesBase (userId : Nat) (basketId : Option Nat)
  (includeSpent managedChangeOnly : Bool) (output : TableOutput) : Bool :=
  joinsStatus store listedStatuses output && output.userId == userId &&
    basketId.all (output.basketId == some ·) && (includeSpent || output.spendable) &&
    (!managedChangeOnly ||
      (hasManagedChangeFields output && isNonEmptyString output.derivationPrefix &&
        isNonEmptyString output.derivationSuffix && output.spentBy.isNone))

/- `applyKnexTagFilters`: maps that are deleted do not count. -/
def matchesTags (tagIds : List Nat) (queryModeAll : Bool)
  (output : TableOutput) : Bool :=
  if queryModeAll then
    tagIds.all fun tagId => store.tagMaps.any fun row =>
      row.outputId == output.outputId && row.outputTagId == tagId && !row.isDeleted
  else
    store.tagMaps.any fun row =>
      row.outputId == output.outputId && tagIds.contains row.outputTagId && !row.isDeleted

/- `createKnexOutputQuery`, in the order of ids. -/
def baseQuery (userId : Nat) (basketId : Option Nat)
  (includeSpent managedChangeOnly : Bool) (tagIds : List Nat)
  (queryModeAll : Bool) : List TableOutput :=
  store.outputs.filter fun output =>
    matchesBase store userId basketId includeSpent managedChangeOnly output && (tagIds.isEmpty ||
        matchesTags store tagIds queryModeAll output)

def inferShortPageTotal (outputsLength limit skipped : Nat) : Option Nat :=
  if 0 < limit ∧ limit ≤ outputsLength then none
  else if outputsLength = 0 ∧ 0 < skipped then none
  else some (skipped + outputsLength)

def resolveKnexListTotal (outputsLength limit skipped countTotal : Nat) : Nat :=
  (inferShortPageTotal outputsLength limit skipped).getD countTotal

def labelsByTransactionId (transactionId : Nat) : List String :=
  store.labels.flatMap fun label =>
    (store.labelMaps.filter fun row =>
      row.txLabelId == label.txLabelId && row.transactionId == transactionId &&
        !row.isDeleted && !label.isDeleted).map fun _ => label.label

def tagsByOutputId (outputId : Nat) : List String :=
  store.tags.flatMap fun tag =>
    (store.tagMaps.filter fun row =>
      row.outputTagId == tag.outputTagId && row.outputId == outputId &&
        !row.isDeleted && !tag.isDeleted).map fun _ => tag.tag

def hydrateKnexWalletOutput (vargs : ValidListOutputsArgs)
  (output : TableOutput) : WalletOutput where
  satoshis := output.satoshis
  spendable := output.spendable
  outpoint := outpointText "null" output
  customInstructions := customInstructionsOf vargs output
  labels :=
    if vargs.includeLabels then some (labelsByTransactionId store output.transactionId)
    else none
  tags :=
    if vargs.includeTags then some (tagsByOutputId store output.outputId)
    else none
  lockingScript :=
    if vargs.includeLockingScripts then (store.validateOutputScript output).lockingScript
    else none

/- `StorageKnex.findOutputs`, in the order of ids. -/
def findOutputs (matchesPartial : TableOutput → Bool) (txStatus : List TransactionStatus)
  (noScript : Bool) : List TableOutput :=
  (store.outputs.filter fun output =>
      matchesPartial output && joinsStatus store txStatus output).map fun output =>
    if noScript then { output with lockingScript := none }
    else store.validateOutputScript output

def reads : PrefixReads where
  findOutputs := findOutputs store
  getLabelsForTransactionId := labelsByTransactionId store
  getTagsForOutputId := tagsByOutputId store

/- The page of an operation, or all that it may read. -/
def selectRows (specOp : ListOutputsSpecOp) (limit offset : Nat)
  (rows : List TableOutput) : List TableOutput :=
  if specOp.ignoreLimit then
    match specOp.maximumCandidateCount with
    | none => rows
    | some maximum => rows.take (maximum + 1)
  else (rows.drop offset).take limit

/- The `filterOutputs` of an operation, and the store after. -/
def filterRows (services : ListingServices β) (store : ListingStore) (userId : Nat)
  (specOp : ListOutputsSpecOp) (specOpTags : List String) (rows : List TableOutput) :
  Except ListingError (List TableOutput × ListingStore) :=
  if specOp.filterOutputs then
    reviewUtxoOutputs services store userId rows (specOpTags.contains "release")
  else .ok (rows, store)

/- The rows exceed what the operation may review. -/
def checkCandidateCount
  (specOp : ListOutputsSpecOp) (rows : List TableOutput) : Except ListingError Unit :=
  match specOp.maximumCandidateCount with
  | none => .ok ()
  | some maximum =>
    if maximum < rows.length then .error (.tooManyCandidates specOp.name maximum)
    else .ok ()

def listResolved (services : ListingServices β) (store : ListingStore) (userId : Nat)
  (vargs : ValidListOutputsArgs) (specOp : ListOutputsSpecOp) (resolved : ResolvedListTags)
  (tagIds : List Nat) :
  Except ListingError (ListOutputsResult β) := do
  let offset := (normalizeListOffset vargs.offset).1
  let descending := (normalizeListOffset vargs.offset).2
  let query (store : ListingStore) :=
    baseQuery store userId resolved.basketId specOp.includeSpent specOp.managedChangeOnly
      tagIds vargs.tagQueryModeAll
  if specOp.totalOutputsIsSumOfSatoshis then return balanceResult (query store)
  else do
    let rows := selectRows specOp vargs.limit offset (orderRows descending (query store))
    checkCandidateCount specOp rows
    let (outputs, reviewed) ← filterRows services store userId specOp resolved.specOpTags rows
    if specOp.resultFromOutputs then return balanceResult outputs
    else
      let skipped :=
        if specOp.ignoreLimit then 0
        else offset
      listingResult services vargs (resolveKnexListTotal outputs.length vargs.limit
          skipped (query reviewed).length)
        outputs (outputs.map (hydrateKnexWalletOutput reviewed vargs))

def listOutputs (services : ListingServices β) (store : ListingStore) (userId : Nat)
  (vargs : ValidListOutputsArgs) : Except ListingError (ListOutputsResult β) :=
  let op := getListOutputsSpecOp vargs.basket vargs.tags
  match store.resolveBasketId userId op.basket with
  | none => .ok { totalOutputs := 0 }
  | some basketId =>
    let resolved := resolveListTags op.specOp op.tags basketId
    match op.specOp.resultFromTags with
    | some operation =>
      resultFromTags services (reads store) store userId vargs resolved.specOpTags operation
    | none =>
      let tagIds := store.findTagIds userId resolved.tags
      if tagQueryCannotMatch resolved.tags tagIds vargs.tagQueryModeAll then
        .ok { totalOutputs := 0 }
      else listResolved services store userId vargs op.specOp resolved tagIds

end Knex

-- IndexedDB

namespace Idb

variable (store : ListingStore)

def eligibleOutputTransactionIds (userId : Nat) (txStatus : List TransactionStatus) : List Nat :=
  txStatus.flatMap fun status =>
    (store.transactions.filter fun tx =>
      tx.status == status && tx.userId == userId).map (·.transactionId)

def outputMatchesTags (outputId : Nat) (tagIds : List Nat) (queryModeAll : Bool) : Bool :=
  ((store.tagMaps.filter (·.outputId == outputId)).foldl
    (fun (ids : List Nat) row =>
      if ids.contains row.outputTagId then if queryModeAll then ids.erase row.outputTagId else []
      else ids)
    tagIds).isEmpty

/-
  `filterOutputs` by a partial of a user: the rows of the cursor that match, without those that
  are skipped, up to a limit above zero.
-/
def filterOutputs (userId : Nat) (matchesPartial : TableOutput → Bool)
  (txStatus : List TransactionStatus) (tagIds : List Nat) (queryModeAll descending : Bool)
  (offset limit : Nat) : List TableOutput :=
  let rows :=
    (orderRows descending store.outputs).filter fun output =>
      matchesPartial output && (eligibleOutputTransactionIds store userId
          txStatus).contains output.transactionId &&
        (tagIds.isEmpty || outputMatchesTags store output.outputId tagIds queryModeAll)
  if limit = 0 then rows.drop offset
  else (rows.drop offset).take limit

/- `findOutputs`: scripts are dropped, or read. -/
def scriptRows (noScript : Bool) (rows : List TableOutput) : List TableOutput :=
  rows.map fun output =>
    if noScript then { output with lockingScript := none }
    else store.validateOutputScript output

def getLabelsForTransactionId (transactionId : Nat) : List String :=
  (store.labelMaps.filter fun row =>
      row.transactionId == transactionId && !row.isDeleted).flatMap fun row =>
    ((store.labels.filter fun label =>
      label.txLabelId == row.txLabelId && !label.isDeleted).map (·.label))

def getTagsForOutputId (outputId : Nat) : List String :=
  (store.tagMaps.filter fun row => row.outputId == outputId && !row.isDeleted).flatMap fun row =>
    ((store.tags.filter fun tag =>
      tag.outputTagId == row.outputTagId && !tag.isDeleted).map (·.tag))

def reads (userId : Nat) : PrefixReads where
  findOutputs := fun matchesPartial txStatus noScript =>
    scriptRows store noScript
      (filterOutputs store userId matchesPartial txStatus [] false false 0 0)
  getLabelsForTransactionId := getLabelsForTransactionId store
  getTagsForOutputId := getTagsForOutputId store

def matchesPartial
  (userId basketId : Nat) (managedChangeOnly : Bool) (output : TableOutput) : Bool :=
  output.userId == userId && output.basketId == some basketId && output.spendable &&
    (!managedChangeOnly || hasManagedChangeFields output)

def pagedArgs (specOp : ListOutputsSpecOp) (limit offset : Nat) : Nat × Nat :=
  let ignoreLimit := specOp.ignoreLimit
  let managed := specOp.managedChangeOnly
  if !ignoreLimit && !managed then (offset, limit)
  else
    match specOp.maximumCandidateCount with
    | some maximum => (0, maximum + 1)
    | none => (0, 0)

def loadIdbOutputs (userId : Nat) (basketId : Option Nat) (tagIds : List Nat)
  (queryModeAll : Bool) (specOp : ListOutputsSpecOp) (limit offset : Nat) (descending : Bool) :
  Except ListingError (List TableOutput × Nat) :=
  match basketId with
  | none => .error (.undefinedPartial "args.partial.basketId")
  | some basketId => do
      let ignoreLimit := specOp.ignoreLimit
      let managed := specOp.managedChangeOnly
      let noScript := !specOp.includeOutputScripts
      let read := filterOutputs store userId (matchesPartial userId basketId managed)
          listedStatuses tagIds queryModeAll descending
      let paged := pagedArgs specOp limit offset
      let found := scriptRows store noScript (read paged.1 paged.2)
      Knex.checkCandidateCount specOp found
      let outputs :=
        if managed then
          found.filter fun output => isManagedChangeOutput output && output.spentBy.isNone
        else found
      if managed && !ignoreLimit then return ((outputs.drop offset).take limit, outputs.length)
      else
        let skipped := if ignoreLimit then 0 else offset
        if outputs.length ≠ limit ∧ (0 < outputs.length ∨ skipped = 0) then
          return (outputs, skipped + outputs.length)
        else return (outputs, (read 0 0).length)

def labelsByTxid (cache : List (String × List String)) (txid : String)
  (transactionId : Nat) : List String :=
  (cache.lookup txid).getD (getLabelsForTransactionId store transactionId)

/- `hydrateIdbWalletOutput`, with the labels read so far. -/
def hydrateIdbWalletOutput (vargs : ValidListOutputsArgs) (cache : List (String × List String))
  (output : TableOutput) : WalletOutput where
  satoshis := output.satoshis
  spendable := output.spendable
  outpoint := outpointText "undefined" output
  customInstructions := customInstructionsOf vargs output
  labels :=
    if vargs.includeLabels then
      (output.txid.filter (· ≠ "")).map fun txid =>
        labelsByTxid store cache txid output.transactionId
    else none
  tags :=
    if vargs.includeTags then some (getTagsForOutputId store output.outputId)
    else none
  lockingScript :=
    if vargs.includeLockingScripts then (store.validateOutputScript output).lockingScript
    else none

def cacheLabels (cache : List (String × List String))
  (output : TableOutput) : List (String × List String) :=
  match output.txid.filter (· ≠ "") with
  | none => cache
  | some txid =>
    if (cache.lookup txid).isSome then cache
    else cache ++ [(txid, getLabelsForTransactionId store output.transactionId)]

/- `hydrateIdbOutputResult`, but for the BEEF. -/
def hydrateIdbOutputs (store : ListingStore) (vargs : ValidListOutputsArgs) :
  List (String × List String) → List TableOutput → List WalletOutput
| _, [] => []
| cache, output :: rest =>
  hydrateIdbWalletOutput store vargs cache output ::
    hydrateIdbOutputs store vargs (cacheLabels store cache output) rest

def listResolved (services : ListingServices β) (store : ListingStore) (userId : Nat)
  (vargs : ValidListOutputsArgs) (specOp : ListOutputsSpecOp) (resolved : ResolvedListTags)
  (tagIds : List Nat) :
  Except ListingError (ListOutputsResult β) := do
  let offset := (normalizeListOffset vargs.offset).1
  let descending := (normalizeListOffset vargs.offset).2
  let (rows, total) ← loadIdbOutputs store userId resolved.basketId tagIds
      vargs.tagQueryModeAll specOp vargs.limit offset descending
  let (outputs, reviewed) ← Knex.filterRows services store userId specOp resolved.specOpTags rows
  let totalOutputs :=
    if specOp.filterOutputs then outputs.length
    else total
  if specOp.resultFromOutputs then return balanceResult outputs
  else
    listingResult services vargs totalOutputs outputs (hydrateIdbOutputs reviewed vargs [] outputs)

def listOutputsIdb (services : ListingServices β) (store : ListingStore) (userId : Nat)
  (vargs : ValidListOutputsArgs) : Except ListingError (ListOutputsResult β) :=
  let op := getListOutputsSpecOp vargs.basket vargs.tags
  match store.resolveBasketId userId op.basket with
  | none => .ok { totalOutputs := 0 }
  | some basketId =>
    let resolved := resolveListTags op.specOp op.tags basketId
    match op.specOp.resultFromTags with
    | some operation =>
      resultFromTags services (reads store userId) store userId vargs resolved.specOpTags operation
    | none =>
      let tagIds := store.findTagIds userId resolved.tags
      if tagQueryCannotMatch resolved.tags tagIds vargs.tagQueryModeAll then
        .ok { totalOutputs := 0 }
      else listResolved services store userId vargs op.specOp resolved tagIds

end Idb

end TsStack.Wallet
