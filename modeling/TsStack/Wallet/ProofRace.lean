import TsStack.Wallet.PendingDescendants

/-
  Broadcasting a request while proofs of it arrive.

  The broadcaster reads the request before it calls the
  network, and writes what it read, with changes, after the
  call.  A step is what runs between two awaited calls; the
  answers of the calls come with the event that wakes it.
-/

-- Requests

namespace TsStack.Wallet

/- A row of requests, and an entity that was read from one. -/
structure ProofReq where
  provenTxReqId : Nat
  txid : String
  status : ProvenTxReqStatus
  rawTx : Option (List UInt8)
  inputBEEF : Option (List UInt8) := none
  provenTxId : Option Nat := none
  attempts : Nat := 0
  notified : Bool := false
  transactionIds : Option (List Nat) := none
deriving DecidableEq

namespace ProofReq

variable (req : ProofReq)

/- `unpackApi`: an id is notified once. -/
def unpackApi : ProofReq :=
  { req with
    transactionIds := req.transactionIds.map List.eraseDups }

def provenId : Option Nat :=
  req.provenTxId.filter (0 < ·)

/-
  `updateStorageDynamicProperties`: what the entity says is
  written, but for the id of a proof that it does not have.
-/
def writeDynamics (row entity : ProofReq) : ProofReq :=
  { row with
    status := entity.status
    provenTxId := entity.provenId <|> row.provenTxId
    attempts := entity.attempts
    notified := entity.notified
    transactionIds := entity.transactionIds }

/- `addNotifyTransactionId`, in order and each once. -/
def addNotifyTransactionId (id : Nat) : ProofReq :=
  { req with
    notified := false
    transactionIds := some ((req.transactionIds.getD [] ++ [id]).eraseDups
        |>.mergeSort fun left right => decide (left ≤ right)) }

def addMissingIds (ids : List Nat) : ProofReq :=
  ids.foldl (fun req id =>
      if (req.transactionIds.getD []).contains id then req
      else req.addNotifyTransactionId id)
    req

/- A request that can be posted has all its parts. -/
def isComplete : Bool :=
  req.rawTx.isSome && (req.transactionIds.getD []).length ≠ 0 && req.inputBEEF.isSome

/- The request as a row of the failing of inputs. -/
def table : TableProvenTxReq where
  updatedAt := 0
  provenTxReqId := req.provenTxReqId
  txid := req.txid
  status := req.status
  rawTx := req.rawTx.getD []
  notifyTransactionIds := req.transactionIds

end ProofReq

-- Results of a broadcast

structure PostTxResult where
  success : Bool := false
  doubleSpend : Bool := false
  serviceError : Bool := false
deriving DecidableEq

/- How many services said what. -/
structure PostTally where
  successCount : Nat := 0
  doubleSpendCount : Nat := 0
  statusErrorCount : Nat := 0
  serviceErrorCount : Nat := 0
deriving DecidableEq

inductive AggregateStatus where
| success
| doubleSpend
| invalidTx
| serviceError
deriving DecidableEq

/- `tallyTxidResults`, for one result more. -/
def PostTally.add (tally : PostTally) (result : PostTxResult) : PostTally :=
  if result.success then { tally with successCount := tally.successCount + 1 }
  else if result.doubleSpend then
    { tally with
      doubleSpendCount := tally.doubleSpendCount + 1 }
  else if result.serviceError then
    { tally with
      serviceErrorCount := tally.serviceErrorCount + 1 }
  else
    { tally with
      statusErrorCount := tally.statusErrorCount + 1 }

def tallyTxidResults (results : List PostTxResult) : PostTally :=
  results.foldl PostTally.add {}

/- `aggregatePostBeefResultsByTxid`, for one transaction. -/
def PostTally.status (tally : PostTally) : AggregateStatus :=
  if 0 < tally.successCount ∧ tally.doubleSpendCount = 0 then .success
  else if 0 < tally.doubleSpendCount then .doubleSpend
  else if 0 < tally.statusErrorCount then .invalidTx
  else .serviceError

def AggregateStatus.newReqStatus :
  AggregateStatus → ProvenTxReqStatus
| .success => .unmined
| .doubleSpend => .doubleSpend
| .invalidTx => .invalid
| .serviceError => .sending

def AggregateStatus.newTxStatus :
  AggregateStatus → TransactionStatus
| .success => .unproven
| .doubleSpend => .failed
| .invalidTx => .failed
| .serviceError => .sending

def applyAggregateStatus (req : ProofReq) (status : AggregateStatus) : ProofReq :=
  { req with
    status := status.newReqStatus
    attempts :=
      if status = .serviceError then req.attempts + 1
      else req.attempts }

/-
  What `confirmDoubleSpend` makes of a double spend: a known transaction is none, and one without
  an input that is spent for certain is tried again unless a service took it.
-/
def confirmedStatus (tally : PostTally) (known : Bool) (spentInputs : Nat) : AggregateStatus :=
  if known then .success
  else if 0 < spentInputs then .doubleSpend
  else if 0 < tally.successCount then .success
  else .serviceError

structure PostOutcome where
  seen : ProvenTxReqStatus
  aggregate : AggregateStatus
deriving DecidableEq

def isAdvanced (status : ProvenTxReqStatus) : Bool :=
  status == .completed || status == .unmined

def PostOutcome.prescribed (outcome : PostOutcome) : ProvenTxReqStatus :=
  if isAdvanced outcome.seen then outcome.seen
  else outcome.aggregate.newReqStatus

-- Stages

/- What follows when the broadcaster has written. -/
inductive AfterSaving where
| stopped
| refreshing (tally : PostTally)
| settling (outcome : PostOutcome)
| finished (outcome : PostOutcome)
deriving DecidableEq

/- The awaited call of `attemptToPostReqsToNetwork`. -/
inductive PostStage where
| idle
| validating (req : ProofReq)
| merging (req : ProofReq)
| posting (req : ProofReq)
| saving (req : ProofReq) (next : AfterSaving)
| refreshing (tally : PostTally)
| confirming (req : ProofReq) (tally : PostTally)
| settling (req : ProofReq) (ids : List Nat)
    (outcome : PostOutcome)
| checking (req : ProofReq) (outcome : PostOutcome)
| marking (req : ProofReq) (stale : List Nat)
    (outcome : PostOutcome)
| stopped
| finished (outcome : PostOutcome)
deriving DecidableEq

/- The awaited call of `updateProvenTxReqWithNewProvenTx`. -/
inductive ProofStage where
| loading (txid : String)
| finding (txid : String) (req : ProofReq)
| inserting (txid : String) (req : ProofReq)
| saving (req : ProofReq) (provenTxId : Nat)
| reconciling (provenTxId repairAttempts : Nat)
| unfailing (provenTxId repairAttempts : Nat)
| preparing (provenTxId repairAttempts : Nat)
    (prepared : List Nat)
| restoring (provenTxId repairAttempts : Nat)
    (prepared : List Nat) (verdicts : List (Nat × Option Bool))
| returned
| thrown
deriving DecidableEq

/- The store around one request, its broadcast and the proofs of it that arrive. -/
structure ProofWorld extends EntityStorage where
  req : ProofReq
  provenTxs : List (String × Nat) := []
  lastProvenTxId : Nat := 0
  posting : PostStage := .idle
  proofs : List ProofStage := []
deriving DecidableEq

/-
  The answer to an awaited call: whether it returned, what
  the services said, and which outputs are still unspent.
-/
structure ServiceAnswer where
  now : Int := 0
  ok : Bool := true
  isUnknownTxid : Bool := false
  results : List PostTxResult := []
  known : Bool := false
  spentInputs : Nat := 0
  verdicts : List (Nat × Option Bool) := []

inductive ProofEvent where
| post
| postResume (answer : ServiceAnswer)
| prove (txid : String)
| proofResume (task : Nat) (answer : ServiceAnswer)

-- Broadcasting

def EntityStorage.updateTransactionsStatus
  (storage : EntityStorage) (now : Int) (ids : List Nat) (status : TransactionStatus) :
  Except StatusError EntityStorage :=
  ids.foldlM (fun storage id => storage.updateTransactionStatus now status (some id) none none)
    storage

namespace ProofWorld

variable (world : ProofWorld)

def setPosting (stage : PostStage) : ProofWorld :=
  { world with posting := stage }

variable (req : ProofReq)

/- A request that lacks a part is invalid at once. -/
def afterValidating : ProofWorld :=
  if req.isComplete then world.setPosting (.merging req)
  else world.setPosting (.saving { req with status := .invalid } .stopped)

/- The request after its ancestors could not be merged. -/
def mergeFailed (isUnknownTxid : Bool) : ProofReq :=
  if 6 < req.attempts + 1 ∨ isUnknownTxid = true then
    { req with
      attempts := req.attempts + 1
      status := .invalid }
  else { req with attempts := req.attempts + 1 }

def afterMerging (answer : ServiceAnswer) : ProofWorld :=
  if answer.ok then world.setPosting (.posting req)
  else world.setPosting (.saving (mergeFailed req answer.isUnknownTxid) .stopped)

/- `postBeef` answers, and the notes are written. -/
def afterPosting (answer : ServiceAnswer) : ProofWorld :=
  if answer.ok then world.setPosting (.saving req (.refreshing (tallyTxidResults answer.results)))
  else world.setPosting .stopped

def afterSettled (outcome : PostOutcome) : PostStage :=
  if outcome.aggregate.newTxStatus = .failed then .checking req outcome
  else .finished outcome

def afterSaved : AfterSaving → PostStage
| .stopped => .stopped
| .refreshing tally => .refreshing tally
| .settling outcome =>
  match req.transactionIds with
  | some ids => .settling req ids outcome
  | none => afterSettled req outcome
| .finished outcome => .finished outcome

def afterSaving (next : AfterSaving) : ProofWorld :=
  { world with
    req := world.req.writeDynamics req
    posting := afterSaved req next }

def applyResult (aggregate : AggregateStatus) : ProofWorld :=
  world.setPosting (.saving (applyAggregateStatus req aggregate)
      (.settling ⟨req.status, aggregate⟩))

/- The request is read again, and may have advanced. -/
def afterRefreshing (tally : PostTally) : ProofWorld :=
  let req := world.req.unpackApi
  if isAdvanced req.status then world.setPosting (.finished ⟨req.status, tally.status⟩)
  else if tally.status = .doubleSpend then world.setPosting (.confirming req tally)
  else world.applyResult req tally.status

def afterConfirming (tally : PostTally)
  (answer : ServiceAnswer) : ProofWorld :=
  if answer.ok then world.applyResult req (confirmedStatus tally answer.known answer.spentInputs)
  else world.setPosting .stopped

def afterSettling (ids : List Nat) (outcome : PostOutcome)
  (answer : ServiceAnswer) : ProofWorld :=
  match world.toEntityStorage.updateTransactionsStatus
      answer.now ids outcome.aggregate.newTxStatus with
  | .error _ => world.setPosting .stopped
  | .ok storage =>
    { world with
      toEntityStorage := storage
      posting := afterSettled req outcome }

def verdictOf (verdicts : List (Nat × Option Bool)) (outputId : Nat) : Option Bool :=
  (verdicts.lookup outputId).join

/- `markConfirmedStaleReqInputs`, up to its writes. -/
def afterChecking (outcome : PostOutcome)
  (answer : ServiceAnswer) : ProofWorld :=
  match ProviderStorage.findLocalInputs
      { toEntityStorage := world.toEntityStorage }
      req.table with
  | .error _ => world.setPosting .stopped
  | .ok localInputs =>
    let checked := (localInputs.map fun entry => entry.1.outputId).filter
        fun id => (verdictOf answer.verdicts id).isSome
    if !answer.ok then world.setPosting .stopped
    else if checked = [] then world.setPosting (.finished outcome)
    else
      world.setPosting (.marking req (checked.filter fun id =>
            verdictOf answer.verdicts id == some false)
          outcome)

/- One stale input more is marked as spent. -/
def afterMarking (outcome : PostOutcome)
  (answer : ServiceAnswer) : List Nat → ProofWorld
| [] => world.setPosting (.saving req (.finished outcome))
| id :: rest =>
  { world with
    toEntityStorage := world.toEntityStorage.updateOutput id (·.quarantine answer.now)
    posting := .marking req rest outcome }

def resumePosting (answer : ServiceAnswer) : PostStage → Option ProofWorld
| .idle => none
| .validating req => some (world.afterValidating req)
| .merging req => some (world.afterMerging req answer)
| .posting req => some (world.afterPosting req answer)
| .saving req next => some (world.afterSaving req next)
| .refreshing tally => some (world.afterRefreshing tally)
| .confirming req tally => some (world.afterConfirming req tally answer)
| .settling req ids outcome => some (world.afterSettling req ids outcome answer)
| .checking req outcome => some (world.afterChecking req outcome answer)
| .marking req stale outcome => some (world.afterMarking req outcome answer stale)
| .stopped => none
| .finished _ => none

end ProofWorld

-- Proofs

def TableOutput.allocate (now : Int) (transactionId : Nat) (output : TableOutput) : TableOutput :=
  { output with
    spendable := false
    spentBy := some transactionId
    updatedAt := now }

def TableOutput.setSpendable (now : Int) (spendable : Bool) (output : TableOutput) : TableOutput :=
  { output with spendable, updatedAt := now }

namespace EntityStorage

/- One input of `restoreProofRecoveryInputs`. -/
def restoreInput (now : Int) (tx : TableTransaction) (storage : EntityStorage)
  (input : TransactionInput) : EntityStorage :=
  match input.sourceTXID with
  | none => storage
  | some sourceTXID =>
    match storage.findOutputs fun output =>
        output.userId == tx.userId && output.txid == some (String.ofList sourceTXID) &&
          output.vout == input.sourceOutputIndex with
    | [output] => storage.updateOutput output.outputId (·.allocate now tx.transactionId)
    | _ => storage

/- One output of `restoreProofRecoveryOutputs`: without a verdict it is left as it is. -/
def restoreOutput (now : Int) (verdicts : List (Nat × Option Bool)) (storage : EntityStorage)
  (output : TableOutput) : Option EntityStorage :=
  match verdicts.lookup output.outputId with
  | none => none
  | some none => some storage
  | some (some isUtxo) =>
    if isUtxo = output.spendable then some storage
    else some (storage.updateOutput output.outputId (·.setSpendable now isUtxo))

def ownedOutputs (storage : EntityStorage) (tx : TableTransaction) : List TableOutput :=
  storage.findOutputs fun output =>
    output.userId == tx.userId && output.transactionId == tx.transactionId

def restoreTransactionForProof (now : Int) (inputs : List TransactionInput) (prepared : List Nat)
  (verdicts : List (Nat × Option Bool)) (storage : EntityStorage)
  (tx : TableTransaction) : Option EntityStorage :=
  if prepared.contains tx.transactionId then
    let unfailed := storage.updateTransaction tx.transactionId
      fun row => { row with status := .unproven, updatedAt := now }
    let restored := inputs.foldl (restoreInput now tx) unfailed
    (restored.ownedOutputs tx).foldlM (restoreOutput now verdicts) restored
  else none

end EntityStorage

namespace ProofWorld

variable (world : ProofWorld)

def setProof (task : Nat) (stage : ProofStage) : ProofWorld :=
  { world with proofs := world.proofs.set task stage }

def ownTransactions :
  List TableTransaction :=
  world.findTransactions (·.txid == some world.req.txid)

def findProvenTxs (txid : String) : List (String × Nat) :=
  world.provenTxs.filter (·.1 == txid)

def completed (req : ProofReq) (provenTxId : Nat) : ProofReq :=
  { req with
    status := .completed
    provenTxId := some provenTxId }

def isCompletedBy (req : ProofReq) (provenTxId : Nat) : Bool :=
  req.status == .completed && req.provenTxId == some provenTxId

def afterLoading (task : Nat) (txid : String) : ProofWorld :=
  let req := world.req.unpackApi
  if req.txid.toLower ≠ txid.toLower then world.setProof task .thrown
  else if req.provenId.isSome then world.setProof task (.finding txid req)
  else world.setProof task (.inserting txid req)

/- Someone was faster, and the proof is read. -/
def afterFinding (task : Nat) (txid : String) (req : ProofReq) : ProofWorld :=
  match world.findProvenTxs txid with
  | [proven] =>
    if isCompletedBy req proven.2 then world.setProof task (.reconciling proven.2 0)
    else world.setProof task (.saving (completed req proven.2) proven.2)
  | _ => world.setProof task .thrown

def complete (task : Nat) (req : ProofReq) (provenTxId : Nat) : ProofWorld :=
  { world with
    req :=
      if isCompletedBy req provenTxId then world.req
      else world.req.writeDynamics (completed req provenTxId)
    proofs := world.proofs.set task (.reconciling provenTxId 0) }

/- `findOrInsertProvenTx`, and the request in one go. -/
def afterInserting (task : Nat) (txid : String) (req : ProofReq)
  (answer : ServiceAnswer) : ProofWorld :=
  if answer.ok then
    match world.findProvenTxs txid with
    | [] =>
      { world with
        provenTxs := world.provenTxs ++ [(txid, world.lastProvenTxId + 1)]
        lastProvenTxId := world.lastProvenTxId + 1 }
      |>.complete task req (world.lastProvenTxId + 1)
    | [proven] => world.complete task req proven.2
    | _ => world.setProof task .thrown
  else world.setProof task .thrown

def afterProofSaving (task : Nat) (req : ProofReq) (provenTxId : Nat) : ProofWorld :=
  { world with
    req := world.req.writeDynamics req
    proofs := world.proofs.set task (.reconciling provenTxId 0) }

def isFailed (tx : TableTransaction) : Bool :=
  tx.status == .failed

def isProvenBy (provenTxId : Nat) (tx : TableTransaction) : Bool :=
  tx.status == .completed && tx.provenTxId == some provenTxId

/- `notifyTransactionsOfProof`, of one transaction. -/
def notifyTransaction
  (now : Int) (provenTxId : Nat) (storage : EntityStorage) (id : Nat) : EntityStorage :=
  storage.updateTransaction id fun row =>
    { row with
      status := .completed
      provenTxId := some provenTxId
      updatedAt := now }

def notify (now : Int) (provenTxId : Nat) : EntityStorage :=
  ((world.ownTransactions.filter (!isProvenBy provenTxId ·)).map (·.transactionId)).foldl
    (notifyTransaction now provenTxId) world.toEntityStorage

/-
  `reconcileProvenTxReqTransactions`: the transactions are
  completed, unless one of them has failed.
-/
def afterReconciling (task : Nat) (provenTxId repairAttempts : Nat)
  (answer : ServiceAnswer) : ProofWorld :=
  if !answer.ok then world.setProof task .thrown
  else if world.ownTransactions.any isFailed then
    if 2 ≤ repairAttempts then world.setProof task .thrown
    else world.setProof task (.unfailing provenTxId (repairAttempts + 1))
  else
    let req := world.req.unpackApi.addMissingIds (world.ownTransactions.map (·.transactionId))
    { world with
      toEntityStorage := world.notify answer.now provenTxId
      req := world.req.writeDynamics { req with notified := true }
      proofs := world.proofs.set task .returned }

def afterUnfailing (task : Nat) (provenTxId repairAttempts : Nat) : ProofWorld :=
  match (world.ownTransactions.filter isFailed).map (·.transactionId) with
  | [] => world.setProof task (.reconciling provenTxId repairAttempts)
  | prepared => world.setProof task (.preparing provenTxId repairAttempts prepared)

def rawInputs (req : ProofReq) : Option (List TransactionInput) :=
  req.rawTx.bind fun rawTx =>
    match Transaction.fromBinary rawTx with
    | .error _ => none
    | .ok tx => some tx.inputs

/- The services were asked about the outputs. -/
def afterPreparing (task : Nat) (provenTxId repairAttempts : Nat) (prepared : List Nat)
  (answer : ServiceAnswer) : ProofWorld :=
  if answer.ok && (rawInputs world.req).isSome then
    world.setProof task (.restoring provenTxId repairAttempts prepared answer.verdicts)
  else world.setProof task .thrown

/- `unfailTransactionsForProof`, its transaction. -/
def afterRestoring (task : Nat) (provenTxId repairAttempts : Nat) (prepared : List Nat)
  (verdicts : List (Nat × Option Bool)) (answer : ServiceAnswer) : ProofWorld :=
  match (world.ownTransactions.filter isFailed).foldlM
      (EntityStorage.restoreTransactionForProof answer.now
        ((rawInputs world.req).getD []) prepared verdicts)
      world.toEntityStorage with
  | none => world.setProof task .thrown
  | some storage =>
    { world with
      toEntityStorage := storage
      req := world.req.writeDynamics (world.req.unpackApi.addMissingIds
            (world.ownTransactions.map (·.transactionId)))
      proofs := world.proofs.set task (.reconciling provenTxId repairAttempts) }

def resumeProof (task : Nat) (answer : ServiceAnswer) : ProofStage → Option ProofWorld
| .loading txid => some (world.afterLoading task txid)
| .finding txid req => some (world.afterFinding task txid req)
| .inserting txid req => some (world.afterInserting task txid req answer)
| .saving req provenTxId => some (world.afterProofSaving task req provenTxId)
| .reconciling provenTxId repairAttempts =>
  some (world.afterReconciling task provenTxId repairAttempts answer)
| .unfailing provenTxId repairAttempts => some (world.afterUnfailing task provenTxId repairAttempts)
| .preparing provenTxId repairAttempts prepared =>
  some (world.afterPreparing task provenTxId repairAttempts prepared answer)
| .restoring provenTxId repairAttempts prepared verdicts =>
  some (world.afterRestoring task provenTxId repairAttempts prepared verdicts answer)
| .returned => none
| .thrown => none

def step : ProofEvent → Option ProofWorld
| .post =>
  if world.posting = .idle then some (world.setPosting (.validating world.req.unpackApi))
  else none
| .postResume answer => world.resumePosting answer world.posting
| .prove txid => some { world with proofs := world.proofs ++ [.loading txid] }
| .proofResume task answer => world.proofs[task]?.bind (world.resumeProof task answer)

def runs (events : List ProofEvent) (world : ProofWorld) : Option ProofWorld :=
  events.foldlM step world

end ProofWorld

end TsStack.Wallet
