import TsStack.Lib.Interleaving
import TsStack.Overlay.GraphStorage
import TsStack.Overlay.TopicAnchors

/-
  The outputs of the topics and the changes of `submit`.

  A storage call is one step.  The calls that `submit` makes
  for the coins of one transaction run together, and their
  steps interleave in any order.  Submissions are made one
  after another.
-/

-- Storage

namespace TsStack.Overlay

open Gasp (Outpoint)

def MAX_HISTORY_PRUNE_OUTPUTS : Nat := 100000

def MAX_OUTPUT_RELATIONS : Nat := 100000

def MAX_STORED_OUTPUT_SCRIPT_BYTES : Nat :=
  64 * 1024 * 1024

/- The fields of `Output` read here. -/
structure Output where
  outpoint : Outpoint
  topic : JsString
  outputScript : Bytes
  satoshis : Nat
  spent : Bool := false
  spentBy : Option JsString := none
  outputsConsumed : List Outpoint
  consumedBy : List Outpoint
deriving DecidableEq, Repr

/- Two references name one output. -/
def sameOutput (left right : Outpoint) : Bool :=
  toLowerCase left.txid = toLowerCase right.txid ∧ left.outputIndex = right.outputIndex

structure OutputStorage where
  outputs : List Output := []
  applied : List (JsString × JsString) := []
deriving DecidableEq, Repr

namespace OutputStorage

variable (storage : OutputStorage) (outpoint : Outpoint)

/- The key of a row. -/
def isOutput (topic : JsString) (output : Output) : Bool :=
  output.outpoint = outpoint ∧ output.topic = topic

def findOutput (topic : JsString) : Option Output :=
  storage.outputs.find? (isOutput outpoint topic)

/- `findOutput` of an output that is not spent. -/
def findUnspentOutput (topic : JsString) : Option Output :=
  (storage.findOutput outpoint topic).filter (!·.spent)

/- `insertOutput`, which ignores a conflict. -/
def insertOutput (output : Output) : OutputStorage :=
  if (storage.findOutput output.outpoint output.topic).isSome then storage
  else { storage with outputs := storage.outputs ++ [output] }

def deleteOutput (topic : JsString) : OutputStorage :=
  { storage with
    outputs := storage.outputs.filter fun output => !isOutput outpoint topic output }

/- The row of a key is changed. -/
def updateOutput (topic : JsString)
  (update : Output → Output) : OutputStorage :=
  { storage with
    outputs :=
      storage.outputs.map fun output =>
        if isOutput outpoint topic output then update output
        else output }

def updateConsumedBy (topic : JsString)
  (consumedBy : List Outpoint) : OutputStorage :=
  storage.updateOutput outpoint topic fun output => { output with consumedBy := consumedBy }

def markUTXOAsSpent (topic spendingTxid : JsString) :
  Except JsError OutputStorage :=
  match storage.findOutput outpoint topic with
  | none => .error (.error ("Unable to atomically mark an unspent topical " ++ "output as spent"))
  | some output =>
    if output.spent then
      if output.spentBy = some spendingTxid then .ok storage
      else .error (.error ("Unable to atomically mark an unspent topical " ++ "output as spent"))
    else
      .ok (storage.updateOutput outpoint topic fun output =>
          { output with
            spent := true
            spentBy := some spendingTxid })

def insertAppliedTransaction (txid topic : JsString) : OutputStorage :=
  { storage with
    applied := storage.applied ++ [(txid, topic)] }

def doesAppliedTransactionExist (txid topic : JsString) : Bool :=
  storage.applied.contains (txid, topic)

end OutputStorage

/- The loop over the relations of a row. -/
def assertRelations (label relationType : String) :
  List Outpoint → List Outpoint → Except JsError Unit
| _, [] => .ok ()
| seen, relation :: relations => do
    let path := label ++ " " ++ relationType ++ "[" ++ toString seen.length ++ "]"
    assertHash relation.txid (path ++ " txid")
    assertOutputIndex relation.outputIndex (path ++ " output index")
    if seen.any (sameOutput relation) then
      .error (.typeError (label ++ " has duplicate " ++ relationType ++ " relations"))
    else assertRelations label relationType (seen ++ [relation]) relations

def assertStoredOutputRelations (value : Output) (label : String) : Except JsError Unit := do
  assertHash value.outpoint.txid (label ++ " txid")
  assertOutputIndex value.outpoint.outputIndex (label ++ " output index")
  assertTopic value.topic (label ++ " topic")
  if value.outputScript.length > MAX_STORED_OUTPUT_SCRIPT_BYTES ∨
      isSafeInteger value.satoshis = false then
    throw (.typeError (label ++ " has invalid output data"))
  if value.consumedBy.length > MAX_OUTPUT_RELATIONS ∨
      value.outputsConsumed.length > MAX_OUTPUT_RELATIONS then
    throw (.typeError (label ++ " has invalid or oversized relations"))
  assertRelations label "consumedBy" [] value.consumedBy
  assertRelations label "outputsConsumed" [] value.outputsConsumed

def assertStoredOutputMatches (value : Output) (outpoint : Outpoint) (topic : JsString)
  (label : String) : Except JsError Unit := do
  assertStoredOutputRelations value label
  if sameOutput value.outpoint outpoint = false ∨ value.topic ≠ topic then
    throw (.typeError (label ++ " does not match the requested outpoint " ++ "and topic"))

-- Pruning

/- Where a run of `deleteUTXODeep` is. -/
inductive PrunePhase
| find
| next
| ancestors (current : Output) (rest : List Outpoint)
| update
    (current ancestor : Output) (remaining rest : List Outpoint)
| done
| failed (error : JsError)
deriving DecidableEq, Repr

/-
  The removal of a stale coin.  `queue` is the queue from the
  cursor on, and `queueLength` the length of all of it.
-/
structure PruneTask where
  coin : Outpoint
  phase : PrunePhase := .find
  queue : List Output := []
  queueLength : Nat := 0
  processed : List Outpoint := []
  relationCount : Nat := 0
deriving DecidableEq, Repr

/- The error `deleteUTXODeep` throws. -/
def pruneError : JsError :=
  .error "Failed to delete all stale outputs"

def remainingReferences (current ancestor : Output) : List Outpoint :=
  ancestor.consumedBy.filter fun reference => !sameOutput reference current.outpoint

def PruneTask.find (topic : JsString) (storage : OutputStorage) (task : PruneTask) : PruneTask :=
  match storage.findOutput task.coin topic with
  | none => { task with phase := .done }
  | some output =>
    match assertStoredOutputMatches output task.coin topic "Stale topical output" with
    | .error error => { task with phase := .failed error }
    | .ok () =>
      { task with
        phase := .next
        queue := [output]
        queueLength := 1 }

/- The head of the loop over the queue. -/
def PruneTask.next (storage : OutputStorage) (task : PruneTask) : OutputStorage × PruneTask :=
  match task.queue with
  | [] => (storage, { task with phase := .done })
  | current :: queue =>
    if task.queueLength > MAX_HISTORY_PRUNE_OUTPUTS then
      (storage, { task with phase := .failed pruneError })
    else
      match assertStoredOutputRelations current "Historical output" with
      | .error _ => (storage, { task with phase := .failed pruneError })
      | .ok () =>
        if task.processed.any (sameOutput current.outpoint) then
          (storage, { task with queue := queue })
        else if current.consumedBy ≠ [] then
          -- a retained descendant depends on the output
          (storage,
            { task with
              queue := queue
              processed := task.processed ++ [current.outpoint] })
        else
          (storage.deleteOutput current.outpoint current.topic,
            { task with
              phase := .ancestors current current.outputsConsumed
              queue := queue
              processed := task.processed ++ [current.outpoint] })

/- The next ancestor is looked up. -/
def PruneTask.ancestor
  (storage : OutputStorage) (task : PruneTask) (current : Output) (reference : Outpoint)
  (rest : List Outpoint) : PruneTask :=
  let relationCount := task.relationCount + 1
  if relationCount > MAX_OUTPUT_RELATIONS then { task with phase := .failed pruneError }
  else
    match storage.findOutput reference current.topic with
    | none =>
      { task with
        phase := .ancestors current rest
        relationCount := relationCount }
    | some ancestor =>
      match assertStoredOutputMatches ancestor reference
        current.topic "Historical ancestor output" with
      | .error _ => { task with phase := .failed pruneError }
      | .ok () =>
        let remaining := remainingReferences current ancestor
        if remaining.length = ancestor.consumedBy.length then
          { task with
            phase := .ancestors current rest
            relationCount := relationCount }
        else
          { task with
            phase := .update current ancestor remaining rest
            relationCount := relationCount }

def PruneTask.update
  (task : PruneTask) (current ancestor : Output) (remaining rest : List Outpoint) : PruneTask :=
  if remaining = [] then
    { task with
      phase := .ancestors current rest
      queue := task.queue ++ [{ ancestor with consumedBy := remaining }]
      queueLength := task.queueLength + 1 }
  else { task with phase := .ancestors current rest }

/- A step of the removal of a stale coin. -/
def pruneStep
  (topic : JsString) (storage : OutputStorage) (task : PruneTask) : OutputStorage × PruneTask :=
  match task.phase with
  | .find => (storage, task.find topic storage)
  | .next => task.next storage
  | .ancestors current (reference :: rest) =>
    (storage, task.ancestor storage current reference rest)
  | .ancestors _ [] => (storage, { task with phase := .next })
  | .update current ancestor remaining rest =>
    (storage.updateConsumedBy ancestor.outpoint ancestor.topic remaining,
      task.update current ancestor remaining rest)
  | .done => (storage, task)
  | .failed _ => (storage, task)

/- `removeStaleOutputs`, when it returns. -/
def RemovesStaleOutputs
  (topic : JsString) (coins : List Outpoint) (storage after : OutputStorage) : Prop :=
  ∃ tasks, Relation.ReflTransGen (Interleaving.Step (pruneStep topic))
        { store := storage
          tasks := coins.map fun coin => { coin := coin } }
        { store := after
          tasks := tasks } ∧
      ∀ task ∈ tasks, task.phase = .done

-- Admission

/- Where a run of `updateConsumedOutput` is. -/
inductive RelatePhase
| find
| update (consumedBy : List Outpoint)
| done
| failed (error : JsError)
deriving DecidableEq, Repr

structure RelateTask where
  consumed : Outpoint
  phase : RelatePhase := .find
deriving DecidableEq, Repr

/- `consumedByMap.set`. -/
def setRelation (relations : List Outpoint) (relation : Outpoint) : List Outpoint :=
  if relations.any (sameOutput relation) then
    relations.map fun other => if sameOutput relation other then relation else other
  else relations ++ [relation]

/- The relations of `consumedByMap`. -/
def mergeRelations (consumedBy newUTXOs : List Outpoint) : List Outpoint :=
  (consumedBy ++ newUTXOs).foldl setRelation []

def assertConsumedRelations (relations : List Outpoint) : Except JsError Unit :=
  relations.zipIdx.forM fun (relation, index) => do
    let path := "Consumed topical output relation[" ++ toString index ++ "]"
    assertHash relation.txid (path ++ " txid")
    assertOutputIndex relation.outputIndex (path ++ " output index")

def checkConsumedOutput (topic : JsString) (newUTXOs : List Outpoint) (consumed : Outpoint)
  (output : Output) : Except JsError Unit := do
  assertStoredOutputMatches output consumed topic "Consumed topical output"
  assertConsumedRelations (output.consumedBy ++ newUTXOs)

def RelateTask.find (topic : JsString) (newUTXOs : List Outpoint) (storage : OutputStorage)
  (task : RelateTask) : RelatePhase :=
  match storage.findOutput task.consumed topic with
  | none => .done
  | some output =>
    match checkConsumedOutput topic newUTXOs task.consumed output with
    | .error error => .failed error
    | .ok () =>
      if (mergeRelations output.consumedBy newUTXOs).length > MAX_OUTPUT_RELATIONS then
        .failed (.rangeError ("Consumed topical output relations exceeded " ++ "their work budget"))
      else .update (mergeRelations output.consumedBy newUTXOs)

def relateStep (topic : JsString) (newUTXOs : List Outpoint) (storage : OutputStorage)
  (task : RelateTask) : OutputStorage × RelateTask :=
  match task.phase with
  | .find => (storage, { task with phase := task.find topic newUTXOs storage })
  | .update consumedBy =>
    (storage.updateConsumedBy task.consumed topic consumedBy, { task with phase := .done })
  | .done => (storage, task)
  | .failed _ => (storage, task)

def UpdatesConsumedOutputs (topic : JsString) (newUTXOs outputsConsumed : List Outpoint)
  (storage after : OutputStorage) : Prop :=
  ∃ tasks, Relation.ReflTransGen (Interleaving.Step (relateStep topic newUTXOs))
        { store := storage
          tasks := outputsConsumed.map fun consumed => { consumed := consumed } }
        { store := after
          tasks := tasks } ∧
      ∀ task ∈ tasks, task.phase = .done

variable (parsed : ParsedTransaction)

/- The row `admitOutput` inserts, if the output has satoshis. -/
def admittedOutput (topic : JsString) (outputsConsumed : List Outpoint)
  (outputIndex : Nat) : Option Output :=
  match parsed.transaction.outputs[outputIndex]? with
  | none => none
  | some output =>
    output.satoshis.map fun satoshis =>
      { outpoint :=
          { txid := parsed.txid
            outputIndex := outputIndex }
        topic := topic
        outputScript := output.lockingScript
        satoshis := satoshis
        outputsConsumed := outputsConsumed
        consumedBy := [] }

-- Submission

/- What `submit` is given and what topic managers decide. -/
structure Submission where
  rawTx : JsString
  topics : List JsString
  identifyAdmissibleOutputs : JsString → List Nat → Except JsError AdmittanceInstructions

structure TopicValidation where
  topic : JsString
  isDupe : Bool := false
  previousCoins : List Nat := []
  previousOutputs : List Output := []
  admissibleOutputs : AdmittanceInstructions := { outputsToAdmit := [], coinsToRetain := [] }

def previousOutpoint (input : TransactionInput) : Option Outpoint :=
  input.sourceTXID.map fun txid =>
    { txid := txid
      outputIndex := input.sourceOutputIndex }

def findPreviousOutput (storage : OutputStorage) (topic : JsString) (input : TransactionInput) :
  Except JsError (Option Output) :=
  match previousOutpoint input with
  | none => .ok none
  | some outpoint =>
    match storage.findUnspentOutput outpoint topic with
    | none => .ok none
    | some output => do
        assertStoredOutputMatches output outpoint topic "Previous topical output"
        return some output

def validateTopicSubmission
  (storage : OutputStorage) (submission : Submission) (parsed : ParsedTransaction)
  (topic : JsString) : Except JsError TopicValidation :=
  if storage.doesAppliedTransactionExist parsed.txid topic then
    .ok { topic := topic, isDupe := true }
  else do
    let previousOutputs ← parsed.transaction.inputs.mapM (findPreviousOutput storage topic)
    let previousCoins := (previousOutputs.zipIdx.filter (·.1.isSome)).map (·.2)
    let instructions ← submission.identifyAdmissibleOutputs topic previousCoins
    let admissibleOutputs ←
      validateAdmittanceInstructions instructions parsed.transaction previousCoins
    pure
      { topic := topic
        previousCoins := previousCoins
        previousOutputs := previousOutputs.filterMap id
        admissibleOutputs := admissibleOutputs }

def coinOutpoints (transaction : Transaction) (indexes : List Nat) : List Outpoint :=
  indexes.filterMap fun index => transaction.inputs[index]?.bind previousOutpoint

variable (validation : TopicValidation)

/- `outputsConsumed` of `classifyPreviousCoins`. -/
def consumedCoins : List Outpoint :=
  coinOutpoints parsed.transaction (validation.previousCoins.filter
      (· ∈ validation.admissibleOutputs.coinsToRetain))

/- `outputsToMarkStale` of `classifyPreviousCoins`. -/
def staleCoins : List Outpoint :=
  coinOutpoints parsed.transaction (validation.previousCoins.filter
      (· ∉ validation.admissibleOutputs.coinsToRetain))

def admittedOutputs : List Output :=
  validation.admissibleOutputs.outputsToAdmit.filterMap
    (admittedOutput parsed validation.topic (consumedCoins parsed validation))

/- `applyTopicStorageMutation`, when it returns. -/
def AppliesTopic (storage after : OutputStorage) : Prop :=
  ∃ removed related, RemovesStaleOutputs validation.topic
        (staleCoins parsed validation) storage removed ∧
      UpdatesConsumedOutputs validation.topic ((admittedOutputs parsed validation).map (·.outpoint))
        (consumedCoins parsed validation)
        ((admittedOutputs parsed validation).foldl OutputStorage.insertOutput removed) related ∧
      after = related.insertAppliedTransaction parsed.txid validation.topic

/- `applyStorageMutations`, topic after topic. -/
inductive AppliesTopics (parsed : ParsedTransaction) :
  List TopicValidation → OutputStorage → OutputStorage → Prop
| nil
    (storage : OutputStorage) :
    AppliesTopics parsed [] storage storage
| cons
    (validation : TopicValidation) (rest : List TopicValidation)
    (storage middle after : OutputStorage) (first : AppliesTopic parsed validation storage middle)
    (others : AppliesTopics parsed rest middle after) :
    AppliesTopics parsed (validation :: rest) storage after

def acceptedValidations (storage : OutputStorage) (submission : Submission)
  (parsed : ParsedTransaction) : List TopicValidation :=
  submission.topics.filterMap fun topic =>
    match validateTopicSubmission storage submission parsed topic with
    | .error _ => none
    | .ok validation => if validation.isDupe then none else some validation

def markPreviousOutputsSpent (validations : List TopicValidation) (storage : OutputStorage) :
  Except JsError OutputStorage :=
  validations.foldlM (fun storage validation =>
      validation.previousOutputs.foldlM (fun storage output =>
          storage.markUTXOAsSpent output.outpoint validation.topic parsed.txid)
        storage)
    storage

structure Submits (submission : Submission) (parsed : ParsedTransaction)
  (storage after : OutputStorage) : Prop where
  parsed_eq : parseTransaction submission.rawTx = .ok parsed
  topics_nodup : submission.topics.Nodup
  applied :
    ∃ marked, markPreviousOutputsSpent parsed (acceptedValidations storage submission parsed)
          storage = .ok marked ∧
        AppliesTopics parsed (acceptedValidations storage submission parsed) marked after

end TsStack.Overlay
