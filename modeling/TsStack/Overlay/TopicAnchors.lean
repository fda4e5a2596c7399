import Mathlib.Data.List.MinMax
import TsStack.Lib.StateProgram
import TsStack.Overlay.BASM

/-
  The topic anchor chains of `Engine`.

  A storage keeps the applied transactions and the anchors
  it is given, by their keys.  A call may throw after it has
  stored some anchors, so calls are programs over the
  storage.  The checks of stored hashes are those of their
  types.
-/

-- Storage

namespace TsStack.Overlay

def DEFAULT_BASM_RANGE_LIMIT : Nat := 1024

def MAX_REORG_ORPHAN_HASHES : Nat := 10000

def MAX_REORG_ROWS : Nat := 100000

def MAX_REORG_DEPTH : Nat := 100000

def MAX_BASM_ADMITTED_PER_BLOCK : Nat := 100000

structure AppliedTransaction where
  txid : HashHex
  topic : JsString
  blockHeight : Option Nat := none
  blockHash : Option HashHex := none
  blockIndex : Option Nat := none
  proven : Bool := false
deriving DecidableEq

structure AppliedTransactionProofUpdate where
  txid : HashHex
  topic : JsString
  blockHeight : Nat
  blockHash : Option HashHex
  blockIndex : Option Nat
deriving DecidableEq

structure TopicBlockAnchor where
  topic : JsString
  blockHeight : Nat
  blockHash : HashHex
  basmRoot : HashHex
  admittedCount : Nat
  tac : HashHex
deriving DecidableEq

structure AnchorStorage where
  applied : List AppliedTransaction := []
  anchors : List TopicBlockAnchor := []
deriving DecidableEq

namespace AnchorStorage

variable (storage : AnchorStorage)

def insertAppliedTransaction (tx : AppliedTransaction) : AnchorStorage :=
  if storage.applied.any fun row => row.txid = tx.txid ∧ row.topic = tx.topic then storage
  else { storage with applied := storage.applied ++ [tx] }

def updateAppliedTransactionProof (record : AppliedTransactionProofUpdate) : AnchorStorage :=
  { storage with
    applied := storage.applied.map fun row =>
      if row.txid = record.txid ∧ row.topic = record.topic then
        { row with
          blockHeight := some record.blockHeight
          blockHash := record.blockHash
          blockIndex := record.blockIndex
          proven := true }
      else row }

def demoteAppliedTransactionToUnproven (txid : HashHex) (topic : JsString) : AnchorStorage :=
  { storage with
    applied := storage.applied.map fun row =>
      if row.txid = txid ∧ row.topic = topic then
        { row with
          blockHeight := none
          blockHash := none
          blockIndex := none
          proven := false }
      else row }

def admittedRef
  (topic : JsString) (blockHeight : Nat) (row : AppliedTransaction) : Option AdmittedTxRef :=
  if row.topic = topic ∧ row.blockHeight = some blockHeight ∧ row.proven = true then
    row.blockIndex.map fun blockIndex => { txid := row.txid, blockIndex := blockIndex }
  else none

def findAdmittedTransactionsForBlock
  (topic : JsString) (blockHeight limit : Nat) : List AdmittedTxRef :=
  ((storage.applied.filterMap (admittedRef topic blockHeight)).insertionSort
      fun left right => left.blockIndex ≤ right.blockIndex).take limit

def findProvenAppliedTransactionsByBlockHash (blockHash : JsString)
  (limit : Nat) : List (HashHex × JsString × Nat) :=
  (storage.applied.filterMap fun row =>
    if row.blockHash.map (·.value) = some blockHash ∧ row.proven = true then
      row.blockHeight.map fun blockHeight => (row.txid, row.topic, blockHeight)
    else none).take limit

def findTopicBlockAnchor (topic : JsString) (blockHeight : Nat) : Option TopicBlockAnchor :=
  storage.anchors.find? fun anchor => anchor.topic = topic ∧ anchor.blockHeight = blockHeight

def upsertTopicBlockAnchor (anchor : TopicBlockAnchor) : AnchorStorage :=
  { storage with
    anchors := anchor ::
        storage.anchors.filter fun other =>
          ¬(other.topic = anchor.topic ∧ other.blockHeight = anchor.blockHeight) }

def findTopicAnchorTip (topic : JsString) : Option TopicBlockAnchor :=
  (storage.anchors.filter (·.topic = topic)).argmax (·.blockHeight)

def findTopicBlockAnchors (topic : JsString)
  (fromHeight toHeight : Nat) : List TopicBlockAnchor :=
  (List.range' fromHeight (toHeight + 1 - fromHeight)).filterMap
    (storage.findTopicBlockAnchor topic)

end AnchorStorage

-- Rebuilding

/- The fields of `TopicAnchorHeader` read here. -/
structure TopicAnchorHeader where
  blockHeight : Nat
  blockHash : HashHex

/- What a call asks of the node it runs in. -/
structure AnchorEnv where
  managers : List JsString
  managers_nodup : managers.Nodup
  topicAnchorHeaderResolver : Nat → Option TopicAnchorHeader
  currentHeight : Option Nat

abbrev AnchorM :=
  StateProgram AnchorEnv JsError AnchorStorage

def assertTopic (topic : JsString) (label : String) : Except JsError Unit :=
  if topic.isEmpty ∨ (String.ofList topic).utf8ByteSize > 256 ∨
        topic.any fun c => c.toNat ≤ 0x1f ∨ c.toNat = 0x7f
      then
    .error (.typeError (label ++ " is invalid"))
  else .ok ()

def assertNonnegativeInteger (value : Nat) (label : String) : Except JsError Unit :=
  if isSafeInteger value then .ok ()
  else .error (.typeError (label ++ " must be a non-negative safe integer"))

/- `resolveBlockHash` without a merkle root. -/
def resolveBlockHash (env : AnchorEnv) (blockHeight : Nat) : Option HashHex :=
  match env.topicAnchorHeaderResolver blockHeight with
  | none => none
  | some header =>
    if header.blockHeight = blockHeight then some header.blockHash
    else none

variable (storage : AnchorStorage)

def admittedAt (topic : JsString) (height : Nat) : List AdmittedTxRef :=
  storage.findAdmittedTransactionsForBlock topic height (MAX_BASM_ADMITTED_PER_BLOCK + 1)

def passBlockHash (env : AnchorEnv) (storage : AnchorStorage) (topic : JsString)
  (blockHashHints : List (Nat × HashHex)) (forceResolve : Bool) (height : Nat) : Option HashHex :=
  (blockHashHints.lookup height).or ((if forceResolve then none
      else (storage.findTopicBlockAnchor topic height).map (·.blockHash)).or
      (resolveBlockHash env height))

/- The loop of `rebuildTopicAnchorChain`. -/
def rebuildHeights
  (topic : JsString) (blockHashHints : List (Nat × HashHex)) (forceResolve : Bool) :
  Nat → Nat → HashHex → AnchorM Unit
| 0, _, _ => pure ()
| count + 1, height, prevTac => do
    let storage ← get
    let env ← readThe AnchorEnv
    match passBlockHash env storage topic blockHashHints forceResolve height with
    | none => pure ()
    | some blockHash => do
        let admitted := admittedAt storage topic height
        let basmRoot ← StateProgram.ofExcept (computeBasmRoot admitted)
        let tac := computeTac prevTac blockHash basmRoot
        modify fun storage =>
          storage.upsertTopicBlockAnchor
            { topic := topic
              blockHeight := height
              blockHash := blockHash
              basmRoot := basmRoot
              admittedCount := admitted.length
              tac := tac }
        rebuildHeights topic blockHashHints forceResolve count (height + 1) tac

def checkHints (fromHeight toHeight : Nat) (blockHashHints : List (Nat × HashHex)) :
  Except JsError Unit :=
  blockHashHints.forM fun (height, _) => do
    assertNonnegativeInteger height "BASM block hash hint height"
    if height < fromHeight ∨ height > toHeight then
      throw (.typeError ("BASM block hash hint is outside the rebuild " ++ "range"))

/- The checks of `rebuildTopicAnchorChain`. -/
def checkRebuild
  (topic : JsString) (fromHeight toHeight : Nat) (blockHashHints : List (Nat × HashHex)) :
  Except JsError Unit := do
  assertTopic topic "BASM topic"
  assertNonnegativeInteger fromHeight "BASM range start"
  assertNonnegativeInteger toHeight "BASM range end"
  checkHints fromHeight toHeight blockHashHints

def passEnd (fromHeight toHeight : Nat) : Nat :=
  if toHeight - fromHeight + 1 > DEFAULT_BASM_RANGE_LIMIT then
    fromHeight + DEFAULT_BASM_RANGE_LIMIT - 1
  else toHeight

def previousTac (topic : JsString) (fromHeight : Nat) : HashHex :=
  match fromHeight with
  | 0 => BASM_ZERO_HASH
  | below + 1 =>
    match storage.findTopicBlockAnchor topic below with
    | none => BASM_ZERO_HASH
    | some previousAnchor => previousAnchor.tac

def rebuildTopicAnchorChain
  (topic : JsString) (fromHeight toHeight : Nat) (blockHashHints : List (Nat × HashHex))
  (forceResolve : Bool) : AnchorM Unit := do
  StateProgram.ofExcept (checkRebuild topic fromHeight toHeight blockHashHints)
  if toHeight < fromHeight then pure ()
  else do
    let storage ← get
    rebuildHeights topic blockHashHints forceResolve
      (passEnd fromHeight toHeight + 1 - fromHeight) fromHeight
      (previousTac storage topic fromHeight)

-- Proofs and Blocks

/- The slice `recomputeTopicBlockAnchor` rebuilds. -/
def recomputeSlice (topic : JsString) (blockHeight : Nat) : Nat × Nat :=
  match storage.findTopicAnchorTip topic with
  | none => (blockHeight, blockHeight)
  | some tip => (min blockHeight (tip.blockHeight + 1), max blockHeight tip.blockHeight)

def anchorBlockHash (topic : JsString) (blockHeight : Nat)
  (blockHash : Option HashHex) : Option HashHex :=
  blockHash.or ((storage.findTopicBlockAnchor topic blockHeight).map (·.blockHash))

/- The checks of `recomputeTopicBlockAnchor`. -/
def checkRecompute (topic : JsString) (blockHeight : Nat) : Except JsError Unit := do
  assertTopic topic "BASM topic"
  assertNonnegativeInteger blockHeight "BASM block height"

def recomputeTopicBlockAnchor
  (topic : JsString) (blockHeight : Nat) (blockHash : Option HashHex) : AnchorM Unit := do
  StateProgram.ofExcept (checkRecompute topic blockHeight)
  let storage ← get
  match anchorBlockHash storage topic blockHeight blockHash with
  | none => pure ()
  | some hash =>
    let slice := recomputeSlice storage topic blockHeight
    rebuildTopicAnchorChain topic slice.1 slice.2 [(blockHeight, hash)] false

def insertApplied (tx : AppliedTransaction) : AnchorM Unit := do
  modify (·.insertAppliedTransaction tx)
  match tx.blockHeight, tx.blockHash with
  | some blockHeight, some blockHash =>
    recomputeTopicBlockAnchor tx.topic blockHeight (some blockHash)
  | _, _ => pure ()

def updateProof (record : AppliedTransactionProofUpdate) :
  AnchorM Unit := do
  modify (·.updateAppliedTransactionProof record)
  match record.blockHash with
  | some blockHash => recomputeTopicBlockAnchor record.topic record.blockHeight (some blockHash)
  | none => pure ()

/- `advanceTopicAnchorChains` for a topic. -/
def advanceTopic (targetHeight : Nat) (topic : JsString) : AnchorM Unit := do
  let storage ← get
  match storage.findTopicAnchorTip topic with
  | none => pure ()
  | some tip =>
    if tip.blockHeight ≥ targetHeight then pure ()
    else rebuildTopicAnchorChain topic (tip.blockHeight + 1) targetHeight [] false

def advanceTopicAnchorChains (toHeight : Option Nat) : AnchorM Unit := do
  let env ← readThe AnchorEnv
  match toHeight.or env.currentHeight with
  | none => pure ()
  | some targetHeight => do
      StateProgram.ofExcept (assertNonnegativeInteger targetHeight "BASM target height")
      env.managers.forM (advanceTopic targetHeight)

-- Reorganizations

/- The input of `handleReorg`. -/
structure ReorgInput where
  orphanedBlockHashes : List JsString
  rebuildFromHeight : Nat
  newTipHeight : Nat

/- A row of `rowsToDemote`. -/
structure ReorgRow where
  txid : HashHex
  topic : JsString
  blockHeight : Nat
  reportedBlockHash : JsString

def orphanedHashes :
  List JsString → List JsString → Except JsError (List JsString)
| seen, [] => .ok seen
| seen, hash :: hashes => do
    assertHash hash "Reorg orphaned block hash"
    if toLowerCase hash ∈ seen then .error (.typeError "Reorg block hashes must be unique")
    else orphanedHashes (seen ++ [toLowerCase hash]) hashes

/- The checks of the input of `reconcileReorg`. -/
def checkReorgInput (input : ReorgInput) : Except JsError (List JsString) :=
  if input.orphanedBlockHashes.length > MAX_REORG_ORPHAN_HASHES then
    .error (.typeError "Invalid or oversized reorg input")
  else do
    assertNonnegativeInteger input.rebuildFromHeight "Reorg rebuild start"
    assertNonnegativeInteger input.newTipHeight "Reorg new tip height"
    if input.rebuildFromHeight > input.newTipHeight ∨
        input.newTipHeight - input.rebuildFromHeight + 1 > MAX_REORG_DEPTH then
      .error (.typeError ("Reorg rebuild ranges are capped at " ++
          toString MAX_REORG_DEPTH ++ " heights"))
    else orphanedHashes [] input.orphanedBlockHashes

def addReorgRows (input : ReorgInput) (blockHash : JsString) :
  List (HashHex × JsString × Nat) → List ReorgRow → Except JsError (List ReorgRow)
| [], rows => .ok rows
| (txid, topic, blockHeight) :: found, rows =>
  if blockHeight < input.rebuildFromHeight ∨ blockHeight > input.newTipHeight then
    .error (.typeError ("Storage returned a reorg transaction outside " ++ "the rebuild range"))
  else if rows.any fun row =>
      toLowerCase row.txid.value = toLowerCase txid.value ∧ row.topic = topic then
    .error (.typeError "Storage returned duplicate reorg transactions")
  else
    addReorgRows input blockHash found (rows ++
        [{ txid := txid
           topic := topic
           blockHeight := blockHeight
           reportedBlockHash := blockHash }])

def rowsToDemote (storage : AnchorStorage) (input : ReorgInput) :
  List JsString → List ReorgRow → Except JsError (List ReorgRow)
| [], rows => .ok rows
| blockHash :: hashes, rows =>
  let remaining := MAX_REORG_ROWS - rows.length
  let found := storage.findProvenAppliedTransactionsByBlockHash blockHash (remaining + 1)
  if found.length > remaining then
    .error (.typeError ("Storage returned an invalid or oversized reorg " ++ "transaction set"))
  else do
    let rows ← addReorgRows input blockHash found rows
    rowsToDemote storage input hashes rows

def authorizeRows (env : AnchorEnv) (independentlyInvalid : List (JsString × JsString)) :
  List ReorgRow → Except JsError (List ReorgRow)
| [] => .ok []
| row :: rows =>
  let canonical := (resolveBlockHash env row.blockHeight).map fun hash => toLowerCase hash.value
  let invalid := (toLowerCase row.txid.value, row.topic) ∈ independentlyInvalid
  if canonical = none ∧ ¬invalid then
    .error (.error ("Unable to corroborate a reported reorg before " ++ "mutating state"))
  else if canonical = some (toLowerCase row.reportedBlockHash) ∧ ¬invalid then
    if independentlyInvalid = [] then .error (.error "Reported orphaned block is still canonical")
    else authorizeRows env independentlyInvalid rows
  else do
    let rows ← authorizeRows env independentlyInvalid rows
    return row :: rows

def demoteRows (storage : AnchorStorage) (rows : List ReorgRow) : AnchorStorage :=
  rows.foldl (fun storage row => storage.demoteAppliedTransactionToUnproven row.txid row.topic)
    storage

def reorgStart (storage : AnchorStorage) (input : ReorgInput) (topic : JsString) : Option Nat :=
  match storage.findTopicBlockAnchors topic input.rebuildFromHeight input.newTipHeight with
  | [] => none
  | existing =>
    some (existing.foldl (fun start anchor => min start anchor.blockHeight) input.newTipHeight)

/- The rebuild of a topic in `reconcileReorg`. -/
def rebuildReorged (input : ReorgInput) (topic : JsString) : AnchorM Unit := do
  let storage ← get
  match reorgStart storage input topic with
  | none => pure ()
  | some startHeight => rebuildTopicAnchorChain topic startHeight input.newTipHeight [] true

/- The rows `reconcileReorg` demotes. -/
def reorgDemotions (env : AnchorEnv) (storage : AnchorStorage) (input : ReorgInput)
  (independentlyInvalid : List (JsString × JsString)) :
  Except JsError (List ReorgRow) := do
  let orphaned ← checkReorgInput input
  let rows ← rowsToDemote storage input orphaned []
  authorizeRows env independentlyInvalid rows

def reconcileReorg (input : ReorgInput) (independentlyInvalid : List (JsString × JsString)) :
  AnchorM Unit := do
  let storage ← get
  let env ← readThe AnchorEnv
  let rows ← StateProgram.ofExcept (reorgDemotions env storage input independentlyInvalid)
  modify fun storage => demoteRows storage rows
  env.managers.forM (rebuildReorged input)

def handleReorg (input : ReorgInput) : AnchorM Unit :=
  reconcileReorg input []

inductive AnchorCall where
| insertApplied (tx : AppliedTransaction)
| updateProof (record : AppliedTransactionProofUpdate)
| recompute
    (topic : JsString) (blockHeight : Nat) (blockHash : Option HashHex)
| advance (toHeight : Option Nat)
| handleReorg (input : ReorgInput)

def AnchorCall.run : AnchorCall → AnchorM Unit
| .insertApplied tx => Overlay.insertApplied tx
| .updateProof record => Overlay.updateProof record
| .recompute topic blockHeight blockHash => recomputeTopicBlockAnchor topic blockHeight blockHash
| .advance toHeight => advanceTopicAnchorChains toHeight
| .handleReorg input => Overlay.handleReorg input

end TsStack.Overlay
