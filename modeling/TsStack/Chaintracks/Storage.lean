import Mathlib.Data.List.Sort
import TsStack.Chaintracks.BlockHeader
import TsStack.Lib.StateProgram

/-
  The in-memory block header storage of
  `ChaintracksStorageNoDb.ts` and `ChaintracksStorageBase.ts`.

  A `Map` is modeled by its values, each with its key, in
  order of insertion.  Calls are awaited one after another,
  so a migration never starts inside another.  The bulk file
  manager's files are part of the state; its merge is an
  operation of the options.
-/

-- State and Options

namespace TsStack.Chaintracks

structure LiveBlockHeader extends BlockHeader where
  chainWork : Nat
  isChainTip : Bool
  isActive : Bool
  headerId : Nat
  previousHeaderId : Option Nat
deriving DecidableEq, Repr

structure BulkFile where
  firstHeight : Nat
  count : Nat
  lastHash : JsString
  lastChainWork : Nat
  data : List BlockHeader
deriving DecidableEq, Repr

structure Storage where
  liveHeaders : List LiveBlockHeader := []
  maxHeaderId : Nat := 0
  tipHeaderId : Nat := 0
  hashToHeaderId : List (JsString × Nat) := []
  lastActiveMinHeight : Option Nat := none
  bulkFiles : List BulkFile := []
deriving DecidableEq, Repr

def MAX_STORAGE_LIMIT : Nat := 100000

def MAX_STORAGE_TRAVERSAL : Nat := 100000

/-
  The options the constructor accepts, with the merge of the
  bulk manager: files, headers and incremental work.
-/
structure Options where
  chain : Chain
  liveHeightThreshold : Nat
  bulkMigrationChunkSize : Nat
  mergeIncrementalBlockHeaders :
    List BulkFile → List BlockHeader → Nat → Except ChaintracksError (List BulkFile)
  liveHeightThreshold_pos : 1 ≤ liveHeightThreshold
  bulkMigrationChunkSize_pos : 1 ≤ bulkMigrationChunkSize
  bulkMigrationChunkSize_le : bulkMigrationChunkSize ≤ MAX_STORAGE_LIMIT

abbrev StorageM :=
  StateProgram Options ChaintracksError Storage

structure HeightRange where
  minHeight : Int
  maxHeight : Int
deriving DecidableEq, Repr

def HeightRange.empty : HeightRange where
  minHeight := 0
  maxHeight := -1

def HeightRange.isEmpty (range : HeightRange) : Bool :=
  range.maxHeight < range.minHeight

structure InsertHeaderResult where
  added : Bool := false
  dupe : Bool := false
  noPrev : Bool := false
  badPrev : Bool := false
  noActiveAncestor : Bool := false
  isActiveTip : Bool := false
  reorgDepth : Int := 0
  priorTip : Option LiveBlockHeader := none
  noTip : Bool := false
  deactivatedHeaders : List LiveBlockHeader := []
deriving DecidableEq, Repr

-- Live Header Records

variable (live : List LiveBlockHeader)

/- `liveHeaders.get(headerId)`. -/
def getHeader (headerId : Nat) : Option LiveBlockHeader :=
  live.find? (·.headerId = headerId)

/- `liveHeaders.set(header.headerId, header)`. -/
def setHeader (header : LiveBlockHeader) : List LiveBlockHeader :=
  if live.any (·.headerId = header.headerId) then
    live.map fun stored =>
      if stored.headerId = header.headerId then header
      else stored
  else live ++ [header]

/- The headers with `isActive` and `isChainTip`. -/
def activeTips : List LiveBlockHeader :=
  live.filter fun header => header.isActive && header.isChainTip

/- The headers with `isActive`. -/
def activeHeaders : List LiveBlockHeader :=
  live.filter (·.isActive)

/- `liveHeaders.set` on the storage. -/
def setLiveHeader (header : LiveBlockHeader) : StorageM Unit :=
  modify fun data =>
    { data with
      liveHeaders := setHeader data.liveHeaders header }

def validateHeight (height : Nat) (name : String) : Except ChaintracksError Unit :=
  if height > 0x7fffffff then .error (.invalidParameter name "an integer from 0 through 2147483647")
  else .ok ()

def validateHeaderId (headerId : Nat) (name : String) : Except ChaintracksError Unit :=
  if headerId < 1 then .error (.invalidParameter name "a positive safe integer")
  else .ok ()

def recordTraversalVisit (seen : List Nat) (header : LiveBlockHeader) (operation : String) :
  Except ChaintracksError (List Nat) := do
  validateHeaderId header.headerId "stored headerId"
  validateHeight header.height "stored header height"
  if header.headerId ∈ seen then .error (.invalidOperation ("cycle detected while " ++ operation))
  else if seen.length ≥ MAX_STORAGE_TRAVERSAL then
    .error (.invalidOperation "storage traversal exceeded 100000 headers")
  else .ok (header.headerId :: seen)

def validateStoredParentLink (child parent : LiveBlockHeader) :
  Except ChaintracksError Unit := do
  validateHeaderId child.headerId "stored child headerId"
  validateHeaderId parent.headerId "stored parent headerId"
  if child.previousHeaderId ≠ some parent.headerId ∨
      child.previousHash ≠ parent.hash ∨ child.height ≠ parent.height + 1 then
    .error (.invalidOperation ("live-header storage contains an invalid " ++ "parent link"))
  else .ok ()

-- Reorganization

/-
  The loop of `findActiveAncestor`.  The visits are bounded,
  so that the recursion's own bound is never reached.
-/
def findActiveAncestorFrom (live : List LiveBlockHeader) :
  Nat → List Nat → LiveBlockHeader → Except ChaintracksError (Option LiveBlockHeader)
| 0, _, _ => .ok none
| turns + 1, visited, activeAncestor =>
  if activeAncestor.isActive then .ok (some activeAncestor)
  else do
    let visited ← recordTraversalVisit visited activeAncestor "finding the active ancestor"
    match activeAncestor.previousHeaderId with
    | none => .ok none
    | some previousHeaderId =>
      match getHeader live previousHeaderId with
      | none => .ok none
      | some previousHeader => do
          validateStoredParentLink activeAncestor previousHeader
          findActiveAncestorFrom live turns visited previousHeader

/- `findActiveAncestor`; `none` is `noActiveAncestor`. -/
def findActiveAncestor (oneBack : LiveBlockHeader) :
  Except ChaintracksError (Option LiveBlockHeader) :=
  findActiveAncestorFrom live (MAX_STORAGE_TRAVERSAL + 1) [] oneBack

/- What the two loops of `applyReorganization` differ in. -/
structure BranchWalk where
  isActive : Bool
  operation : String
  noAncestor : String
  missingParent : String

def deactivation : BranchWalk where
  isActive := false
  operation := "deactivating the prior active chain"
  noAncestor := "active chain does not reach the selected " ++ "reorganization ancestor"
  missingParent := "active chain contains a missing parent header"

def activation : BranchWalk where
  isActive := true
  operation := "activating the replacement chain"
  noAncestor := "replacement chain does not reach the selected " ++ "reorganization ancestor"
  missingParent := "replacement chain contains a missing parent header"

/-
  A loop of `applyReorganization`: set `isActive` of the
  headers before the ancestor and return them as they were.
-/
def BranchWalk.run (walk : BranchWalk) (activeAncestor : LiveBlockHeader) :
  Nat → List Nat → LiveBlockHeader → StorageM (List LiveBlockHeader)
| 0, _, _ => pure []
| turns + 1, visited, header =>
  if header.headerId = activeAncestor.headerId then pure []
  else do
    let visited ← StateProgram.ofExcept (recordTraversalVisit visited header walk.operation)
    setLiveHeader { header with isActive := walk.isActive }
    match header.previousHeaderId with
    | none => throw (.invalidOperation walk.noAncestor)
    | some previousHeaderId => do
        let data ← get
        match getHeader data.liveHeaders previousHeaderId with
        | none => throw (.invalidOperation walk.missingParent)
        | some previousHeader => do
            StateProgram.ofExcept (validateStoredParentLink header previousHeader)
            let walked ← run walk activeAncestor turns visited previousHeader
            pure (header :: walked)

def applyReorganization (oneBack activeAncestor : LiveBlockHeader) :
  StorageM (List LiveBlockHeader) := do
  if activeAncestor.headerId = oneBack.headerId then pure []
  else do
    let data ← get
    match data.liveHeaders.find? (fun candidate => candidate.isChainTip && candidate.isActive) with
    | none => throw (.invalidOperation deactivation.noAncestor)
    | some headerToDeactivate => do
        let deactivatedHeaders ←
          deactivation.run activeAncestor (MAX_STORAGE_TRAVERSAL + 1) [] headerToDeactivate
        let _ ← activation.run activeAncestor (MAX_STORAGE_TRAVERSAL + 1) [] oneBack
        pure deactivatedHeaders

def prepareActiveTip
  (header : BlockHeader) (oneBack priorTip : LiveBlockHeader) (result : InsertHeaderResult) :
  StorageM (Bool × InsertHeaderResult) := do
  if result.isActiveTip then do
    let data ← get
    let ancestor ← StateProgram.ofExcept (findActiveAncestor data.liveHeaders oneBack)
    match ancestor with
    | none => pure (false, { result with noActiveAncestor := true })
    | some activeAncestor => do
        let reorgDepth : Int :=
          if oneBack.isActive && oneBack.isChainTip then result.reorgDepth
          else (min priorTip.height header.height : Nat) - (activeAncestor.height : Int)
        let deactivatedHeaders ← applyReorganization oneBack activeAncestor
        pure (true,
            { result with
              reorgDepth := reorgDepth
              deactivatedHeaders := deactivatedHeaders })
  else pure (true, result)

-- Pruning

def clearPreviousHeaderId
  (live : List LiveBlockHeader) (maxHeight : Nat) (header : LiveBlockHeader) : LiveBlockHeader :=
  match header.previousHeaderId.bind (getHeader live) with
  | some prevHeader =>
    if prevHeader.height ≤ maxHeight then { header with previousHeaderId := none }
    else header
  | none => header

/- The live headers `deleteOlderLiveBlockHeaders` leaves. -/
def keepNewerHeaders (live : List LiveBlockHeader) (maxHeight : Nat) : List LiveBlockHeader :=
  (live.map (clearPreviousHeaderId live maxHeight)).filter fun header => maxHeight < header.height

/- The data `deleteOlderLiveBlockHeaders` leaves. -/
def Storage.deleteOlder (data : Storage) (maxHeight : Nat) : Storage :=
  let live := keepNewerHeaders data.liveHeaders maxHeight
  { data with
    liveHeaders := live
    hashToHeaderId :=
      data.hashToHeaderId.filter fun entry =>
        !data.liveHeaders.any fun header => header.height ≤ maxHeight && header.hash = entry.1
    tipHeaderId :=
      match live.find? (fun header => header.isActive && header.isChainTip) with
      | some tip => tip.headerId
      | none => 0 }

/- `deleteOlderLiveBlockHeaders`: the number deleted. -/
def deleteOlderLiveBlockHeaders (maxHeight : Nat) : StorageM Nat := do
  StateProgram.ofExcept (validateHeight maxHeight "maxHeight")
  let data ← get
  set (data.deleteOlder maxHeight)
  pure (data.liveHeaders.countP fun header => header.height ≤ maxHeight)

def findLiveHeightRange (live : List LiveBlockHeader) : HeightRange :=
  match (activeHeaders live).map (·.height) with
  | [] => HeightRange.empty
  | height :: heights =>
    { minHeight := (heights.foldl min height : Nat)
      maxHeight := (heights.foldl max height : Nat) }

def sortByHeight (headers : List LiveBlockHeader) :
  List LiveBlockHeader :=
  headers.insertionSort (·.height ≤ ·.height)

def liveHeadersForBulk (live : List LiveBlockHeader) (count : Nat) :
  Except ChaintracksError (List LiveBlockHeader) :=
  if count < 1 ∨ count > 100000 then
    .error (.invalidParameter "count" "an integer from 1 through 100000")
  else .ok ((sortByHeight (activeHeaders live)).take count)

/- The work `addLiveHeadersToBulk` reports. -/
def incrementalWork (chain : Chain) (firstHeader lastHeader : LiveBlockHeader) :
  Except ChaintracksError Nat := do
  let work ← convertBitsToWork firstHeader.bits chain
  let previousWork ← subWork firstHeader.chainWork work
  subWork lastHeader.chainWork previousWork

def addLiveHeadersToBulk (liveHeaders : List LiveBlockHeader) :
  StorageM Unit := do
  match liveHeaders.head?, liveHeaders.getLast? with
  | some firstHeader, some lastHeader => do
      let options ← read
      let data ← get
      let work ← StateProgram.ofExcept (incrementalWork options.chain firstHeader lastHeader)
      let bulkFiles ← StateProgram.ofExcept (options.mergeIncrementalBlockHeaders data.bulkFiles
            (liveHeaders.map (·.toBlockHeader)) work)
      set { data with bulkFiles := bulkFiles }
  | _, _ => pure ()

/- `migrateLiveToBulk` with the default of `ignoreLimits`. -/
def migrateLiveToBulk (count : Nat) : StorageM Unit := do
  let options ← read
  if count < 1 ∨ count > MAX_STORAGE_LIMIT then
    throw (.invalidParameter "count" "an integer from 1 through 100000")
  else if count > options.bulkMigrationChunkSize then pure ()
  else do
    let data ← get
    let headers ← StateProgram.ofExcept (liveHeadersForBulk data.liveHeaders count)
    addLiveHeadersToBulk headers
    match headers.getLast? with
    | none => throw (.typeError ("Cannot read properties of undefined " ++ "(reading 'height')"))
    | some lastHeader => do
        let _ ← deleteOlderLiveBlockHeaders lastHeader.height
        pure ()

/-
  The loop of `pruneLiveBlockHeaders`.  Each turn lowers the
  count, so that as many turns as the count suffice.
-/
def migrateWhile : Nat → Nat → StorageM Unit
| 0, _ => pure ()
| turns + 1, totalCount => do
    let options ← read
    if options.bulkMigrationChunkSize ≤ totalCount then do
      let count := min totalCount options.bulkMigrationChunkSize
      migrateLiveToBulk count
      modify fun data => { data with lastActiveMinHeight := none }
      migrateWhile turns (totalCount - count)
    else pure ()

def activeMinHeight (data : Storage) : Int :=
  match data.lastActiveMinHeight.filter (· ≠ 0) with
  | some minHeight => minHeight
  | none => (findLiveHeightRange data.liveHeaders).minHeight

def pruneLiveBlockHeaders (activeTipHeight : Nat) : StorageM Unit := do
  StateProgram.ofExcept (validateHeight activeTipHeight "activeTipHeight")
  let options ← read
  let data ← get
  let totalCount : Int := activeTipHeight - activeMinHeight data + 1 - options.liveHeightThreshold
  migrateWhile totalCount.toNat totalCount.toNat

def getHeightRange (bulkFiles : List BulkFile) : HeightRange :=
  match bulkFiles.head?, bulkFiles.getLast? with
  | some first, some last =>
    { minHeight := first.firstHeight
      maxHeight := last.firstHeight + last.count - 1 }
  | _, _ => HeightRange.empty

def getAvailableHeightRanges (data : Storage) :
  Except ChaintracksError (HeightRange × HeightRange) :=
  let bulk := getHeightRange data.bulkFiles
  let live := findLiveHeightRange data.liveHeaders
  if bulk.isEmpty then
    if !live.isEmpty && live.minHeight ≠ 0 then
      .error (.error ("With empty bulk storage, live storage must " ++
          "start with genesis header."))
    else .ok (bulk, live)
  else if bulk.minHeight ≠ 0 then .error (.error "Bulk storage doesn't start with genesis header.")
  else if !live.isEmpty && bulk.maxHeight + 1 ≠ live.minHeight then
    .error (.error ("There is a gap or overlap between bulk and live " ++ "header storage."))
  else .ok (bulk, live)

-- Insertion

/- `hashToHeaderId.set`. -/
def setHeaderId
  (entries : List (JsString × Nat)) (hash : JsString) (headerId : Nat) : List (JsString × Nat) :=
  entries.filter (·.1 ≠ hash) ++ [(hash, headerId)]

/- Store a new header: `liveHeaders` and `hashToHeaderId`. -/
def Storage.store (data : Storage) (newHeader : LiveBlockHeader) : Storage :=
  { data with
    liveHeaders := setHeader data.liveHeaders newHeader
    hashToHeaderId := setHeaderId data.hashToHeaderId newHeader.hash newHeader.headerId }

def insertFirstHeader (header : BlockHeader) (result : InsertHeaderResult) :
  StorageM (Bool × InsertHeaderResult) := do
  let options ← read
  let data ← get
  if data.liveHeaders.length ≠ 0 then pure (false, result)
  else
    match data.bulkFiles.getLast? with
    | none =>
      throw (.invalidOperation ("bulk headers must exist before first live " ++
          "header can be added"))
    | some lastBulkFile =>
      if header.previousHash ≠ lastBulkFile.lastHash ∨
          header.height ≠ lastBulkFile.firstHeight + lastBulkFile.count then
        pure (false, result)
      else do
        set { data with maxHeaderId := data.maxHeaderId + 1 }
        let work ← StateProgram.ofExcept (convertBitsToWork header.bits options.chain)
        let chainWork ← StateProgram.ofExcept (addWork lastBulkFile.lastChainWork work)
        let newHeader : LiveBlockHeader :=
          { header with
            headerId := data.maxHeaderId + 1
            previousHeaderId := none
            chainWork := chainWork
            isChainTip := true
            isActive := true }
        modify fun data =>
          { data.store newHeader with
            tipHeaderId := newHeader.headerId }
        pure (true,
            { result with
              isActiveTip := true, added := true })

/- The active tip before an insertion after `oneBack`. -/
def findPriorTip (live : List LiveBlockHeader) (oneBack : LiveBlockHeader) :
  Except ChaintracksError (Option LiveBlockHeader) :=
  if oneBack.isActive && oneBack.isChainTip then .ok (some oneBack)
  else
    match activeTips live with
    | _ :: _ :: _ => .error (.invalidOperation "multiple active chain tips exist in memory")
    | tips => .ok tips.head?

def clearParentTip (oneBack : LiveBlockHeader) : StorageM Unit :=
  if oneBack.isChainTip then setLiveHeader { oneBack with isChainTip := false }
  else pure ()

def storeNewHeader (newHeader oneBack : LiveBlockHeader) (result : InsertHeaderResult) :
  StorageM InsertHeaderResult := do
  clearParentTip oneBack
  modify fun data => data.store newHeader
  if result.isActiveTip then do
    modify fun data => { data with tipHeaderId := newHeader.headerId }
    pruneLiveBlockHeaders newHeader.height
    pure { result with added := true }
  else pure { result with added := true }

/- The part of `insertHeader` after the parent is known. -/
def insertAfter (header : BlockHeader) (oneBack : LiveBlockHeader) :
  StorageM InsertHeaderResult := do
  let options ← read
  let data ← get
  if oneBack.height + 1 ≠ header.height then pure { badPrev := true }
  else do
    let priorTip ← StateProgram.ofExcept (findPriorTip data.liveHeaders oneBack)
    match priorTip with
    | none => pure { noTip := true }
    | some priorTip => do
        let work ← StateProgram.ofExcept (convertBitsToWork header.bits options.chain)
        let chainWork ← StateProgram.ofExcept (addWork oneBack.chainWork work)
        let isActiveTip := isMoreWork chainWork priorTip.chainWork
        set { data with maxHeaderId := data.maxHeaderId + 1 }
        let newHeader : LiveBlockHeader :=
          { header with
            headerId := data.maxHeaderId + 1
            previousHeaderId := some oneBack.headerId
            chainWork := chainWork
            isChainTip := isActiveTip
            isActive := isActiveTip }
        let (prepared, result) ← prepareActiveTip header oneBack priorTip
            { priorTip := some priorTip
              isActiveTip := isActiveTip }
        if prepared then storeNewHeader newHeader oneBack result
        else pure result

def insertHeader (header : BlockHeader) : StorageM InsertHeaderResult := do
  let options ← read
  let header ← StateProgram.ofExcept (validateIncomingHeader options.chain header)
  if options.chain = .mock then
    throw (.invalidParameter "chain" ("'main', 'test', 'stn', 'ttn', 'tstn', or " ++
        "'regtest'. 'mock' is unsupported."))
  else do
    let data ← get
    if data.hashToHeaderId.any (·.1 = header.hash) then pure { dupe := true }
    else
      match data.liveHeaders.find? (·.hash = header.previousHash) with
      | some oneBack => insertAfter header oneBack
      | none => do
          let (inserted, result) ← insertFirstHeader header {}
          if inserted then pure result
          else pure { result with noPrev := true }

end TsStack.Chaintracks
