import TsStack.Lib.TaskPool
import TsStack.Primitives.Hex

/-
  The pull half of `GASP.sync`.

  The steps of a run are the page requests, the beginnings
  and ends of the ingest tasks in any order, and the end of
  each page.  A task completes its graph or fails; what it
  does in between does not touch the state of the loop.
  `txid.index` determines its parts, so that outpoints are
  modeled by pairs.
-/

-- Values and Their Checks

namespace TsStack.Gasp

def MAX_SYNC_PAGE_SIZE : Nat := 10000

def DEFAULT_SYNC_PAGE_SIZE : Nat := 1000

def MAX_CONCURRENT_TASKS : Nat := 8

def MAX_PROTOCOL_IDENTIFIER_LENGTH : Nat := 128

structure Outpoint where
  txid : JsString
  outputIndex : Nat
deriving DecidableEq, Repr

structure GASPOutput extends Outpoint where
  score : Nat
deriving DecidableEq, Repr

def isSafeIdentifier (value : JsString) : Bool :=
  !value.isEmpty && value.all fun c => c.isAlphanum || c = '_' || c = '-'

def assertIdentifier (value : JsString) (label : String) : Except JsError Unit :=
  if value.length = 0 ∨ value.length > MAX_PROTOCOL_IDENTIFIER_LENGTH ∨
        isSafeIdentifier value = false ∨ value = "__proto__".toList ∨
            value = "constructor".toList ∨ value = "prototype".toList then
    .error (.typeError (label ++ " is invalid"))
  else .ok ()

/- `assertOutputIndex` on an integer. -/
def assertOutputIndex (value : Nat) (label : String) : Except JsError Unit :=
  if value > 0xffffffff then .error (.typeError (label ++ " is invalid"))
  else .ok ()

def assertScore (value : Nat) (label : String) : Except JsError Unit :=
  if isSafeInteger value then .ok ()
  else .error (.typeError (label ++ " is invalid"))

/- The loop of `validateUTXOList` from an index on. -/
def validateUTXOsFrom :
  Nat → List Outpoint → List GASPOutput → Except JsError Unit
| _, _, [] => .ok ()
| index, seen, item :: items => do
    let label := "UTXO " ++ toString index
    assertIdentifier item.txid (label ++ " txid")
    assertOutputIndex item.outputIndex (label ++ " output index")
    assertScore item.score (label ++ " score")
    if item.toOutpoint ∈ seen then .error (.typeError "Duplicate UTXO in GASP list")
    else validateUTXOsFrom (index + 1) (item.toOutpoint :: seen) items

def validateUTXOList
  (value : List GASPOutput) (maxItems : Nat) : Except JsError (List GASPOutput) := do
  if value.length > maxItems then .error (.typeError "Invalid or oversized UTXO list format")
  else do
    validateUTXOsFrom 0 [] value
    return value

def validateTimestamp (timestamp : Nat) : Except JsError Unit :=
  if isSafeInteger timestamp then .ok ()
  else .error (.typeError "Invalid timestamp format")

/- `validateLimit` on an integer. -/
def validateLimit (limit : Nat) : Except JsError Unit :=
  if limit < 1 ∨ limit > MAX_SYNC_PAGE_SIZE then .error (.typeError "Invalid limit format")
  else .ok ()

/- `GASPInitialResponse`. -/
structure InitialResponse where
  since : Nat
  UTXOList : List GASPOutput
deriving DecidableEq, Repr

def validateInitialResponse
  (value : InitialResponse) (maxItems : Nat) : Except JsError InitialResponse := do
  validateTimestamp value.since
  let UTXOList ← validateUTXOList value.UTXOList maxItems
  return { value with UTXOList := UTXOList }

-- The State of a Run

/-
  The parties of a run: the list of the local store and the
  remote's answer to a score and a limit.
-/
structure SyncConfig where
  limit : Option Nat
  unidirectional : Bool
  sequential : Bool
  findKnownUTXOs : Except JsError (List GASPOutput)
  getInitialResponse : Nat → Nat → Except JsError InitialResponse

variable (config : SyncConfig)

def SyncConfig.effectiveLimit : Nat :=
  config.limit.getD DEFAULT_SYNC_PAGE_SIZE

/- How an ingest task ends. -/
inductive IngestOutcome where
| completed
| failed
deriving DecidableEq, Repr

/- The locals of a page while its tasks run. -/
structure Page where
  since : Nat
  response : InitialResponse
  pageMaxScore : Nat
  pageHadFailures : Bool
deriving DecidableEq, Repr

/- Where a run is. -/
inductive SyncPhase where
| request
| ingest
    (page : Page) (pool : TaskPool GASPOutput IngestOutcome)
| finished (outgoing : List GASPOutput)
| threw (error : JsError)

/-
  The state of a run, with the requests made for the listed
  outputs and the ends of their tasks so far.
-/
structure SyncState where
  lastInteraction : Nat
  localUTXOs : List GASPOutput
  knownOutpoints : List Outpoint
  sharedOutpoints : List Outpoint := []
  phase : SyncPhase
  requested : List GASPOutput := []
  attempts : List (GASPOutput × IngestOutcome) := []

def beginSync (lastInteraction : Nat) : SyncState :=
  let prepared : Except JsError (List GASPOutput) := do
    validateLimit config.effectiveLimit
    let found ← config.findKnownUTXOs
    validateUTXOList found MAX_SYNC_PAGE_SIZE
  match prepared with
  | .error error =>
    { lastInteraction := lastInteraction
      localUTXOs := []
      knownOutpoints := []
      phase := .threw error }
  | .ok localUTXOs =>
    { lastInteraction := lastInteraction
      localUTXOs := localUTXOs
      knownOutpoints := localUTXOs.map (·.toOutpoint)
      phase := .request }

-- Pages

/- What the loop over a page leaves. -/
structure Classified where
  knownOutpoints : List Outpoint
  sharedOutpoints : List Outpoint
  ingestQueue : List GASPOutput
  pageMaxScore : Nat
deriving DecidableEq, Repr

def Classified.turn (classified : Classified) (utxo : GASPOutput) : Classified :=
  let pageMaxScore := max classified.pageMaxScore utxo.score
  let outpoint := utxo.toOutpoint
  if outpoint ∈ classified.knownOutpoints then
    { classified with
      knownOutpoints := classified.knownOutpoints.filter (· ≠ outpoint)
      sharedOutpoints := classified.sharedOutpoints ++ [outpoint]
      pageMaxScore := pageMaxScore }
  else if outpoint ∉ classified.sharedOutpoints then
    { classified with
      ingestQueue := classified.ingestQueue ++ [utxo]
      pageMaxScore := pageMaxScore }
  else { classified with pageMaxScore := pageMaxScore }

variable (state : SyncState)

def classifyPage (items : List GASPOutput) : Classified :=
  items.foldl Classified.turn
    { knownOutpoints := state.knownOutpoints
      sharedOutpoints := state.sharedOutpoints
      ingestQueue := []
      pageMaxScore := state.lastInteraction }

def requestPage (since : Nat) : Except JsError InitialResponse := do
  validateTimestamp since
  validateLimit config.effectiveLimit
  let response ← config.getInitialResponse since config.effectiveLimit
  validateInitialResponse response config.effectiveLimit

/- `sync` from a page request to its ingest tasks. -/
def receivePage : SyncState :=
  match requestPage config state.lastInteraction with
  | .error error => { state with phase := .threw error }
  | .ok response =>
    let classified := classifyPage state response.UTXOList
    { state with
      knownOutpoints := classified.knownOutpoints
      sharedOutpoints := classified.sharedOutpoints
      phase := .ingest
          { since := state.lastInteraction
            response := response
            pageMaxScore := classified.pageMaxScore
            pageHadFailures := false }
          { waiting := classified.ingestQueue } }

/- The workers `runConcurrently` starts. -/
def workers : Nat :=
  if config.sequential then 1 else MAX_CONCURRENT_TASKS

def settleIngest (page : Page) (pool : TaskPool GASPOutput IngestOutcome)
  (utxo : GASPOutput) :
  IngestOutcome → SyncState
| .completed =>
  { state with
    sharedOutpoints := state.sharedOutpoints ++ [utxo.toOutpoint]
    phase := .ingest page pool
    attempts := state.attempts ++ [(utxo, .completed)] }
| .failed =>
  { state with
    phase := .ingest { page with pageHadFailures := true } pool
    attempts := state.attempts ++ [(utxo, .failed)] }

/- The outputs the reply half sends. -/
def outgoingUTXOs (page : Page) : List GASPOutput :=
  if config.unidirectional then []
  else
    state.localUTXOs.filter fun utxo =>
      page.response.since ≤ utxo.score && utxo.toOutpoint ∉ state.sharedOutpoints

def endPage (page : Page) : SyncState :=
  let lastInteraction :=
    if page.pageHadFailures then state.lastInteraction
    else page.pageMaxScore
  let full := config.effectiveLimit ≤ page.response.UTXOList.length
  if full ∧ lastInteraction ≤ page.since then
    { state with
      lastInteraction := lastInteraction
      phase := .threw (.error ("GASP peer returned a full page without " ++
            "advancing the synchronization score")) }
  else if full then
    { state with
      lastInteraction := lastInteraction
      phase := .request }
  else
    { state with
      lastInteraction := lastInteraction
      phase := .finished (outgoingUTXOs config state page) }

inductive SyncStep (config : SyncConfig) : SyncState → SyncState → Prop where
| request
    {state : SyncState} (hPhase : state.phase = .request) :
    SyncStep config state (receivePage config state)
| begin
    {state : SyncState} {page : Page} {pool next : TaskPool GASPOutput IngestOutcome}
    {utxo : GASPOutput} (hPhase : state.phase = .ingest page pool)
    (hBegins : pool.Begins (workers config) utxo next) :
    SyncStep config state
      { state with
        phase := .ingest page next
        requested := state.requested ++ [utxo] }
| settle
    {state : SyncState} {page : Page} {pool next : TaskPool GASPOutput IngestOutcome}
    {utxo : GASPOutput} {outcome : IngestOutcome} (hPhase : state.phase = .ingest page pool)
    (hSettles : pool.Settles utxo outcome next) :
    SyncStep config state (settleIngest state page next utxo outcome)
| endPage
    {state : SyncState} {page : Page} {pool : TaskPool GASPOutput IngestOutcome}
    (hPhase : state.phase = .ingest page pool) (hOver : pool.Over) :
    SyncStep config state (endPage config state page)

end TsStack.Gasp
