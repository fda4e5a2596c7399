import TsStack.Wallet.EntityMerge

/-
  The chunks of a wallet sync: `getSyncChunk`, with its two
  limits, on the source and `processSyncChunk` of
  `EntitySyncState.ts` on the target.

  The rows of a kind are those of the user, in the order of
  their key.  Of a row a chunk carries its id, if its kind
  has an id map, its date, the length of its JSON text and
  the ids it refers to.  The target's merge of a row is the
  call it gets and the id of the row it merges into.  The
  target has a user with the identity key of the source's.
-/

-- The Source

namespace TsStack.Wallet

/- The kinds in dependency order. -/
def EntityName.all : List EntityName :=
  [.provenTx, .outputBasket, .outputTag, .txLabel,
    .transaction, .output, .txLabelMap, .outputTagMap, .certificate, .certificateField, .commission,
    .provenTxReq]

/- The kinds whose ids the rows of a kind carry. -/
def EntityName.foreignNames :
  EntityName → List EntityName
| .transaction => [.provenTx]
| .output => [.outputBasket, .transaction]
| .txLabelMap => [.txLabel, .transaction]
| .outputTagMap => [.outputTag, .output]
| .certificateField => [.certificate]
| .commission => [.transaction]
| .provenTxReq => [.provenTx, .transaction]
| _ => []

structure SyncEntity where
  key : Nat
  id : Option Nat
  updatedAt : Int
  roughSize : Nat := 0
  foreignIds : List (EntityName × Nat) := []
  id_pos : ∀ i ∈ id, 1 ≤ i := by decide

structure SyncUser where
  updatedAt : Int
  activeStorage : Option String := none
deriving DecidableEq, Repr

structure SyncSource where
  rows : EntityName → List SyncEntity
  user : SyncUser
  keys_nodup : ∀ name, ((rows name).map SyncEntity.key).Nodup
  foreign_mem : ∀ name, ∀ ei ∈ rows name, ∀ foreign ∈ ei.foreignIds, foreign.1 ∈ name.foreignNames

/- A date passes the filter of `setupQuery`. -/
def isSince (since : Option Int) (date : Int) : Bool :=
  since.all fun start => start ≤ date

namespace SyncSource

def rowsSince (source : SyncSource) (since : Option Int) (name : EntityName) : List SyncEntity :=
  (source.rows name).filter fun ei => isSince since ei.updatedAt

/- One paged query. -/
def findItems (source : SyncSource) (since : Option Int) (name : EntityName)
  (limit offset : Nat) : List SyncEntity :=
  ((source.rowsSince since name).drop offset).take limit

end SyncSource

-- Chunks

structure PageLimits where
  maxItems : Nat
  maxRoughSize : Nat
  maxItems_pos : 1 ≤ maxItems

structure RequestSyncChunkArgs where
  since : Option Int
  limits : PageLimits
  offsets : List (EntityName × Nat)

structure SyncChunk where
  user : Option SyncUser
  stateArray : EntityName → Option (List SyncEntity)

inductive SyncError
| offsetsOrder (expected found : EntityName)
| merge (error : EntityError)
deriving DecidableEq, Repr

def minSyncQueryItems : Nat := 10

def maxSyncQueryItems : Nat := 250

def syncQueryGrowthFactor : Nat := 8

def EntityName.maxDivider : EntityName → Nat
| .provenTx => 100
| .outputBasket => 1
| .outputTag => 1
| .txLabel => 1
| .transaction => 25
| .output => 25
| .txLabelMap => 1
| .outputTagMap => 1
| .certificate => 25
| .certificateField => 25
| .commission => 25
| .provenTxReq => 100

def getNextSyncQueryLimit (currentLimit itemsRemaining : Nat) (roughSizeRemaining : Int)
  (batchRoughSize batchItemCount : Nat) : Nat :=
  let averageItemSize := max 1 ((batchRoughSize + batchItemCount - 1) / batchItemCount)
  let estimatedItemsRemaining := max 1 (roughSizeRemaining.toNat / averageItemSize)
  min itemsRemaining (min maxSyncQueryItems
      (min (currentLimit * syncQueryGrowthFactor) estimatedItemsRemaining))

/- What `appendSyncItems` adds and returns. -/
structure AppendedItems where
  added : List SyncEntity
  offset : Nat
  itemCount : Nat
  roughSize : Int
  batchRoughSize : Nat
  done : Bool

def appendSyncItems :
  List SyncEntity → Nat → Nat → Int → AppendedItems
| [], offset, itemCount, roughSize => ⟨[], offset, itemCount, roughSize, 0, false⟩
| item :: items, offset, itemCount, roughSize =>
  let itemCount := itemCount - 1
  let roughSize := roughSize - item.roughSize
  if itemCount ≤ 0 ∨ roughSize < 0 then
    ⟨[item], offset + 1, itemCount, roughSize, item.roughSize, true⟩
  else
    let rest := appendSyncItems items (offset + 1) itemCount roughSize
    { rest with
      added := item :: rest.added
      batchRoughSize := item.roughSize + rest.batchRoughSize }

/- What is left of the limits, and the array of a kind. -/
structure PageState where
  itemCount : Nat
  roughSize : Int
  done : Bool
  items : Option (List SyncEntity) := none

/- The loop of `addItems`, with a bound on its rounds. -/
def addPages (findItems : Nat → Nat → List SyncEntity) :
  Nat → Nat → Nat → PageState → PageState
| 0, _, _, state => state
| fuel + 1, limit, offset, state =>
  if state.done ∨ limit = 0 then state
  else
    let items := findItems limit offset
    let added := state.items.getD []
    if items.isEmpty then { state with items := some added }
    else
      let appended := appendSyncItems items offset state.itemCount state.roughSize
      let state : PageState :=
        { itemCount := appended.itemCount
          roughSize := appended.roughSize
          done := appended.done
          items := some (added ++ appended.added) }
      if appended.done ∨ items.length < limit then state
      else
        addPages findItems fuel (getNextSyncQueryLimit limit appended.itemCount
            appended.roughSize appended.batchRoughSize items.length)
          appended.offset state

/- The variables of `getSyncChunk`; `i` is the offsets left. -/
structure ChunkState where
  itemCount : Nat
  roughSize : Int
  done : Bool := false
  offsets : List (EntityName × Nat)
  stateArray : EntityName → Option (List SyncEntity) := fun _ => none

def firstQueryLimit (maxItems itemCount : Nat) (name : EntityName) : Nat :=
  min itemCount (min maxSyncQueryItems (max minSyncQueryItems
        ((maxItems + name.maxDivider - 1) / name.maxDivider)))

def addItems (source : SyncSource) (args : RequestSyncChunkArgs) (state : ChunkState)
  (name : EntityName) : Except SyncError ChunkState :=
  match state.offsets with
  | [] => .ok { state with done := true }
  | (oname, offset) :: offsets =>
    if name ≠ oname then .error (.offsetsOrder name oname)
    else
      let page := addPages (source.findItems args.since name) (state.itemCount + 1)
          (firstQueryLimit args.limits.maxItems state.itemCount name) offset
          { itemCount := state.itemCount
            roughSize := state.roughSize
            done := state.done
            items := state.stateArray name }
      .ok
        { itemCount := page.itemCount
          roughSize := page.roughSize
          done := page.done
          offsets := offsets
          stateArray := fun other =>
            if other = name then page.items
            else state.stateArray other }

def addRounds (source : SyncSource) (args : RequestSyncChunkArgs) :
  Nat → ChunkState → Except SyncError ChunkState
| 0, state => .ok state
| fuel + 1, state =>
  if state.done then .ok state
  else do
    let state ← EntityName.all.foldlM (addItems source args) state
    addRounds source args fuel state

def getSyncChunk (source : SyncSource) (args : RequestSyncChunkArgs) :
  Except SyncError SyncChunk := do
  let userIsNewer := args.since.all fun since => since < source.user.updatedAt
  let state ← addRounds source args (args.offsets.length + 1)
      { itemCount := args.limits.maxItems
        roughSize := args.limits.maxRoughSize
        offsets := args.offsets }
  return {
    user := if userIsNewer then some source.user else none
    stateArray := state.stateArray }

-- The Target

structure LocalIds where
  id : EntityName → Nat → Nat
  id_pos : ∀ name inId, 1 ≤ id name inId

/- A row that is handed to the target's merge. -/
structure MergeCall where
  name : EntityName
  ei : SyncEntity
  syncMap : SyncMap

/- `when` is the next `since`. -/
structure EntitySyncState where
  syncMap : SyncMap
  when : Option Int
  user : SyncUser

namespace EntitySyncState

def makeRequestSyncChunkArgs
  (state : EntitySyncState) (limits : PageLimits) : RequestSyncChunkArgs :=
  { since := state.when
    limits := limits
    offsets := EntityName.all.map fun name => (name, (state.syncMap name).count) }

/- The body of the loop of `MergeEntity.merge`. -/
def mergeEntity (localIds : LocalIds) (name : EntityName) (syncMap : SyncMap)
  (ei : SyncEntity) : Except EntityError SyncMap :=
  let esm := syncMap name
  let esm :=
    { esm with
      maxUpdatedAt := MergeEntity.maxDate esm.maxUpdatedAt ei.updatedAt }
  match ei.id with
  | none => .ok (syncMap.set name esm)
  | some inId => do
      let idMap ← MergeEntity.updateSyncMap esm.idMap inId (localIds.id name inId)
      return syncMap.set name { esm with idMap := idMap }

/- `MergeEntity.merge` and the calls it makes. -/
def mergeEntities (localIds : LocalIds) (name : EntityName) :
  SyncMap → List SyncEntity → Except EntityError (SyncMap × List MergeCall)
| syncMap, [] => .ok (syncMap, [])
| syncMap, ei :: entities => do
    let merged ← mergeEntity localIds name syncMap ei
    let (last, calls) ← mergeEntities localIds name merged entities
    return (last, ⟨name, ei, syncMap⟩ :: calls)

/- The variables of `processSyncChunk`. -/
structure ProcessState where
  syncMap : SyncMap
  maxUpdatedAt : Option Int
  done : Bool
  calls : List MergeCall

def maxDates : Option Int → Option Int → Option Int
| date, none => date
| date, some other => MergeEntity.maxDate date other

/- The body of the loop over the kinds. -/
def processEntities
  (localIds : LocalIds) (chunk : SyncChunk) (state : ProcessState) (name : EntityName) :
  Except EntityError ProcessState := do
  let items := (chunk.stateArray name).getD []
  let (syncMap, calls) ← mergeEntities localIds name state.syncMap items
  let esm := syncMap name
  return {
    syncMap := syncMap.set name { esm with count := esm.count + items.length }
    maxUpdatedAt := maxDates state.maxUpdatedAt esm.maxUpdatedAt
    done := state.done && (chunk.stateArray name).any List.isEmpty
    calls := state.calls ++ calls }

/- The condition of the user's `mergeExisting`. -/
def mergesUser (user ei : SyncUser) : Bool :=
  user.updatedAt < ei.updatedAt || (user.activeStorage.isNone && ei.activeStorage.isSome)

def mergeUser (user ei : SyncUser) : SyncUser :=
  if mergesUser user ei then
    { updatedAt := max ei.updatedAt user.updatedAt
      activeStorage := ei.activeStorage }
  else user

/- What `processSyncChunk` returns and leaves. -/
structure ProcessResult where
  done : Bool
  state : EntitySyncState
  calls : List MergeCall

def processSyncChunk (localIds : LocalIds) (state : EntitySyncState) (chunk : SyncChunk) :
  Except EntityError ProcessResult := do
  let mergedUser := chunk.user.filter (mergesUser state.user)
  let last ← EntityName.all.foldlM (processEntities localIds chunk)
      { syncMap := state.syncMap
        maxUpdatedAt := mergedUser.map SyncUser.updatedAt
        done := true
        calls := [] }
  let user := (chunk.user.map (mergeUser state.user)).getD state.user
  if last.done then
    return {
      done := true
      state :=
        { syncMap := fun name => { last.syncMap name with count := 0 }
          when := last.maxUpdatedAt
          user := user }
      calls := last.calls }
  else
    return {
      done := false
      state :=
        { syncMap := last.syncMap
          when := state.when
          user := user }
      calls := last.calls }

end EntitySyncState

def syncPage
  (source : SyncSource) (localIds : LocalIds) (limits : PageLimits) (state : EntitySyncState) :
  Except SyncError EntitySyncState.ProcessResult := do
  let chunk ← getSyncChunk source (state.makeRequestSyncChunkArgs limits)
  (state.processSyncChunk localIds chunk).mapError .merge

/- What at most `fuel` pages of the loop did. -/
structure SyncRun where
  done : Bool
  state : EntitySyncState
  calls : List MergeCall

/- The loop of `syncToWriter`, page by page. -/
def syncLoop (source : SyncSource) (localIds : LocalIds) (limits : Nat → PageLimits) :
  Nat → Nat → EntitySyncState → Except SyncError SyncRun
| 0, _, state => .ok ⟨false, state, []⟩
| fuel + 1, i, state => do
    let page ← syncPage source localIds (limits i) state
    if page.done then return ⟨true, page.state, page.calls⟩
    else do
      let rest ← syncLoop source localIds limits fuel (i + 1) page.state
      return { rest with calls := page.calls ++ rest.calls }

end TsStack.Wallet
