import Mathlib.Data.List.Sort
import TsStack.Mandala.AssetState
import TsStack.Topics.TokenTransaction
import TsStack.Transaction.MerklePath

/-
  The admin history of `MandalaLookupService.ts` and
  `MandalaStorageManager.ts`: what a notification records
  and folds, and the refolds.

  The decoder of admin details is given by a function of the
  text and the output index.  The documents that are keyed
  by a token are functions of it.
-/

-- Records

namespace TsStack.Mandala

inductive Role where
| deploy
| authority
| value
deriving DecidableEq, Repr

structure MandalaTokenRecord where
  outpoint : TokenOutpoint
  tokenId : JsString
  amount : Nat
  identityKey : JsString
deriving DecidableEq, Repr

structure AdminHistoryEntry where
  tokenId : JsString
  txid : Bytes
  outputIndex : Nat
  detailsHex : JsString
  height : Nat
  offset : Nat
  admitSeq : Nat
  frozenAmount : Option Nat := none
  frozenOwner : Option JsString := none
deriving DecidableEq, Repr

structure MandalaStorage where
  tokens : List MandalaTokenRecord := []
  metadata : JsString → Option (Option Nat) := fun _ => none
  assetStates : JsString → Option AssetAdminState := fun _ => none
  adminHistory : List AdminHistoryEntry := []
  admitSeq : Nat := 0

structure Admitted where
  txid : Bytes
  merklePath : Option MerklePath
  outputIndex : Nat
  tokenId : JsString
  role : Role
  metadata : Except JsError (Option Nat)
  hasCommitment : Bool
  detailsHex : Option JsString

/- `MandalaStorageManager.getTokenRow`, by the outpoint's text. -/
def getTokenRow
  (tokens : List MandalaTokenRecord) (outpoint : JsString) : Option MandalaTokenRecord :=
  tokens.find? fun row => outpointText '.' row.outpoint = outpoint

def MandalaStorage.getAssetState
  (storage : MandalaStorage) (tokenId : JsString) : AssetAdminState :=
  (storage.assetStates tokenId).getD (defaultAssetState tokenId none)

def MandalaStorage.putAssetState
  (storage : MandalaStorage) (s : AssetAdminState) : MandalaStorage :=
  { storage with
    assetStates := Function.update storage.assetStates s.tokenId (some s) }

def MandalaStorage.putAssetStateIfAbsent
  (storage : MandalaStorage) (s : AssetAdminState) : MandalaStorage :=
  match storage.assetStates s.tokenId with
  | some _ => storage
  | none => storage.putAssetState s

def MandalaStorage.storeMetadata
  (storage : MandalaStorage) (tokenId : JsString) (feeRatePerKb : Option Nat) : MandalaStorage :=
  { storage with
    metadata := Function.update storage.metadata tokenId (some feeRatePerKb) }

def MandalaStorage.insertEntry
  (storage : MandalaStorage) (entry : AdminHistoryEntry) : MandalaStorage :=
  { storage with
    admitSeq := entry.admitSeq
    adminHistory := storage.adminHistory ++ [entry] }

def AdminHistoryEntry.key (entry : AdminHistoryEntry) : JsString × Bytes × Nat :=
  (entry.tokenId, entry.txid, entry.outputIndex)

/- The order of a fold, `(height, offset, admitSeq)`. -/
def AdminHistoryEntry.FoldsBefore (entry other : AdminHistoryEntry) : Prop :=
  entry.height < other.height ∨ entry.height = other.height ∧
      (entry.offset < other.offset ∨ entry.offset = other.offset ∧ entry.admitSeq ≤ other.admitSeq)

instance : DecidableRel AdminHistoryEntry.FoldsBefore :=
  fun entry other => by
    unfold AdminHistoryEntry.FoldsBefore
    infer_instance

variable
    (decodeAdminDetails : JsString → Nat → Except JsError AdminDetails)

def txOrdering (txid : Bytes) (merklePath : Option MerklePath) : Nat × Nat :=
  match merklePath with
  | none => (maxSafeInteger, 0)
  | some mp =>
    let leaf := (mp.path.head?.getD []).find? fun l =>
      decide (l.hash = some (toHex txid)) && l.txid.getD false
    (mp.blockHeight, (leaf.map (·.offset)).getD 0)

def committedAction (admitted : Admitted) :
  Except JsError (Option (AdminDetails × JsString)) :=
  match admitted.role with
  | .authority =>
    if !admitted.hasCommitment then .ok none
    else
      match admitted.detailsHex with
      | none => .ok none
      | some detailsHex => do
          let details ← decodeAdminDetails detailsHex admitted.outputIndex
          return some (details, detailsHex)
  | _ => .ok none

def frozenOutpoint (details : AdminDetails) : Option JsString :=
  if details.kind = .freezeOutput then details.outpoint
  else none

def liveFoldContext (tokens : List MandalaTokenRecord) (details : AdminDetails)
  (tokenId : JsString) : FoldContext :=
  match frozenOutpoint details with
  | none => {}
  | some outpoint =>
    match getTokenRow tokens outpoint with
    | none => ⟨some 0, some []⟩
    | some row =>
      if row.tokenId ≠ tokenId then ⟨some 0, some []⟩
      else ⟨some row.amount, some row.identityKey⟩

def folded (state : AssetAdminState) (details : AdminDetails) (entry : AdminHistoryEntry)
  (context : FoldContext) : AssetAdminState :=
  { foldAction state details context with
    lastProcessedHeight := entry.height
    lastProcessedOffset := entry.offset
    lastAdmitSeq := entry.admitSeq }

def historyEntry (storage : MandalaStorage) (admitted : Admitted) (details : AdminDetails)
  (detailsHex : JsString) : AdminHistoryEntry :=
  let ordering := txOrdering admitted.txid admitted.merklePath
  let context := liveFoldContext storage.tokens details admitted.tokenId
  { tokenId := admitted.tokenId
    txid := admitted.txid
    outputIndex := admitted.outputIndex
    detailsHex := detailsHex
    height := ordering.1
    offset := ordering.2
    admitSeq := storage.admitSeq + 1
    frozenAmount := context.frozenAmount
    frozenOwner := context.frozenOwner }

def MandalaStorage.hasEntry (storage : MandalaStorage) (key : JsString × Bytes × Nat) : Bool :=
  storage.adminHistory.any (·.key = key)

def appendAndFold (storage : MandalaStorage) (details : AdminDetails)
  (entry : AdminHistoryEntry) : MandalaStorage :=
  if storage.hasEntry entry.key then { storage with admitSeq := entry.admitSeq }
  else
    (storage.insertEntry entry).putAssetState
      (folded (storage.getAssetState entry.tokenId) details entry
        (liveFoldContext storage.tokens details entry.tokenId))

def recordAction
  (storage : MandalaStorage) (admitted : Admitted) : Except JsError MandalaStorage := do
  let action ← committedAction decodeAdminDetails admitted
  match action with
  | none => return storage
  | some (details, detailsHex) =>
    return appendAndFold storage details (historyEntry storage admitted details detailsHex)

def indexDeploy (storage : MandalaStorage) (admitted : Admitted) : Except JsError MandalaStorage :=
  match admitted.role with
  | .deploy => do
      let feeRatePerKb ← admitted.metadata
      let stored := storage.storeMetadata admitted.tokenId feeRatePerKb
      return stored.putAssetStateIfAbsent (defaultAssetState admitted.tokenId feeRatePerKb)
  | _ => .ok storage

/- A step of `everyStep`: a fault is kept for the end. -/
def runStep (step : MandalaStorage → Except JsError MandalaStorage)
  (storage : MandalaStorage) : MandalaStorage :=
  match step storage with
  | .ok stored => stored
  | .error _ => storage

/- What `outputAdmittedByTopic` records before the owner. -/
def outputAdmittedByTopic (storage : MandalaStorage) (admitted : Admitted) : MandalaStorage :=
  runStep (indexDeploy · admitted) (runStep (recordAction decodeAdminDetails · admitted) storage)

-- Refolds

end TsStack.Mandala
