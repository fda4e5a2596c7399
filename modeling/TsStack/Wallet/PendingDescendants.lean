import TsStack.Lib.PassClosure
import TsStack.Wallet.TransactionFailure

/-
  The requests for proof of a wallet's transactions, and the
  failure of the pending ones that spend an output of a
  failed transaction.

  A note's `when` is the text of the time it was written.
-/

-- Requests

namespace TsStack.Wallet

inductive ProvenTxReqStatus
| sending
| unsent
| nosend
| unknown
| nonfinal
| unprocessed
| unmined
| callback
| unconfirmed
| completed
| invalid
| doubleSpend
| unfail
deriving DecidableEq, Repr

def ProvenTxReqStatus.text : ProvenTxReqStatus → String
| .sending => "sending"
| .unsent => "unsent"
| .nosend => "nosend"
| .unknown => "unknown"
| .nonfinal => "nonfinal"
| .unprocessed => "unprocessed"
| .unmined => "unmined"
| .callback => "callback"
| .unconfirmed => "unconfirmed"
| .completed => "completed"
| .invalid => "invalid"
| .doubleSpend => "doubleSpend"
| .unfail => "unfail"

def provenTxReqNonTerminalStatus : List ProvenTxReqStatus :=
  [.sending, .unsent, .nosend, .unknown, .nonfinal, .unprocessed, .unmined, .callback, .unconfirmed]

structure ReqHistoryNote where
  whenText : String
  what : String
  details : List (String × String) := []
deriving DecidableEq, Repr

structure TableProvenTxReq where
  updatedAt : Int
  provenTxReqId : Nat
  txid : String
  status : ProvenTxReqStatus
  rawTx : List UInt8
  historyNotes : List ReqHistoryNote := []
  notifyTransactionIds : Option (List Nat) := none
deriving DecidableEq, Repr

namespace TableProvenTxReq

/- Whether the request can still be completed. -/
def isPending (req : TableProvenTxReq) : Bool :=
  provenTxReqNonTerminalStatus.contains req.status

end TableProvenTxReq

structure WriteTime where
  now : Int
  text : String

-- Request Entities

namespace ReqHistoryNote

def repeats (note old : ReqHistoryNote) : Bool :=
  old.whenText == note.whenText && old.what == note.what &&
    old.details.all fun entry => note.details.lookup entry.1 == some entry.2

def sortText (note : ReqHistoryNote) : String :=
  note.whenText ++ " " ++ note.what

end ReqHistoryNote

namespace EntityProvenTxReq

/- `unpackApi`: an id is notified once. -/
def unpackApi (req : TableProvenTxReq) : TableProvenTxReq :=
  { req with
    notifyTransactionIds := req.notifyTransactionIds.map List.eraseDups }

def addHistoryNote (req : TableProvenTxReq) (note : ReqHistoryNote) : TableProvenTxReq :=
  if req.historyNotes.any note.repeats then req
  else
    { req with
      historyNotes :=
        (req.historyNotes ++ [note]).mergeSort fun left right =>
            !decide (right.sortText < left.sortText) }

def setStatus
  (time : WriteTime) (status : ProvenTxReqStatus) (req : TableProvenTxReq) : TableProvenTxReq :=
  if status ≠ req.status then
    { addHistoryNote req
        { whenText := time.text
          what := "status"
          details := [("status_was", req.status.text), ("status_now", status.text)] } with
      status := status }
  else req

def invalidate
  (time : WriteTime) (parentTxids : List String) (req : TableProvenTxReq) : TableProvenTxReq :=
  { addHistoryNote
      (setStatus time .invalid (unpackApi req))
      { whenText := time.text
        what := "failedParentCascade"
        details := [("parentTxids", String.intercalate "," parentTxids)] } with
    updatedAt := time.now }

end EntityProvenTxReq

def sourceTxids (rawTx : List UInt8) : List String :=
  match Transaction.fromBinary rawTx with
  | .error _ => []
  | .ok tx => tx.inputs.filterMap fun input => input.sourceTXID.map String.ofList

/-
  The pending requests that spend an output of a terminal transaction, or of a request found here,
  in the order they fail, each with the failed parents it spends.
-/
def findPendingDescendants (terminalTxids : List String) (pending : List TableProvenTxReq) :
  List (TableProvenTxReq × List String) :=
  (PassClosure.run TableProvenTxReq.txid (fun req => sourceTxids req.rawTx)
    pending terminalTxids).found

-- Failing the Descendants

/- An output is kept from being spent again. -/
def TableOutput.quarantine (now : Int) (output : TableOutput) : TableOutput :=
  { output with spendable := false, updatedAt := now }

@[simp] theorem TableOutput.quarantine_outputId (now : Int) (output : TableOutput) :
  (output.quarantine now).outputId = output.outputId :=
  rfl

structure ProviderStorage extends EntityStorage where
  reqs : List TableProvenTxReq := []
deriving DecidableEq, Repr

namespace ProviderStorage

variable (storage : ProviderStorage)

def updateProvenTxReq (id : Nat) (update : TableProvenTxReq → TableProvenTxReq) :
  ProviderStorage :=
  { storage with
    reqs := KeyedRows.update TableProvenTxReq.provenTxReqId id update storage.reqs }

/- The outputs and transactions are replaced. -/
def withEntities (entities : EntityStorage) : ProviderStorage :=
  { storage with toEntityStorage := entities }

def namedOutpoints (rawTx : List UInt8) :
  Except StatusError (List Outpoint) := do
  let tx ← liftRaw (Transaction.fromBinary rawTx)
  return (tx.inputs.map inputOutpoint).filter (·.txid ≠ "")

def usersOf (txid : String) : List Nat :=
  ((storage.findTransactions (·.txid == some txid)).map (·.userId)).eraseDups

/- `findOutputsByOutpoints`: a later row replaces another. -/
def findOutputByOutpoint (userId : Nat) (outpoint : Outpoint) : Option TableOutput :=
  (storage.findOutputs fun output =>
    output.userId == userId &&
    output.txid == some outpoint.txid &&
    output.vout == outpoint.vout).getLast?

def findLocalInputs (req : TableProvenTxReq) :
  Except StatusError (List (TableOutput × Outpoint)) := do
  let outpoints ← namedOutpoints req.rawTx
  return (storage.usersOf req.txid).flatMap fun userId =>
    outpoints.eraseDups.filterMap fun outpoint =>
      (storage.findOutputByOutpoint userId outpoint).map fun output => (output, outpoint)

def quarantineLocalInputs (now : Int) (localInputs : List (TableOutput × Outpoint)) :
  Except StatusError ProviderStorage := do
  let entities ← storage.toEntityStorage.updateOutputs
    (·.quarantine now) (localInputs.map fun entry => entry.1.outputId)
  return storage.withEntities entities

def quarantineReqInputsFromFailedParents
  (now : Int) (req : TableProvenTxReq) (failedParentTxids : List String) :
  Except StatusError ProviderStorage := do
  let localInputs ← storage.findLocalInputs req
  storage.quarantineLocalInputs now (localInputs.filter fun entry =>
      failedParentTxids.contains entry.2.txid)

def isSettled (tx : TableTransaction) : Bool :=
  tx.status == .failed || tx.status == .completed || tx.provenTxId.isSome

def failTransaction (now : Int) (storage : ProviderStorage) (transactionId : Nat) :
  Except StatusError ProviderStorage :=
  match (storage.findTransactions (·.transactionId == transactionId)).head? with
  | none => .ok storage
  | some tx =>
    if isSettled tx then .ok storage
    else
      (storage.toEntityStorage.updateTransactionStatus now
        .failed (some transactionId) none none).map storage.withEntities

def notifiedIds (req : TableProvenTxReq) : List Nat :=
  let ids := (req.notifyTransactionIds.getD []).eraseDups
  if ids.length = 0 then (storage.findTransactions (·.txid == some req.txid)).map (·.transactionId)
  else ids

def failDescendant
  (time : WriteTime) (storage : ProviderStorage) (descendant : TableProvenTxReq × List String) :
  Except StatusError ProviderStorage := do
  let invalid := storage.updateProvenTxReq
    descendant.1.provenTxReqId (EntityProvenTxReq.invalidate time descendant.2)
  let failed ← (invalid.notifiedIds descendant.1).foldlM (failTransaction time.now) invalid
  failed.quarantineReqInputsFromFailedParents time.now descendant.1 descendant.2

/- The requests that can still be completed. -/
def pendingReqs : List TableProvenTxReq :=
  storage.reqs.filter (·.isPending)

def failPendingDescendants
  (time : WriteTime) (terminalTxids : List String) (storage : ProviderStorage) :
  Except StatusError (List String × ProviderStorage) := do
  let descendants := findPendingDescendants terminalTxids storage.pendingReqs
  let failed ← descendants.foldlM (failDescendant time) storage
  return (descendants.map fun entry => entry.1.txid, failed)

end ProviderStorage

end TsStack.Wallet
