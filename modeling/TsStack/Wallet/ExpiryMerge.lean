import Mathlib.Order.MinMax
import TsStack.Wallet.EntityConvergence

/-
  The merge of two copies of a transaction that was not sent, in
  one direction and in both.
-/

-- The merged copy

namespace TsStack.Wallet.EntityTransaction

def shouldMerge (eo ei : TableTransaction) : Bool :=
  lifecycleAdvanced eo ei || addsProofEvidence eo ei || mergeOrdinaryProperties eo ei

def rank (tx : TableTransaction) : Int := brc177NoSendExpiryStateRank tx.noSendExpiryState

def ProofMapped (ei : TableTransaction) (syncMap : SyncMap) : Prop :=
  ∀ id, ei.provenTxId = some id → ((syncMap .provenTx).idMap id).isSome

/- What the merged copy has of the two. -/
structure Keeps (eo ei row : TableTransaction) (syncMap : SyncMap) : Prop where
  rank_local : rank eo ≤ rank row
  rank_incoming : rank ei ≤ rank row
  state : row.noSendExpiryState = eo.noSendExpiryState ∨
    row.noSendExpiryState = ei.noSendExpiryState ∨
    eo.noSendExpiryState = some .reclaimed ∧ row.noSendExpiryState = some .targetWon
  proof : carriesProofEvidence ei = true → ProofMapped ei syncMap → carriesProofEvidence row = true
  anchorTxid : ∀ txid ∈ eo.noSendExpiryAnchorTxid, row.noSendExpiryAnchorTxid = some txid
  anchorVout : ∀ vout ∈ eo.noSendExpiryAnchorVout, row.noSendExpiryAnchorVout = some vout
  deadline : ∀ time ∈ eo.noSendExpiryDeadline, ∃ earliest ≤ time,
    row.noSendExpiryDeadline = some earliest ∧
      (earliest = time ∨ ei.noSendExpiryDeadline = some earliest)

attribute [ext] NoSendExpirySnapshot

variable {eo ei : TableTransaction} {storage after : EntityStorage} {syncMap : SyncMap} {now : Int}

end TsStack.Wallet.EntityTransaction
