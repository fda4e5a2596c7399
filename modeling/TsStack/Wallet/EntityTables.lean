import TsStack.Lib.KeyedRows

/-
  The rows, the storage and the id maps that the entities of
  a wallet sync read and write.

  Dates are milliseconds.  A field that may be undefined is
  an option.  A storage function that throws is rolled back
  with its database transaction, so it returns no storage.
-/

-- Sync Maps

namespace TsStack.Wallet

/- The kinds of entities, in the order they are synced. -/
inductive EntityName
| provenTx
| outputBasket
| outputTag
| txLabel
| transaction
| output
| txLabelMap
| outputTagMap
| certificate
| certificateField
| commission
| provenTxReq
deriving DecidableEq, Repr

structure EntitySyncMap where
  idMap : Nat → Option Nat := fun _ => none
  maxUpdatedAt : Option Int := none
  count : Nat := 0

abbrev SyncMap := EntityName → EntitySyncMap

def createSyncMap : SyncMap := fun _ => {}

def SyncMap.set (syncMap : SyncMap) (name : EntityName) (esm : EntitySyncMap) : SyncMap :=
  fun other => if other = name then esm else syncMap other

inductive EntityError
| integerRequired
| idGreaterThanZero
| resultMustBeUnique
| undefinedBinding
| cannotOverride (inId current outId : Nat)
deriving DecidableEq, Repr

def EntityError.message : EntityError → String
| .integerRequired => "An integer is required."
| .idGreaterThanZero => "id must be valid integer greater than zero."
| .resultMustBeUnique => "Result must be unique."
| .undefinedBinding => "Undefined binding(s) detected"
| .cannotOverride inId current outId =>
  "updateSyncMap map[" ++ toString inId ++ "] can't override " ++ toString current ++
    " with " ++ toString outId

def verifyId : Option Nat → Except EntityError Nat
| none => .error .integerRequired
| some id => if id < 1 then .error .idGreaterThanZero else .ok id

def verifyOneOrNone {α : Type} (results : List α) : Except EntityError (Option α) :=
  if results.length > 1 then .error .resultMustBeUnique
  else .ok results.head?

-- Rows

inductive StorageProvidedBy
| you
| storage
| youAndStorage
deriving DecidableEq, Repr

inductive TransactionStatus
| completed
| failed
| unprocessed
| sending
| unproven
| unsigned
| nosend
| nonfinal
| unfail
deriving DecidableEq, Repr

structure TableOutput where
  createdAt : Int
  updatedAt : Int
  outputId : Nat
  userId : Nat
  transactionId : Nat
  basketId : Option Nat := none
  spendable : Bool
  change : Bool
  outputDescription : String := ""
  vout : Nat
  satoshis : Int
  providedBy : StorageProvidedBy := .you
  purpose : String := ""
  type : String := ""
  txid : Option String := none
  senderIdentityKey : Option String := none
  derivationPrefix : Option String := none
  derivationSuffix : Option String := none
  customInstructions : Option String := none
  spentBy : Option Nat := none
  sequenceNumber : Option Nat := none
  spendingDescription : Option String := none
  scriptLength : Option Nat := none
  scriptOffset : Option Nat := none
  lockingScript : Option (List UInt8) := none
deriving DecidableEq, Repr

inductive Brc177NoSendExpiryMode
| seconds
| timestamp
| blockheight
| never
deriving DecidableEq, Repr

inductive Brc177NoSendExpiryState
| preparing
| unsigned
| signed
| revocationRequested
| broadcast
| reclaiming
| reclaimed
| targetWon
| conflicted
| cancelled
deriving DecidableEq, Repr

structure NoSendExpirySnapshot where
  noSendExpiryMode : Option Brc177NoSendExpiryMode := none
  noSendExpiryValue : Option Nat := none
  noSendExpiryDeadline : Option Int := none
  noSendExpiryState : Option Brc177NoSendExpiryState := none
  noSendExpiryAnchorTxid : Option String := none
  noSendExpiryAnchorVout : Option Nat := none
  noSendExpiryReleasedAt : Option Int := none
  noSendExpiryObservedAt : Option Int := none
  noSendExpiryReclaimTxid : Option String := none
  noSendExpiryReclaimRawTx : Option (List UInt8) := none
  noSendExpiryReclaimDerivationPrefix : Option String := none
  noSendExpiryReclaimDerivationSuffix : Option String := none
  noSendExpiryReclaimSatoshis : Option Int := none
deriving DecidableEq, Repr

structure TableTransaction extends NoSendExpirySnapshot where
  createdAt : Int
  updatedAt : Int
  transactionId : Nat
  userId : Nat
  provenTxId : Option Nat := none
  status : TransactionStatus
  reference : String
  isOutgoing : Bool
  satoshis : Int
  description : String := ""
  version : Option Nat := none
  lockTime : Option Nat := none
  txid : Option String := none
  inputBEEF : Option (List UInt8) := none
  rawTx : Option (List UInt8) := none
deriving DecidableEq, Repr

-- Storage

structure EntityStorage where
  outputs : List TableOutput := []
  transactions : List TableTransaction := []
  nextOutputId : Nat := 1
  nextTransactionId : Nat := 1
deriving DecidableEq, Repr

namespace EntityStorage

variable (storage : EntityStorage)

def findOutputs (matchesPartial : TableOutput → Bool) :
  List TableOutput :=
  storage.outputs.filter matchesPartial

def findTransactions (matchesPartial : TableTransaction → Bool) :
  List TableTransaction :=
  storage.transactions.filter matchesPartial

def insertOutput (output : TableOutput) : Nat × EntityStorage :=
  let id :=
    if output.outputId = 0 then storage.nextOutputId
    else output.outputId
  (id, { storage with
    outputs := storage.outputs ++ [{ output with outputId := id }]
    nextOutputId := max storage.nextOutputId (id + 1) })

def insertTransaction (transaction : TableTransaction) : Nat × EntityStorage :=
  let id :=
    if transaction.transactionId = 0 then storage.nextTransactionId
    else transaction.transactionId
  (id, { storage with
    transactions := storage.transactions ++ [{ transaction with transactionId := id }]
    nextTransactionId := max storage.nextTransactionId (id + 1) })

def updateOutput (id : Nat) (update : TableOutput → TableOutput) : EntityStorage :=
  { storage with
    outputs := KeyedRows.update TableOutput.outputId id update storage.outputs }

def updateTransaction (id : Nat) (update : TableTransaction → TableTransaction) :
  EntityStorage :=
  { storage with
    transactions := KeyedRows.update TableTransaction.transactionId id update storage.transactions }

end EntityStorage

-- Lookups

theorem verifyId_eq_ok_iff (id : Option Nat) (result : Nat) :
  verifyId id = .ok result ↔ id = some result ∧ 1 ≤ result := by
  cases id with
  | none => simp [verifyId]
  | some id =>
    unfold verifyId
    dsimp only
    by_cases hId : id < 1
    · rw [if_pos hId]
      constructor
      · intro hEq
        cases hEq
      · rintro ⟨hEq, hPos⟩
        cases hEq
        omega
    · rw [if_neg hId]
      constructor
      · intro hEq
        cases hEq
        exact ⟨rfl, Nat.le_of_not_lt hId⟩
      · rintro ⟨hEq, -⟩
        cases hEq
        rfl

theorem verifyId_some {id : Nat} (hPos : 1 ≤ id) : verifyId (some id) = .ok id :=
  (verifyId_eq_ok_iff _ _).mpr ⟨rfl, hPos⟩

/- What a lookup finds is the only match. -/
theorem verifyOneOrNone_eq_ok_iff {α : Type} (results : List α) (result : Option α) :
  verifyOneOrNone results = .ok result ↔ results = result.toList := by
  unfold verifyOneOrNone
  cases results with
  | nil =>
    cases result with
    | none => simp
    | some value => simp
  | cons first rest =>
    cases rest with
    | nil =>
      cases result with
      | none => simp
      | some value => simp
    | cons second rest =>
      cases result with
      | none => simp
      | some value => simp

theorem filter_eq_singleton_only
  {α : Type} {rows : List α} {p : α → Bool} {row : α} (hFilter : rows.filter p = [row]) :
  (row ∈ rows ∧ p row = true) ∧ ∀ other ∈ rows, p other = true → other = row := by
  have hRow : row ∈ rows.filter p := by
    rw [hFilter]
    exact List.mem_singleton_self row
  refine ⟨List.mem_filter.mp hRow, ?_⟩
  intro other hOther hP
  have hMem : other ∈ rows.filter p := List.mem_filter.mpr ⟨hOther, hP⟩
  rw [hFilter] at hMem
  exact List.mem_singleton.mp hMem

end TsStack.Wallet
