import Mathlib.Algebra.Order.Ring.Int
import TsStack.Mandala.AdminHistory

/-
  The owner index of `MandalaLookupService.ts`,
  `ownership.ts`, `reconcile.ts` and
  `MandalaStorageManager.ts`, one storage call at a time.

  The journal rows of an output name one owner, which the
  output's linkage proves too.  The increment of a stored
  number is given by a function.
-/

-- Journals

namespace TsStack.Mandala

structure ScriptToken where
  role : Role
  tokenId : JsString
  amount : Nat
  amount_le : amount ≤ maxSafeInteger

structure MandalaOwnerRecord where
  role : Role
  tokenId : JsString
  amount : Nat
  identityKey : JsString
deriving DecidableEq, Repr

structure OutputFacts where
  script : TokenOutpoint → ScriptToken
  journal : TokenOutpoint → MandalaOwnerRecord

def isHexDigit (c : Char) : Bool :=
  c.isDigit || (decide ('a' ≤ c) && decide (c ≤ 'f'))

/- `isIdentity`, by `COMPRESSED_KEY`. -/
def isIdentity : JsString → Bool
| '0' :: sign :: rest => (sign == '2' || sign == '3') && rest.length == 64 && rest.all isHexDigit
| _ => false

def sameAmount (stored amount : Nat) : Bool :=
  isSafeInteger stored && stored == amount

def journalAgrees (facts : OutputFacts) (outpoint : TokenOutpoint) : Bool :=
  let journal := facts.journal outpoint
  let token := facts.script outpoint
  decide (journal.tokenId = token.tokenId) &&
    decide (journal.role = token.role) &&
    sameAmount journal.amount token.amount && isIdentity journal.identityKey

-- Storage

structure MandalaAuthorityRecord where
  outpoint : TokenOutpoint
  tokenId : JsString
  identityKey : JsString
deriving DecidableEq, Repr

structure EngineOutput where
  outpoint : TokenOutpoint
  spentBy : Option Bytes := none
deriving DecidableEq, Repr

structure OwnerStorage where
  outputs : List EngineOutput := []
  owners : List TokenOutpoint := []
  tokens : List MandalaTokenRecord := []
  authorities : List MandalaAuthorityRecord := []
  balances : Totals Int := []
deriving DecidableEq, Repr

namespace OwnerStorage

/- `findAdmittedOutput` answers an output. -/
def holds (storage : OwnerStorage) (outpoint : TokenOutpoint) : Bool :=
  storage.outputs.any fun output =>
    decide (output.outpoint = outpoint) && decide (output.spentBy = none)

/- `getTokenRow`. -/
def tokenRow (storage : OwnerStorage) (outpoint : TokenOutpoint) : Option MandalaTokenRecord :=
  storage.tokens.find? (·.outpoint = outpoint)

/- `getAuthorityRow`. -/
def authorityRow (storage : OwnerStorage) (outpoint : TokenOutpoint) :
  Option MandalaAuthorityRecord :=
  storage.authorities.find? (·.outpoint = outpoint)

/- The rows without the one of an output: its key is unique. -/
def removeToken (storage : OwnerStorage) (outpoint : TokenOutpoint) : OwnerStorage :=
  { storage with
    tokens := storage.tokens.filter (·.outpoint ≠ outpoint) }

def takeAuthority (storage : OwnerStorage) (outpoint : TokenOutpoint) : OwnerStorage :=
  { storage with
    authorities := storage.authorities.filter (·.outpoint ≠ outpoint) }

/- `adjustBalance`, over the increment of a number. -/
def adjustBalance (increment : Int → Int → Int) (storage : OwnerStorage) (identityKey : JsString)
  (delta : Int) : OwnerStorage :=
  { storage with
    balances := storage.balances.set identityKey
        (increment (storage.balances.getOr identityKey) delta) }

end OwnerStorage

/- The rows of `storeOwnerRow`. -/
def tokenRecord (facts : OutputFacts) (outpoint : TokenOutpoint) : MandalaTokenRecord :=
  ⟨outpoint, (facts.script outpoint).tokenId, (facts.script outpoint).amount,
    (facts.journal outpoint).identityKey⟩

def authorityRecord (facts : OutputFacts) (outpoint : TokenOutpoint) : MandalaAuthorityRecord :=
  ⟨outpoint, (facts.script outpoint).tokenId, (facts.journal outpoint).identityKey⟩

/- The rows of `repairOwnerRow`. -/
def repairedToken (facts : OutputFacts) (outpoint : TokenOutpoint) : MandalaTokenRecord :=
  ⟨outpoint, (facts.journal outpoint).tokenId, (facts.journal outpoint).amount,
    (facts.journal outpoint).identityKey⟩

def repairedAuthority (facts : OutputFacts) (outpoint : TokenOutpoint) : MandalaAuthorityRecord :=
  ⟨outpoint, (facts.journal outpoint).tokenId, (facts.journal outpoint).identityKey⟩

/- `storeTokenIfAbsent`, and whether it inserted. -/
def storeTokenIfAbsent (storage : OwnerStorage) (row : MandalaTokenRecord) : OwnerStorage × Bool :=
  if (storage.tokenRow row.outpoint).isSome then (storage, false)
  else ({ storage with tokens := storage.tokens ++ [row] }, true)

def storeAuthorityIfAbsent
  (storage : OwnerStorage) (row : MandalaAuthorityRecord) : OwnerStorage × Bool :=
  if (storage.authorityRow row.outpoint).isSome then (storage, false)
  else
    ({ storage with
      authorities := storage.authorities ++ [row] }, true)

/- The upsert of `repairTokenRow`, and whether it inserted. -/
def upsertToken (storage : OwnerStorage) (row : MandalaTokenRecord) : OwnerStorage × Bool :=
  if (storage.tokenRow row.outpoint).isSome then
    ({ storage with
      tokens := storage.tokens.map fun old => if old.outpoint = row.outpoint then row else old },
      false)
  else ({ storage with tokens := storage.tokens ++ [row] }, true)

/- `repairAuthorityRow`. -/
def upsertAuthority (storage : OwnerStorage) (row : MandalaAuthorityRecord) : OwnerStorage × Bool :=
  if (storage.authorityRow row.outpoint).isSome then
    ({ storage with
      authorities := storage.authorities.map fun old =>
        if old.outpoint = row.outpoint then row else old },
      false)
  else
    ({ storage with
      authorities := storage.authorities ++ [row] }, true)

/- `markUTXOAsSpent`; `none` where it throws. -/
def markUTXOAsSpent (storage : OwnerStorage) (outpoint : TokenOutpoint)
  (spendingTxid : Bytes) : Option OwnerStorage :=
  match storage.outputs.find? (·.outpoint = outpoint) with
  | none => none
  | some output =>
    match output.spentBy with
    | some other => if other = spendingTxid then some storage else none
    | none =>
      some { storage with
        outputs := storage.outputs.map fun output =>
          if output.outpoint = outpoint then { output with spentBy := some spendingTxid }
          else output }

def deleteOutput (storage : OwnerStorage) (outpoint : TokenOutpoint) : OwnerStorage :=
  { storage with
    outputs := storage.outputs.filter (·.outpoint ≠ outpoint) }

def insertOutput (storage : OwnerStorage) (outpoint : TokenOutpoint) : OwnerStorage :=
  if storage.outputs.any (·.outpoint = outpoint) then storage
  else
    { storage with
      outputs := storage.outputs ++ [⟨outpoint, none⟩] }

-- Operations

/-
  The call that an operation makes next.  A taken row is debited, and an evicted output is deleted
  after its notification.
-/
inductive Call where
-- `indexOwner`, with a linkage that proves the owner or not
| readOwner (linked : Bool)
| storeRow
-- the credit of a repair or of an admission
| credit (repair : Bool)
-- the engine marks the output, then notifies
| markSpent (spendingTxid : Bytes)
-- `takeRow`, of an eviction or of a spend
| takeToken (evict : Bool)
| debit (row : MandalaTokenRecord) (evict : Bool)
| takeAuthority (evict : Bool)
| deleteOutput
-- `storedOwner` and `repairedOwner`
| inlineRow
| inlineJournal
| inlineEngine (journalled : Bool)
-- `reconcileOne`
| listedEngine
| listedRow
| listedJournal
-- `repairOwnerRow`, the question after it, `takeBackRepair`
| repair
| recheck
| takeBack
deriving DecidableEq, Repr

structure Operation where
  outpoint : TokenOutpoint
  call : Call
deriving DecidableEq, Repr

def Call.isFirst : Call → Bool
| .readOwner _ => true
| .markSpent _ => true
| .takeToken true => true
| .inlineRow => true
| .listedEngine => true
| _ => false

/- An eviction deletes the output at its end. -/
def afterRow (evict : Bool) : Option Call :=
  if evict then some .deleteOutput else none

/- `ownerOf` finds the owner. -/
def knowsOwner (facts : OutputFacts) (storage : OwnerStorage) (outpoint : TokenOutpoint)
  (linked : Bool) : Bool :=
  (decide (outpoint ∈ storage.owners) && journalAgrees facts outpoint) || linked

def rowAgrees (facts : OutputFacts) (storage : OwnerStorage) (outpoint : TokenOutpoint) : Bool :=
  let token := facts.script outpoint
  match token.role with
  | .value =>
    match storage.tokenRow outpoint with
    | none => false
    | some row =>
      decide (row.tokenId = token.tokenId) && sameAmount row.amount token.amount &&
        isIdentity row.identityKey
  | _ =>
    match storage.authorityRow outpoint with
    | none => false
    | some row => decide (row.tokenId = token.tokenId) && isIdentity row.identityKey

def nextIf (test : Bool) (call : Call) : Option Call :=
  if test then some call else none

/- `storeOwnerRow`, up to its credit. -/
def performStore (facts : OutputFacts) (storage : OwnerStorage) (outpoint : TokenOutpoint) :
  OwnerStorage × Option Call :=
  match (facts.script outpoint).role with
  | .value =>
    let stored := storeTokenIfAbsent storage (tokenRecord facts outpoint)
    (stored.1, nextIf stored.2 (.credit false))
  | _ => ((storeAuthorityIfAbsent storage (authorityRecord facts outpoint)).1, none)

/- `repairOwnerRow`, up to its credit. -/
def performRepair (facts : OutputFacts) (storage : OwnerStorage) (outpoint : TokenOutpoint) :
  OwnerStorage × Option Call :=
  match (facts.journal outpoint).role with
  | .value =>
    let stored := upsertToken storage (repairedToken facts outpoint)
    (stored.1, nextIf stored.2 (.credit true))
  | _ =>
    let stored := upsertAuthority storage (repairedAuthority facts outpoint)
    (stored.1, nextIf stored.2 .recheck)

/- The first call of `takeRow`. -/
def performTake (storage : OwnerStorage) (outpoint : TokenOutpoint)
  (evict : Bool) : OwnerStorage × Option Call :=
  match storage.tokenRow outpoint with
  | some row => (storage.removeToken outpoint, some (.debit row evict))
  | none => (storage, some (.takeAuthority evict))

/- `takeBackRepair`, up to its debit. -/
def performTakeBack (facts : OutputFacts) (storage : OwnerStorage) (outpoint : TokenOutpoint) :
  OwnerStorage × Option Call :=
  match (facts.journal outpoint).role with
  | .value =>
    match storage.tokenRow outpoint with
    | some row => (storage.removeToken outpoint, some (.debit row false))
    | none => (storage, none)
  | _ => (storage.takeAuthority outpoint, none)

def creditAmount (facts : OutputFacts) (outpoint : TokenOutpoint) (repair : Bool) : Nat :=
  if repair then (facts.journal outpoint).amount
  else (facts.script outpoint).amount

def perform (increment : Int → Int → Int) (facts : OutputFacts) (storage : OwnerStorage)
  (outpoint : TokenOutpoint) :
  Call → OwnerStorage × Option Call
| .readOwner linked =>
  (storage, nextIf (knowsOwner facts storage outpoint linked) .storeRow)
| .storeRow => performStore facts storage outpoint
| .credit repair =>
  (storage.adjustBalance increment (facts.journal outpoint).identityKey
      (creditAmount facts outpoint repair),
    nextIf repair .recheck)
| .markSpent spendingTxid =>
  match markUTXOAsSpent storage outpoint spendingTxid with
  | none => (storage, none)
  | some marked => (marked, some (.takeToken false))
| .takeToken evict => performTake storage outpoint evict
| .debit row evict =>
  (storage.adjustBalance increment row.identityKey (-row.amount), afterRow evict)
| .takeAuthority evict => (storage.takeAuthority outpoint, afterRow evict)
| .deleteOutput => (Mandala.deleteOutput storage outpoint, none)
| .inlineRow =>
  (storage, nextIf (!rowAgrees facts storage outpoint) .inlineJournal)
| .inlineJournal => (storage, some (.inlineEngine (decide (outpoint ∈ storage.owners))))
| .inlineEngine journalled =>
  (storage, nextIf (journalled && storage.holds outpoint && journalAgrees facts outpoint) .repair)
| .listedEngine => (storage, nextIf (storage.holds outpoint) .listedRow)
| .listedRow =>
  (storage, nextIf (!rowAgrees facts storage outpoint) .listedJournal)
| .listedJournal =>
  (storage, nextIf (decide (outpoint ∈ storage.owners) && journalAgrees facts outpoint) .repair)
| .repair => performRepair facts storage outpoint
| .recheck => (storage, nextIf (!storage.holds outpoint) .takeBack)
| .takeBack => performTakeBack facts storage outpoint

-- Interleavings

/-
  The storage, the operations that are in progress, and the outputs whose rows were inserted and
  whose amounts were credited and debited so far.
-/
structure IndexWorld where
  storage : OwnerStorage := {}
  operations : List Operation := []
  inserted : List TokenOutpoint := []
  credited : List TokenOutpoint := []
  debited : List TokenOutpoint := []
deriving DecidableEq, Repr

/-
  The topic records an owner, the engine inserts an output,
  and operations begin and make their calls in any order.
-/
inductive IndexEvent where
| recordOwner (outpoint : TokenOutpoint)
| insertOutput (outpoint : TokenOutpoint)
| start (operation : Operation)
| perform (index : Nat)
deriving DecidableEq, Repr

def Call.isCredit : Call → Bool
| .credit _ => true
| _ => false

def Call.isDebit : Call → Bool
| .debit _ _ => true
| _ => false

def recordIf (test : Bool) (outpoint : TokenOutpoint)
  (outpoints : List TokenOutpoint) : List TokenOutpoint :=
  if test then outpoint :: outpoints else outpoints

def following (outpoint : TokenOutpoint) (next : Option Call) : List Operation :=
  next.toList.map (⟨outpoint, ·⟩)

def performIn (increment : Int → Int → Int) (facts : OutputFacts) (world : IndexWorld)
  (before : List Operation) (operation : Operation) (after : List Operation) : IndexWorld :=
  let outpoint := operation.outpoint
  let performed := perform increment facts world.storage outpoint operation.call
  { storage := performed.1
    operations := before ++ following outpoint performed.2 ++ after
    inserted := recordIf (performed.2.any Call.isCredit) outpoint world.inserted
    credited := recordIf operation.call.isCredit outpoint world.credited
    debited := recordIf operation.call.isDebit outpoint world.debited }

def indexStep (increment : Int → Int → Int) (facts : OutputFacts)
  (world : IndexWorld) : IndexEvent → Option IndexWorld
| .recordOwner outpoint =>
  some { world with
    storage :=
      { world.storage with
        owners := outpoint :: world.storage.owners } }
| .insertOutput outpoint =>
  some { world with
    storage := insertOutput world.storage outpoint }
| .start operation =>
  if operation.call.isFirst then
    some { world with
      operations := world.operations ++ [operation] }
  else none
| .perform index =>
  match world.operations[index]? with
  | none => none
  | some operation =>
    some (performIn increment facts world (world.operations.take index) operation
      (world.operations.drop (index + 1)))

end TsStack.Mandala
