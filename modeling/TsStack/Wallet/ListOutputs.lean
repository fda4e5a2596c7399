import TsStack.Wallet.EntityTables

/-
  What the listings of outputs over both storages share.

  Rows of a table stand in the order of their ids, in which
  SQL orders the page and the cursor of an index runs.
-/

-- Stores

namespace TsStack.Wallet

structure TableOutputBasket where
  basketId : Nat
  userId : Nat
  name : String
  isDeleted : Bool := false
deriving DecidableEq

structure TableOutputTag where
  outputTagId : Nat
  userId : Nat
  tag : String
  isDeleted : Bool := false
deriving DecidableEq

structure TableOutputTagMap where
  outputTagId : Nat
  outputId : Nat
  isDeleted : Bool := false
deriving DecidableEq

structure TableTxLabel where
  txLabelId : Nat
  label : String
  isDeleted : Bool := false
deriving DecidableEq

structure TableTxLabelMap where
  txLabelId : Nat
  transactionId : Nat
  isDeleted : Bool := false
deriving DecidableEq

/-
  The tables that a listing reads, and the raw transactions
  of the proofs and requests whose scripts it may slice.
-/
structure ListingStore extends EntityStorage where
  baskets : List TableOutputBasket := []
  tags : List TableOutputTag := []
  tagMaps : List TableOutputTagMap := []
  labels : List TableTxLabel := []
  labelMaps : List TableTxLabelMap := []
  rawTxs : List (String × List UInt8) := []
deriving DecidableEq

/- The arguments of `listOutputs` that were validated. -/
structure ValidListOutputsArgs where
  basket : String
  basketNonEmpty : basket ≠ "" := by decide
  tags : List String := []
  tagQueryModeAll : Bool := false
  includeLockingScripts : Bool := false
  includeTransactions : Bool := false
  includeCustomInstructions : Bool := false
  includeTags : Bool := false
  includeLabels : Bool := false
  limit : Nat := 10
  limitPositive : 0 < limit := by decide
  offset : Int := 0

structure WalletOutput where
  satoshis : Int
  spendable : Bool
  outpoint : String
  customInstructions : Option String := none
  labels : Option (List String) := none
  tags : Option (List String) := none
  lockingScript : Option (List UInt8) := none
deriving DecidableEq

structure ListOutputsResult (β : Type) where
  totalOutputs : Int
  outputs : List WalletOutput := []
  beef : Option β := none
deriving DecidableEq

inductive ListingError
| undefinedPartial (field : String)
| tooManyCandidates (name : String) (maximum : Nat)
| tooManyPrefixOutputs
| namespaceRequired
| changeParamsInvalid
| integerRequired
| invalidParameter (name : String)
| reviewInconclusive (checked spent unknown : Nat)
| outputChanged (outputId : Nat)
| entity (error : EntityError)
| resultMustExist
| beef (message : String)
deriving DecidableEq

inductive UtxoVerdict
| unspent
| spent
| unknown
deriving DecidableEq

/-
  The calls that both storages share: the verdict of the services on an output, the building of a
  BEEF, and the integer that `Number` reads from a text.
-/
structure ListingServices (β : Type) where
  verdict : TableOutput → UtxoVerdict
  emptyBeef : β
  hasTxid : β → String → Bool
  getValidBeefForKnownTxid : String → β → Except ListingError β
  toInteger : String → Option Int

-- Special operations

def MAX_UTXO_REVIEW_CANDIDATES : Nat := 10000

def MAX_MONEY_SATOSHIS : Int := 2100000000000000

def specOpWalletBalance : String :=
  "893b7646de0e1c9f741bd6e9169b76a8847ae34adef7bef1e6a285371206d2e8"

def specOpWalletManagedUtxos : String :=
  "284570a6213a74ba861c38b1cf790e1e400d9cf9324454b76ea98860b6031c1a"

def specOpInvalidChange : String :=
  "5a76fd430a311f8bc0553859061710a4475c19fed46e2ff95969aa918e612e57"

def specOpSetWalletChangeParams : String :=
  "a4979d28ced8581e9c1c92f1001cc7cb3aabf8ea32e10888ad898f0a509a3929"

def specOpBasketPrefixOutputs : String :=
  "b9184a72141e6a4d3d148c67a6d0ad92864a4d85290579ea5bef8bd62eb01b6f"

inductive TagOperation
| setWalletChangeParams
| basketPrefixOutputs
deriving DecidableEq

/-
  `ListOutputsSpecOp`.  The only `resultFromOutputs` is the sum of the satoshis, the only
  `filterOutputs` the review of change.
-/
structure ListOutputsSpecOp where
  name : String
  useBasket : Option String := none
  ignoreLimit : Bool := false
  maximumCandidateCount : Option Nat := none
  includeOutputScripts : Bool := false
  includeSpent : Bool := false
  totalOutputsIsSumOfSatoshis : Bool := false
  managedChangeOnly : Bool := false
  resultFromTags : Option TagOperation := none
  resultFromOutputs : Bool := false
  filterOutputs : Bool := false
  tagsToIntercept : Option (List String) := none
  tagsParamsCount : Nat := 0
deriving DecidableEq

/- The fields of an operation that is undefined. -/
def noSpecOp : ListOutputsSpecOp where
  name := ""

/- The entries that a record inherits, which set no field. -/
def inheritedSpecOp (key : String) : Option ListOutputsSpecOp :=
  if key = "constructor" then some { name := "Object" }
  else if key = "__proto__" then some { name := "undefined" }
  else none

/- `getBasketToSpecOp`, at a basket. -/
def basketSpecOp (basket : String) : Option ListOutputsSpecOp :=
  if basket = specOpWalletBalance then
    some
      { name := "totalOutputsIsWalletBalance"
        useBasket := some "default"
        ignoreLimit := true
        totalOutputsIsSumOfSatoshis := true
        managedChangeOnly := true
        resultFromOutputs := true }
  else if basket = specOpWalletManagedUtxos then
    some
      { name := "walletManagedUtxos"
        useBasket := some "default"
        managedChangeOnly := true }
  else if basket = specOpInvalidChange then
    some
      { name := "invalidChangeOutputs"
        useBasket := some "default"
        ignoreLimit := true
        maximumCandidateCount := some MAX_UTXO_REVIEW_CANDIDATES
        includeOutputScripts := true
        tagsToIntercept := some ["release", "all"]
        filterOutputs := true }
  else if basket = specOpSetWalletChangeParams then
    some
      { name := "setWalletChangeParams"
        tagsParamsCount := 2
        resultFromTags := some .setWalletChangeParams }
  else if basket = specOpBasketPrefixOutputs then
    some
      { name := "basketPrefixOutputs"
        tagsParamsCount := 1
        resultFromTags := some .basketPrefixOutputs }
  else inheritedSpecOp basket

/- `getTagToSpecOp`, at a tag. -/
def tagSpecOp (tag : String) : Option ListOutputsSpecOp :=
  if tag = specOpWalletBalance then
    some
      { name := "totalOutputsIsWalletBalance"
        useBasket := some "default"
        ignoreLimit := true
        totalOutputsIsSumOfSatoshis := true
        resultFromOutputs := true }
  else inheritedSpecOp tag

structure ResolvedSpecOp where
  specOp : ListOutputsSpecOp
  basket : Option String
  tags : List String
deriving DecidableEq

/- `resolveBasketSpecOp`, whose basket is not empty. -/
def resolveBasketSpecOp (basket : String) (tags : List String) : Option ResolvedSpecOp :=
  (basketSpecOp basket).map fun specOp => ⟨specOp, specOp.useBasket, tags⟩

/-
  `resolveTagSpecOp`: the balance of the default basket is
  the balance of the change that the wallet manages.
-/
def resolveTagSpecOp (basket : String) (tags : List String) : Option ResolvedSpecOp :=
  match tags.find? fun tag => (tagSpecOp tag).isSome with
  | none => none
  | some tag =>
    (tagSpecOp tag).map fun specOp =>
      ⟨{ specOp with
          managedChangeOnly := specOp.managedChangeOnly || (tag == specOpWalletBalance &&
                basket == "default") },
        some basket, tags.filter (· ≠ tag)⟩

def getListOutputsSpecOp (basket : String) (tags : List String) : ResolvedSpecOp :=
  (resolveBasketSpecOp basket tags <|> resolveTagSpecOp basket tags).getD
    ⟨noSpecOp, some basket, tags⟩

structure ResolvedListTags where
  tags : List String
  specOpTags : List String
  basketId : Option Nat
deriving DecidableEq

def interceptsTag (tagsToIntercept : List String) (tag : String) : Bool :=
  tagsToIntercept.isEmpty || tagsToIntercept.contains tag

/- `resolveKnexListTags` and `resolveListTags`, one text. -/
def resolveListTags (specOp : ListOutputsSpecOp) (sourceTags : List String)
  (basketId : Option Nat) : ResolvedListTags :=
  let params := sourceTags.take specOp.tagsParamsCount
  let tags := sourceTags.drop specOp.tagsParamsCount
  match specOp.tagsToIntercept with
  | none => ⟨tags, params, basketId⟩
  | some tagsToIntercept =>
    let taken := tags.filter (interceptsTag tagsToIntercept)
    ⟨tags.filter (!interceptsTag tagsToIntercept ·), params ++ taken,
      if taken.contains "all" then none else basketId⟩

-- Rows

def listedStatuses : List TransactionStatus :=
  [.completed, .unproven, .nosend, .sending]

def outpointText (missing : String) (output : TableOutput) : String :=
  output.txid.getD missing ++ "." ++ toString output.vout

/- `managedChangeOutputFields`. -/
def hasManagedChangeFields (output : TableOutput) : Bool :=
  output.type == "P2PKH" && output.change && output.providedBy == .storage &&
    output.purpose == "change"

def isNonEmptyString (value : Option String) : Bool :=
  value.any (· ≠ "")

def isManagedChangeOutput (output : TableOutput) : Bool :=
  hasManagedChangeFields output && isNonEmptyString output.derivationPrefix &&
    isNonEmptyString output.derivationSuffix

namespace ListingStore

variable (store : ListingStore)

/- `getRawTxOfKnownValidTransaction`, of a slice. -/
def rawTxSlice (txid : String) (offset length : Nat) : Option (List UInt8) :=
  (store.rawTxs.lookup txid).map fun rawTx => (rawTx.drop offset).take length

def scriptLocation (output : TableOutput) : Option (String × Nat × Nat) :=
  match output.txid, output.scriptOffset, output.scriptLength with
  | some txid, some offset, some length =>
    if txid = "" ∨ offset = 0 ∨ length = 0 then none
    else some (txid, offset, length)
  | _, _, _ => none

def validScript (output : TableOutput) : Option (List UInt8) :=
  match scriptLocation output with
  | none => output.lockingScript
  | some (txid, offset, length) =>
    if output.lockingScript.map (·.length) = some length then output.lockingScript
    else (store.rawTxSlice txid offset length).or output.lockingScript

def validateOutputScript (output : TableOutput) : TableOutput :=
  { output with lockingScript := store.validScript output }

def resolveBasketId (userId : Nat) (basket : Option String) : Option (Option Nat) :=
  match basket with
  | none => some none
  | some name =>
    if name = "" then some none
    else
      match store.baskets.filter fun row => row.userId == userId && row.name == name with
      | [row] => some (some row.basketId)
      | _ => none

def findTagIds (userId : Nat) (tags : List String) : List Nat :=
  (store.tags.filter fun row =>
    row.userId == userId && !row.isDeleted && tags.contains row.tag).map (·.outputTagId)

end ListingStore

/- `knexTagQueryCannotMatch` and `tagQueryCannotMatch`. -/
def tagQueryCannotMatch (tags : List String) (tagIds : List Nat) (queryModeAll : Bool) : Bool :=
  if queryModeAll then tagIds.length < tags.length
  else 0 < tags.length && tagIds.length == 0

def normalizeListOffset (offset : Int) : Nat × Bool :=
  if offset < 0 then ((-offset - 1).toNat, true)
  else (offset.toNat, false)

def orderRows (descending : Bool) (rows : List TableOutput) : List TableOutput :=
  if descending then rows.reverse else rows

-- Reviews

def requireSatoshis (value : Int) (name : String) : Except ListingError Unit :=
  if value < 0 ∨ MAX_MONEY_SATOSHIS < value then .error (.invalidParameter name)
  else .ok ()

def sumSatoshis (outputs : List TableOutput) (name : String) : Except ListingError Int :=
  outputs.foldlM (fun total output => do
      requireSatoshis output.satoshis name
      if MAX_MONEY_SATOSHIS < total + output.satoshis then .error (.invalidParameter name)
      else return total + output.satoshis)
    0

def validateCandidates (userId : Nat) :
  List TableOutput → List Nat → Except ListingError Unit
| [], _ => .ok ()
| output :: rest, ids => do
    if output.outputId < 1 then .error (.entity .idGreaterThanZero)
    else if ids.contains output.outputId then .error (.invalidParameter "outputs")
    else if output.userId ≠ userId then .error (.invalidParameter "outputs.userId")
    else do
      requireSatoshis output.satoshis "outputs.satoshis"
      validateCandidates userId rest (output.outputId :: ids)

/- The row still is what was reviewed. -/
def isUnchanged (current output : TableOutput) : Bool :=
  current.spendable && current.spentBy.isNone && current.txid.isSome &&
    current.txid.map String.toLower == output.txid.map String.toLower &&
    current.vout == output.vout && current.satoshis == output.satoshis &&
    current.basketId == output.basketId

/- `releaseConfirmedSpent`: all are released, or none. -/
def releaseConfirmedSpent (store : ListingStore) (userId : Nat) (outputs : List TableOutput) :
  Except ListingError ListingStore :=
  outputs.foldlM
    (fun (store : ListingStore) output => do
      match store.findOutputs (·.outputId == output.outputId) with
      | [current] =>
        if current.userId ≠ userId then .error (.invalidParameter "outputId")
        else if !isUnchanged current output then .error (.outputChanged output.outputId)
        else
          return { store with
            toEntityStorage := store.toEntityStorage.updateOutput output.outputId
                fun row => { row with spendable := false } }
      | [] => .error (.invalidParameter "outputId")
      | _ => .error (.entity .resultMustBeUnique))
    store

def classifyCandidates (store : ListingStore) (outputs : List TableOutput) : List TableOutput :=
  (outputs.filter (·.basketId.isSome)).map store.validateOutputScript

/-
  `reviewUtxoOutputs`, in the modes `none` and `atomic`: the
  outputs that are confirmed spent, and the store.
-/
def reviewUtxoOutputs
  {β : Type} (services : ListingServices β) (store : ListingStore) (userId : Nat)
  (outputs : List TableOutput) (release : Bool) :
  Except ListingError (List TableOutput × ListingStore) := do
  if MAX_UTXO_REVIEW_CANDIDATES < outputs.length then .error (.invalidParameter "outputs")
  validateCandidates userId outputs []
  let candidates := classifyCandidates store outputs
  let spent := candidates.filter (services.verdict · == .spent)
  let unknown := candidates.filter (services.verdict · == .unknown)
  if release then
    if unknown ≠ [] then do
      let _ ← sumSatoshis spent "confirmedSpentOutputs"
      .error (.reviewInconclusive candidates.length spent.length unknown.length)
    else do
      let released ← releaseConfirmedSpent store userId spent
      let _ ← sumSatoshis spent "confirmedSpentOutputs"
      return ( spent.map fun row => { row with spendable := false }, released)
  else do
    let _ ← sumSatoshis spent "confirmedSpentOutputs"
    return (spent, store)

end TsStack.Wallet
