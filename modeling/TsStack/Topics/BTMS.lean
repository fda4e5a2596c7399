import TsStack.Lib.UnicodeText
import TsStack.Topics.TokenTransaction

/-
  The topic manager of `BTMSTopicManager.ts`, over the token
  scripts of `PushDrop.ts`.

  `TextDecoder` and the parser of public keys are given by
  functions.
-/

-- Push Drop Scripts

namespace TsStack

structure PushDropFunctions where
  toUTF8 : Bytes → JsString
  parsePublicKey : JsString → Except JsError Unit

namespace PushDrop

def fieldOfChunk (chunk : ScriptChunk) : Bytes :=
  let data := chunk.data.getD []
  if data.length = 0 then
    if chunk.op ≥ 80 ∧ chunk.op ≤ 96 then [UInt8.ofNat (chunk.op - 80)]
    else if chunk.op = 0 then [0]
    else if chunk.op = OP.OP_1NEGATE then [0x81]
    else data
  else data

/- The fields up to the first drop. -/
def fieldsOfChunks : List ScriptChunk → List Bytes
| [] => []
| [chunk] => [fieldOfChunk chunk]
| chunk :: next :: rest =>
  if next.op = OP.OP_DROP ∨ next.op = OP.OP_2DROP then [fieldOfChunk chunk]
  else fieldOfChunk chunk :: fieldsOfChunks (next :: rest)

def decode (functions : PushDropFunctions) (script : TokenScript) : Except JsError (List Bytes) :=
  match script with
  | [] => .error (.typeError ("Cannot read properties of undefined " ++ "(reading 'data')"))
  | first :: _ =>
    match first.data with
    | none => .error (.error "script.chunks[0].data must have value")
    | some key => do
        functions.parsePublicKey (toHex key)
        return fieldsOfChunks (script.drop 2)

end PushDrop

-- Tokens

namespace BTMSTopicManager

open UnicodeText

variable (functions : PushDropFunctions)

structure BTMSToken where
  assetIdField : JsString
  amount : Nat
  metadata : Option JsString
deriving DecidableEq, Repr

def isPrintable (char : Char) : Bool :=
  (32 ≤ char.toNat && char.toNat ≤ 126) || char.toNat == 9 || char.toNat == 10 || char.toNat == 13

def isLikelySignatureField (field : Bytes) : Bool :=
  if field.length < 40 then false
  else
    let asText := functions.toUTF8 field
    if (encodeUtf8 asText).length ≠ field.length then true
    else
      -- `printable / max(length, 1) < 0.8`
      5 * asText.countP isPrintable < 4 * max (units asText).length 1

/- `/^[1-9]\d*$/`. -/
def isCanonicalAmount : JsString → Bool
| [] => false
| first :: rest => ('1' ≤ first && first ≤ '9') && rest.all isDigit

def parseTokenAmount (raw : JsString) : Option Nat :=
  if !isCanonicalAmount raw then none
  else if !isSafeInteger (numberOfDigits raw) then none
  else some (numberOfDigits raw)

def metadataOf (fields : List Bytes) : Option JsString :=
  match fields with
  | [_, _, field] =>
    if isLikelySignatureField functions field then none
    else some (functions.toUTF8 field)
  | [_, _, field, _] => some (functions.toUTF8 field)
  | _ => none

def tokenOfFields (fields : List Bytes) : Option BTMSToken :=
  match fields with
  | assetId :: amount :: rest =>
    if rest.length > 2 then none
    else
      (parseTokenAmount (functions.toUTF8 amount)).map
        fun amount => ⟨functions.toUTF8 assetId, amount, metadataOf functions fields⟩
  | _ => none

def decodeToken (script : TokenScript) :
  Except JsError (Option BTMSToken) := do
  let fields ← PushDrop.decode functions script
  return tokenOfFields functions fields

def tokenOf (script : TokenScript) : Option BTMSToken :=
  match decodeToken functions script with
  | .ok token => token
  | .error _ => none

def issueField : JsString := "ISSUE".toList

def canonicalAssetId (assetIdField : JsString) (outpoint : TokenOutpoint) : JsString :=
  if assetIdField = issueField then outpointText '.' outpoint
  else assetIdField

/- `addTokenAmounts`; `none` where it throws. -/
def addTokenAmounts (left right : Nat) : Option Nat :=
  let total := left + right
  if !isSafeInteger left || !isSafeInteger right || !isSafeInteger total then none
  else some total

-- Admission

structure PreviousUTXO where
  outpoint : TokenOutpoint
  lockingScript : TokenScript
  coinIndex : Nat
deriving DecidableEq, Repr

structure AssetAllowance where
  amount : Nat
  metadata : Option JsString
deriving DecidableEq, Repr

def resolveSource (beef : List SourceTransaction) (input : TokenInput) : Option SourceTransaction :=
  match input.sourceTransaction with
  | some source => some source
  | none => beef.find? (·.txid = input.sourceTXID)

/- One coin of `collectPreviousUTXOs`. -/
def previousUTXO (beef : List SourceTransaction) (tx : TokenTransaction)
  (coinIndex : Nat) : Option PreviousUTXO := do
  let input ← tx.inputs[coinIndex]?
  let source ← resolveSource beef input
  let script ← source.outputs[input.sourceOutputIndex]?
  some ⟨(source.txid, input.sourceOutputIndex), script, coinIndex⟩

def collectPreviousUTXOs (beef : List SourceTransaction) (tx : TokenTransaction)
  (previousCoins : List Nat) : List PreviousUTXO :=
  previousCoins.filterMap (previousUTXO beef tx)

abbrev Allowances := Totals AssetAllowance

variable (allowances : Allowances)

def addAllowance (asset : JsString) (token : BTMSToken) : Allowances :=
  match allowances.lookup asset with
  | none => allowances.set asset ⟨token.amount, token.metadata⟩
  | some existing =>
    match addTokenAmounts existing.amount token.amount with
    | none => allowances
    | some amount => allowances.set asset ⟨amount, existing.metadata⟩

def collectAssetAllowances (previousUTXOs : List PreviousUTXO) : Allowances :=
  previousUTXOs.foldl (fun allowances previous =>
      match tokenOf functions previous.lockingScript with
      | none => allowances
      | some token =>
        addAllowance allowances (canonicalAssetId token.assetIdField previous.outpoint) token)
    []

/- What the loop over the outputs keeps. -/
structure AdmissionState where
  outputsToAdmit : List Nat := []
  assetTotals : Totals Nat := []

def isAllowed (token : BTMSToken) (total : Nat) : Bool :=
  match allowances.lookup token.assetIdField with
  | none => false
  | some allowance =>
    !decide (total > allowance.amount) && decide (allowance.metadata = token.metadata)

def admitTransfer (state : AdmissionState) (token : BTMSToken)
  (index : Nat) : AdmissionState :=
  match addTokenAmounts (state.assetTotals.getOr token.assetIdField) token.amount with
  | none => state
  | some total =>
    { outputsToAdmit :=
        if isAllowed allowances token total then state.outputsToAdmit ++ [index]
        else state.outputsToAdmit
      assetTotals := state.assetTotals.set token.assetIdField total }

/- One output of `collectAdmissibleOutputs`. -/
def admitOutput (state : AdmissionState)
  (entry : TokenScript × Nat) : AdmissionState :=
  match tokenOf functions entry.1 with
  | none => state
  | some token =>
    if token.assetIdField = issueField then
      { state with
        outputsToAdmit := state.outputsToAdmit ++ [entry.2] }
    else admitTransfer allowances state token entry.2

def collectAdmissibleOutputs (tx : TokenTransaction) (allowances : Allowances) : List Nat :=
  (tx.outputs.zipIdx.foldl (admitOutput functions allowances) {}).outputsToAdmit

def assetOf (output : TopicOutput) : Option JsString :=
  (tokenOf functions output.script).map fun token =>
    canonicalAssetId token.assetIdField output.outpoint

def outputContainsAsset
  (tx : TokenTransaction) (outputsToAdmit : List Nat) (assetId : JsString) : Bool :=
  tx.outputs.zipIdx.any fun entry =>
    outputsToAdmit.contains entry.2 &&
      decide (assetOf functions ⟨(tx.txid, entry.2), entry.1⟩ = some assetId)

/- One coin of `collectRetainedCoins`. -/
def isRetained
  (tx : TokenTransaction) (outputsToAdmit : List Nat) (previous : PreviousUTXO) : Bool :=
  match assetOf functions ⟨previous.outpoint, previous.lockingScript⟩ with
  | none => false
  | some assetId => outputContainsAsset functions tx outputsToAdmit assetId

def collectRetainedCoins (previousUTXOs : List PreviousUTXO) (tx : TokenTransaction)
  (outputsToAdmit : List Nat) : List Nat :=
  (previousUTXOs.filter (isRetained functions tx outputsToAdmit)).map (·.coinIndex)

def identifyAdmissibleOutputs (parsed : Except JsError (TokenTransaction × List SourceTransaction))
  (previousCoins : List Nat) : AdmittanceInstructions :=
  match parsed with
  | .error _ => ⟨[], [], []⟩
  | .ok (tx, beef) =>
    let previousUTXOs := collectPreviousUTXOs beef tx previousCoins
    let allowances := collectAssetAllowances functions previousUTXOs
    let outputsToAdmit := collectAdmissibleOutputs functions tx allowances
    let coinsToRetain := collectRetainedCoins functions previousUTXOs tx outputsToAdmit
    { outputsToAdmit := outputsToAdmit
      coinsToRetain := coinsToRetain
      coinsRemoved := previousCoins.filter (!coinsToRetain.contains ·) }

end BTMSTopicManager

end TsStack
