import TsStack.Gasp.Sync
import TsStack.Transaction.TransactionBinary

/-
  The checks of data from remote parties.

  Outpoints are modeled by pairs, as in the synchronization;
  a transaction that is parsed has the id of its bytes.
-/

-- Values

namespace TsStack.Overlay

open Gasp (Outpoint)

def MAX_RAW_TRANSACTION_BYTES : Nat := 32 * 1024 * 1024

def MAX_METADATA_BYTES : Nat := 1024 * 1024

def MAX_GASP_INPUTS : Nat := 100000

def isHashHex (value : JsString) : Bool :=
  value.length = 64 && value.all fun c => (hexCharToValue c).isSome

def isEvenHex (value : JsString) : Bool :=
  !value.isEmpty && value.length % 2 = 0 && value.all fun c => (hexCharToValue c).isSome

def assertHash (value : JsString) (label : String) : Except JsError Unit :=
  if isHashHex value then .ok ()
  else .error (.typeError (label ++ " must be 32 bytes of hex"))

def assertOutputIndex (value : Nat) (label : String) : Except JsError Unit :=
  if isSafeInteger value && value ≤ 0xffffffff then .ok ()
  else .error (.typeError (label ++ " must be an unsigned 32-bit integer"))

def assertOutpoint (value : Outpoint) (label : String) : Except JsError Unit :=
  if value.txid.length ≠ 64 then .error (.typeError (label ++ " is invalid"))
  else do
    assertHash value.txid (label ++ " txid")
    assertOutputIndex value.outputIndex (label ++ " output index")

def assertHexBytes (value : JsString) (label : String) (maxBytes : Nat)
  (allowEmpty : Bool) : Except JsError Unit :=
  if (!allowEmpty && value.isEmpty) ∨ value.length > maxBytes * 2 ∨
        (!value.isEmpty && !isEvenHex value) then
    .error (.typeError (label ++ " must be bounded, even-length " ++ "hexadecimal data"))
  else .ok ()

def toLowerCase (value : JsString) : JsString :=
  value.map Char.toLower

-- Transactions and Nodes

/- A transaction and its `id('hex')`. -/
structure ParsedTransaction where
  txid : JsString
  transaction : Transaction
deriving DecidableEq, Repr

/- `Transaction.fromHex`. -/
def parseTransaction (rawTx : JsString) : Except JsError ParsedTransaction := do
  let bytes ← hexToUint8Array rawTx
  let transaction ← Transaction.fromBinary bytes
  pure
    { txid := BeefTx.rawTxid bytes
      transaction := transaction }

structure GASPNode where
  graphID : Outpoint
  rawTx : JsString
  outputIndex : Nat
  proof : Option JsString := none
  txMetadata : Option JsString := none
  outputMetadata : Option JsString := none
  inputs : Option (List (Outpoint × JsString)) := none
deriving DecidableEq, Repr

/- An optional field of `assertGASPNode`. -/
def assertHexField
  (value : Option JsString) (field : String) (maxBytes : Nat) : Except JsError Unit :=
  match value with
  | none => .ok ()
  | some value => assertHexBytes value ("GASP node " ++ field) maxBytes true

/- The inputs of `assertGASPNode`. -/
def assertGASPInputs (inputs : List (Outpoint × JsString)) :
  Except JsError Unit :=
  if inputs.length > MAX_GASP_INPUTS then .error (.typeError "GASP node inputs are invalid")
  else
    inputs.forM fun (outpoint, hash) => do
      assertOutpoint outpoint "GASP node input outpoint"
      assertHash hash "GASP node input metadata hash"

def assertGASPNode (value : GASPNode) (graphID : Outpoint) (txid : JsString)
  (outputIndex : Nat) : Except JsError Unit := do
  assertOutpoint value.graphID "GASP node graphID"
  if value.graphID ≠ graphID then throw (.typeError "GASP node graphID does not match the request")
  assertOutputIndex value.outputIndex "GASP node outputIndex"
  if value.outputIndex ≠ outputIndex then
    throw (.typeError "GASP node outputIndex does not match the request")
  assertHexBytes value.rawTx "GASP node rawTx" MAX_RAW_TRANSACTION_BYTES false
  match parseTransaction value.rawTx with
  | .error _ => throw (.typeError "GASP node rawTx is not a valid transaction")
  | .ok parsed =>
    if toLowerCase parsed.txid ≠ toLowerCase txid then
      throw (.typeError ("GASP node transaction does not match the " ++ "requested txid"))
  assertHexField value.proof "proof" MAX_RAW_TRANSACTION_BYTES
  assertHexField value.txMetadata "txMetadata" MAX_METADATA_BYTES
  assertHexField value.outputMetadata "outputMetadata" MAX_METADATA_BYTES
  match value.inputs with
  | none => return
  | some inputs => assertGASPInputs inputs

structure AdmittanceInstructions where
  outputsToAdmit : List Nat
  coinsToRetain : List Nat
deriving DecidableEq, Repr

def validateIndexes (limit : Nat) (label : String) :
  List Nat → List Nat → Except JsError Unit
| _, [] => .ok ()
| seen, index :: indexes =>
  if isSafeInteger index = false ∨ index ≥ limit ∨ index ∈ seen then
    .error (.typeError ("Topic manager returned invalid " ++ label))
  else validateIndexes limit label (index :: seen) indexes

def validateAdmittanceInstructions
  (value : AdmittanceInstructions) (transaction : Transaction) (previousCoins : List Nat) :
  Except JsError AdmittanceInstructions := do
  validateIndexes transaction.outputs.length "outputsToAdmit" [] value.outputsToAdmit
  validateIndexes transaction.inputs.length "coinsToRetain" [] value.coinsToRetain
  if value.coinsToRetain.any (· ∉ previousCoins) then
    throw (.typeError ("Topic manager retained an input that is not a " ++ "previous topical coin"))
  return value

end TsStack.Overlay
