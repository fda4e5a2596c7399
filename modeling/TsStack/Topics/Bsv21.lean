import TsStack.Topics.BaseToken

/-
  The BSV-21 token decoder of `Bsv21Token.ts` and the topic
  manager of `Bsv21TopicManager.ts`.

  `TextDecoder` and `JSON.parse` are given by functions, so
  the results hold whatever texts they read.
-/

-- Decoding

open List

namespace TsStack

/- A value that `JSON.parse` returns. -/
inductive JsonValue where
| null
| bool (value : Bool)
| number (text : JsString)
| string (text : JsString)
| array (values : List JsonValue)
| object (properties : List (JsString × JsonValue))

structure TextFunctions where
  toUTF8 : Bytes → JsString
  parseJson : JsString → Option JsonValue

def jsonProperty (properties : List (JsString × JsonValue)) (name : String) : Option JsonValue :=
  properties.reverse.lookup name.toList

namespace Bsv21Token

structure Bsv21TokenDecoded where
  id : JsString
  amt : JsString
  isMint : Bool
  op : JsString
deriving DecidableEq, Repr

structure Envelope where
  fields : List (Nat × Bytes)
  body : Option Bytes
deriving DecidableEq, Repr

def contentTypeField : Nat := 1
def bodyField : Nat := 0

def malformed (reason : String) : JsError :=
  .error s!"not a BSV-21 script: {reason}"

def isOrd (chunk : ScriptChunk) : Bool :=
  chunk.data.map toHex == some "6f7264".toList

def fieldTag (chunk : ScriptChunk) : Option Nat :=
  if chunk.op = OP.OP_0 then some 0
  else if chunk.op ≥ OP.OP_1 ∧ chunk.op ≤ OP.OP_16 then some (chunk.op - OP.OP_1 + 1)
  else
    match chunk.data with
    | some [byte] => some byte.toNat
    | _ => none

def pushedBytes (chunk : ScriptChunk) : Option Bytes :=
  match chunk.data with
  | some data => some data
  | none =>
    if chunk.op = OP.OP_0 then some []
    else if chunk.op ≥ OP.OP_1 ∧ chunk.op ≤ OP.OP_16 then
      some [UInt8.ofNat (chunk.op - OP.OP_1 + 1)]
    else none

/- The envelope ends right after its body. -/
def closeEnvelope (envelope : Envelope) (rest : List ScriptChunk) : Except JsError Envelope :=
  if (rest.head?.map (·.op)) = some OP.OP_ENDIF then .ok envelope
  else .error (malformed "missing OP_ENDIF")

def readEnvelopeFields (fields : List (Nat × Bytes)) :
  List ScriptChunk → Except JsError Envelope
| [] => .error (malformed "unterminated ord envelope")
| [tagChunk] =>
  if tagChunk.op = OP.OP_ENDIF then .ok ⟨fields, none⟩
  else .error (malformed "unterminated ord envelope")
| tagChunk :: valueChunk :: rest =>
  if tagChunk.op = OP.OP_ENDIF then .ok ⟨fields, none⟩
  else if fieldTag tagChunk = none ∧ tagChunk.data = none then
    .error (malformed "invalid ord envelope field tag")
  else
    match pushedBytes valueChunk with
    | none => .error (malformed "ord envelope field value is not a push")
    | some value =>
      match fieldTag tagChunk with
      | none => readEnvelopeFields fields rest
      | some tag =>
        if tag = bodyField then closeEnvelope ⟨fields, some value⟩ rest
        else readEnvelopeFields ((tag, value) :: fields) rest

def envelopeChunks :
  List ScriptChunk → Option (List ScriptChunk)
| zero :: cond :: ord :: rest =>
  if zero.op = OP.OP_0 ∧ cond.op = OP.OP_IF ∧ isOrd ord = true then some rest
  else envelopeChunks (cond :: ord :: rest)
| _ => none

def parseJsonObject (text : TextFunctions) (body : Bytes) :
  Except JsError (List (JsString × JsonValue)) :=
  match text.parseJson (text.toUTF8 body) with
  | some (.object properties) => .ok properties
  | _ => .error (malformed "invalid JSON payload")

def stringOrEmpty : Option JsonValue → JsString
| some (.string text) => text
| _ => []

/- `/^\d+$/`. -/
def isDigits (text : JsString) : Bool :=
  text ≠ [] && text.all isDigit

def payloadAmount (op : JsString) (amt : Option JsonValue) : Except JsError JsString :=
  if op = "auth".toList ∨ op = "deploy+auth".toList then
    match amt with
    | none => .ok "0".toList
    | some _ => .error (malformed "an authority output carries no amount")
  else
    match amt with
    | some (.string text) =>
      if isDigits text then .ok text
      else .error (malformed "bad amount")
    | _ => .error (malformed "bad amount")

def decodePayload (properties : List (JsString × JsonValue)) :
  Except JsError Bsv21TokenDecoded := do
  let op := stringOrEmpty (jsonProperty properties "op")
  let amt ← payloadAmount op (jsonProperty properties "amt")
  let isMint := decide (op = "deploy+mint".toList)
  let deploy := isMint || decide (op = "deploy+auth".toList)
  let id := if deploy then [] else stringOrEmpty (jsonProperty properties "id")
  return ⟨id, amt, isMint, op⟩

def readPayload (text : TextFunctions) (envelope : Envelope) :
  Except JsError (List (JsString × JsonValue)) :=
  if (envelope.fields.lookup contentTypeField).map
      text.toUTF8 ≠ some "application/bsv-20".toList then
    .error (malformed "wrong content-type")
  else
    match envelope.body with
    | none => .error (malformed "missing JSON payload")
    | some body => parseJsonObject text body

def requireProtocol (properties : List (JsString × JsonValue)) :
  Except JsError Unit :=
  match jsonProperty properties "p" with
  | some (.string name) =>
    if name = "bsv-20".toList then .ok ()
    else .error (malformed "not bsv-20")
  | _ => .error (malformed "not bsv-20")

def decode (text : TextFunctions) (script : TokenScript) : Except JsError Bsv21TokenDecoded :=
  match envelopeChunks script with
  | none => .error (malformed "missing OP_FALSE OP_IF \"ord\" envelope")
  | some chunks => do
      let envelope ← readEnvelopeFields [] chunks
      let properties ← readPayload text envelope
      requireProtocol properties
      decodePayload properties

end Bsv21Token

-- The Manager

open CoinLedger

namespace Bsv21TopicManager

open Bsv21Token

def outputTokenId (decoded : Bsv21TokenDecoded) (outpoint : TokenOutpoint) : JsString :=
  if decoded.isMint || decoded.id = [] then outpointText '_' outpoint
  else decoded.id

variable (text : TextFunctions)

/- One output of `decodeOutputs`. -/
def decodeOutput (txid : Bytes) (entry : TokenScript × Nat) :
  Option (DecodedTokenOutput Nat) :=
  match decode text entry.1 with
  | .ok decoded =>
    some
      { index := entry.2
        key := outputTokenId decoded (txid, entry.2)
        amount := numberOfDigits decoded.amt }
  | .error _ => none

def decodeOutputs (tx : TokenTransaction) :
  List (DecodedTokenOutput Nat) :=
  tx.outputs.zipIdx.filterMap (decodeOutput text tx.txid)

/- One previous coin of `inputTotals`. -/
def addInput (tx : TokenTransaction) (totals : Totals Nat)
  (coin : Nat) : Totals Nat :=
  match tx.sourceOutput (·.sourceTransaction) coin with
  | none => totals
  | some source =>
    match decode text source.script with
    | .error _ => totals
    | .ok decoded =>
      totals.addAmount (outputTokenId decoded source.outpoint) (numberOfDigits decoded.amt)

def inputTotals (tx : TokenTransaction) (previousCoins : List Nat) : Totals Nat :=
  previousCoins.foldl (addInput text tx) []

def manager (allowIssuance : Option (JsString → Bool)) :
  BaseTokenTopicManager Nat where
  decodeOutputs := decodeOutputs text
  inputTotals := inputTotals text
  allowIssuance := allowIssuance

def readCoin (output : TopicOutput) :
  Option (Coin TokenOutpoint JsString) :=
  match decode text output.script with
  | .ok decoded =>
    some ⟨output.outpoint, outputTokenId decoded output.outpoint, numberOfDigits decoded.amt⟩
  | .error _ => none

def coins (state : TopicState) : List (Coin TokenOutpoint JsString) :=
  state.unspent.filterMap (readCoin text)

end Bsv21TopicManager

-- Supply

namespace Bsv21TopicManager

open Bsv21Token

variable {text : TextFunctions}

def asciiBytes (text : String) : Bytes :=
  text.toList.map fun char => UInt8.ofNat char.toNat

def sampleScript (payload : String) : TokenScript :=
  [{ op := OP.OP_0 }, { op := OP.OP_IF },
    { op := 3, data := some (asciiBytes "ord") },
    { op := OP.OP_1 },
    { op := 18, data := some (asciiBytes "application/bsv-20") },
    { op := OP.OP_0 },
    { op := 60, data := some (asciiBytes payload) },
    { op := OP.OP_ENDIF }]

end Bsv21TopicManager

end TsStack
