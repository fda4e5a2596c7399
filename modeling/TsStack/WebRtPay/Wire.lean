import TsStack.WebRtPay.Validate

/-
  The JSON messages of the data channel, and payments in
  their form on the wire and in a token.
-/

-- Messages

namespace TsStack.WebRtPay

structure PaymentWire where
  id : JsText
  token : PaymentToken JsText
  note : Option JsText
deriving DecidableEq

inductive PaymentAckStatus where
| accepted
| received
| rejected
deriving DecidableEq

inductive WireMessage where
| hello (identityKey nonce : JsText)
| auth (signature : JsText)
| ready
| payment (payment : PaymentWire)
| paymentAck (id : JsText) (status : PaymentAckStatus)
    (txid reason : Option JsText)
| request (request : PaymentRequestMessage)
| requestResponse (response : PaymentRequestResponse)
| error (code : JsText) (message : Option JsText)
| bye

def NONCE_BYTES : Nat := 32

def NONCE_CHARS : Nat := 44

def MAX_SIGNATURE_CHARS : Nat := 200

def MAX_REASON_CHARS : Nat := 500

def MAX_ERROR_CODE_CHARS : Nat := 64

def MAX_ERROR_MESSAGE_CHARS : Nat := 500

def MAX_NOTE_CHARS : Nat := 500

def MAX_TRANSACTION_CHARS : Nat :=
  4 * ((maxMessageBytes + 2) / 3)

def isNonce (value : JsText) : Bool :=
  decide (value.length = NONCE_CHARS) &&
    decide ((fromBase64 value).map List.length = some NONCE_BYTES)

-- Reading Messages

def parseHello (isPoint : JsText → Bool) (r : List (JsText × Json)) :
  Except WebRTPayError WireMessage :=
  match field r "v", field r "identityKey", field r "nonce" with
  | some (.number v), some (.string identityKey),
      some (.string nonce) =>
      if v ≠ 1 ∨ isIdentityKey isPoint identityKey = false ∨ isNonce nonce = false then
        throw (malformed "Malformed hello")
      else return .hello identityKey nonce
  | _, _, _ => throw (malformed "Malformed hello")

def isHexPairs (value : JsText) : Bool :=
  decide (value.length ≠ 0) &&
    decide (value.length % 2 = 0) &&
    value.all isLowerHexChar

variable (r : List (JsText × Json))

def parseAuth :
  Except WebRTPayError WireMessage :=
  match field r "signature" with
  | some (.string signature) =>
    if isShortString signature MAX_SIGNATURE_CHARS = false ∨ isHexPairs signature = false then
      throw (malformed "Malformed auth")
    else return .auth signature
  | _ => throw (malformed "Malformed auth")

/- A text that may be absent: `none` for another value. -/
def optionalText : Option Json → Option (Option JsText)
| none => some none
| some (.string value) => some (some value)
| some _ => none

/- The types of a payment: its values are checked later. -/
def parsePayment :
  Except WebRTPayError WireMessage :=
  match plainRecord (field r "token") with
  | none => throw (malformed "Malformed payment")
  | some token =>
    match plainRecord (field token "customInstructions"), field r "id" with
    | some instructions, some (.string id) =>
      if isMessageId id = false then throw (malformed "Malformed payment")
      else typed r token instructions id
    | _, _ => throw (malformed "Malformed payment")
where
  typed
      (r token instructions : List (JsText × Json))
      (id : JsText) :
      Except WebRTPayError WireMessage :=
    match field instructions "derivationPrefix", field instructions "derivationSuffix",
        field token "transaction", field token "amount",
        (optional (field token "outputIndex")).getD (.number 0),
        optionalText (optional (field r "note")) with
    | some (.string derivationPrefix),
        some (.string derivationSuffix),
        some (.string transaction), some (.number amount),
        .number outputIndex, some note =>
        return .payment {
          id
          token := {
            customInstructions := { derivationPrefix, derivationSuffix }
            transaction
            amount := .integer amount
            outputIndex := some (.integer outputIndex) }
          note }
    | _, _, _, _, _, _ => throw (malformed "Malformed payment")

def ackStatus (status : JsText) : Option PaymentAckStatus :=
  if status = Json.text "accepted" then some .accepted
  else if status = Json.text "received" then some .received
  else if status = Json.text "rejected" then some .rejected
  else none

def parseAck :
  Except WebRTPayError WireMessage :=
  match field r "id", field r "status", optionalText (optional (field r "txid")),
      optionalText (optional (field r "reason")) with
  | some (.string id), some (.string status),
      some txid, some reason =>
      match ackStatus status with
      | none => throw (malformed "Malformed payment.ack")
      | some status =>
        if isMessageId id = false ∨ txid.any (fun txid => !isLowerHex64 txid) ∨
            reason.any (fun reason => !isShortString reason MAX_REASON_CHARS) then
          throw (malformed "Malformed payment.ack")
        else return .paymentAck id status txid reason
  | _, _, _, _ => throw (malformed "Malformed payment.ack")

def parseRequest (isPoint : JsText → Bool) (r : List (JsText × Json)) :
  Except WebRTPayError WireMessage :=
  let claimed :=
    (plainRecord (field r "request")).bind fun request => field request "senderIdentityKey"
  let sender : JsText :=
    match claimed with
    | some (.string sender) => sender
    | _ => []
  (normalizePaymentRequest isPoint (field r "request") sender).map .request

def parseError :
  Except WebRTPayError WireMessage :=
  match field r "code", optionalText (optional (field r "message")) with
  | some (.string code), some message =>
    if isShortString code MAX_ERROR_CODE_CHARS = false ∨ code.length = 0 ∨
        message.any (fun message => !isShortString message MAX_ERROR_MESSAGE_CHARS) then
      throw (malformed "Malformed error")
    else return .error code message
  | _, _ => throw (malformed "Malformed error")

def parseWireMessage (isPoint : JsText → Bool) (value : Json) :
  Except WebRTPayError WireMessage :=
  match plainRecord (some value) with
  | none => throw (malformed "Wire message is not a JSON object")
  | some r =>
    match field r "t" with
    | some (.string t) =>
      if t = Json.text "hello" then parseHello isPoint r
      else if t = Json.text "auth" then parseAuth r
      else if t = Json.text "ready" then return .ready
      else if t = Json.text "payment" then parsePayment r
      else if t = Json.text "payment.ack" then parseAck r
      else if t = Json.text "request" then parseRequest isPoint r
      else if t = Json.text "request.response" then
        (normalizePaymentRequestResponse (field r "response")).map .requestResponse
      else if t = Json.text "error" then parseError r
      else if t = Json.text "bye" then return .bye
      else throw (malformed "Unknown wire message type")
    | _ => throw (malformed "Unknown wire message type")

-- Payments

def encodePayment
  (id : JsText) (token : PaymentToken TransactionBytes) (note : Option JsText) : PaymentWire := {
  id
  token := {
    customInstructions := token.customInstructions
    transaction := toBase64 token.transaction.bytes
    amount := token.amount
    outputIndex := some (token.outputIndex.getD (.integer 0)) }
  note }

def outputAt (outputs : List PaymentOutput) :
  Number → Option PaymentOutput
| .integer outputIndex => outputs[outputIndex.toNat]?
| .other _ => none

/- The sender's check of a token before it is sent. -/
def validatePaymentToken (fromAtomicBEEF : List UInt8 → Option PaymentTransaction)
  (token : PaymentToken TransactionBytes) (note : Option JsText) :
  Except WebRTPayError Unit := do
  let fields ← tokenFields token none
  if !isByteArray fields.transaction then
    throw (invalidPayment "Payment transaction is not a byte array")
  let tx ← parsePaymentTransaction fromAtomicBEEF fields.transaction.bytes
  if !carries tx.outputs fields then
    throw (invalidPayment "Payment output does not carry the stated amount")
  if note.any fun note => !isShortString note MAX_NOTE_CHARS then
    throw (invalidPayment "Payment note is invalid")
where
  /- The output of the checked index carries the amount. -/
  carries
      (outputs : List PaymentOutput)
      (fields : TokenFields TransactionBytes) : Bool :=
    (outputAt outputs fields.outputIndex).any fun output => decide (output.satoshis = fields.amount)

structure DecodedPayment where
  id : JsText
  token : PaymentToken TransactionBytes
  txid : JsText
  note : Option JsText
deriving DecidableEq

/- The receiver's check of a payment. -/
def decodePayment (fromAtomicBEEF : List UInt8 → Option PaymentTransaction) (w : PaymentWire) :
  Except WebRTPayError DecodedPayment := do
  if !isMessageId w.id then throw (invalidPayment "Payment id is invalid")
  if w.note.any fun note => !isShortString note MAX_NOTE_CHARS then
    throw (invalidPayment "Payment note is invalid")
  let fields ← tokenFields w.token none
  let encoded := fields.transaction
  if MAX_TRANSACTION_CHARS < encoded.length then
    throw (invalidPayment "Payment transaction is invalid")
  match fromBase64 encoded with
  | none => throw (invalidPayment "Payment transaction is not valid base64")
  | some bytes => do
      let tx ← parsePaymentTransaction fromAtomicBEEF bytes
      return {
        id := w.id
        token := {
          customInstructions := {
            derivationPrefix := fields.derivationPrefix
            derivationSuffix := fields.derivationSuffix }
          transaction := .numbers (byteNumbers bytes)
          amount := fields.amount
          outputIndex := some fields.outputIndex }
        txid := tx.txid
        note := w.note }

def Number.json : Number → Option Json
| .integer value =>
  if value.natAbs ≤ MAX_SAFE_INTEGER then some (.number value)
  else none
| .other _ => none

def paymentJson (w : PaymentWire) : Option Json := do
  let amount ← w.token.amount.json
  let outputIndex ← (w.token.outputIndex.getD (.integer 0)).json
  let instructions := Json.object [
    (Json.text "derivationPrefix", .string w.token.customInstructions.derivationPrefix),
    (Json.text "derivationSuffix", .string w.token.customInstructions.derivationSuffix)]
  let token := Json.object [
    (Json.text "customInstructions", instructions),
    (Json.text "transaction", .string w.token.transaction), (Json.text "amount", amount),
    (Json.text "outputIndex", outputIndex)]
  let note := w.note.toList.map fun note => (Json.text "note", Json.string note)
  return .object ([(Json.text "t", .string (Json.text "payment")), (Json.text "id", .string w.id),
      (Json.text "token", token)] ++ note)

/- `JSON.stringify` of a payment. -/
def paymentText (w : PaymentWire) : Option JsText :=
  (paymentJson w).map Json.stringify

end TsStack.WebRtPay
