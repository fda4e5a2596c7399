import TsStack.WebRtPay.Accept
import TsStack.Lib.EventRun

/-
  A client that receives payments from several peers at once.

  Deliveries of one payment share a decision while it is
  being made: the handler takes the payment with the wallet
  and the store of seen payments, one awaited call at a time,
  and what it decides on a failure is its own choice.  The
  state keeps what was delivered and answered.
-/

-- Answers

namespace TsStack.WebRtPay

inductive PaymentDecision where
| accepted
| received
| rejected (reason : JsText)
deriving DecidableEq

structure PaymentAck where
  id : JsText
  status : PaymentAckStatus
  txid : Option JsText
  reason : Option JsText
deriving DecidableEq

def MAX_ACK_REASON_CHARS : Nat := 500

def truncate (text : JsText) (max : Nat) : JsText :=
  text.take max

def ackOf (id : JsText) (txid : Option JsText) :
  PaymentDecision → PaymentAck
| .accepted => { id, status := .accepted, txid, reason := none }
| .received => { id, status := .received, txid, reason := none }
| .rejected reason => {
    id
    status := .rejected
    txid
    reason := some (truncate reason MAX_ACK_REASON_CHARS) }

theorem status_ackOf_eq_accepted_iff
  {id : JsText} {txid : Option JsText} {decision : PaymentDecision} :
  (ackOf id txid decision).status = .accepted ↔ decision = .accepted := by
  cases decision with
  | accepted => exact iff_of_true rfl rfl
  | received => exact iff_of_false nofun nofun
  | rejected reason => exact iff_of_false nofun nofun

-- States

inductive DecisionStage where
| verifying
| checking (verified : VerifiedPayment)
| internalizing (verified : VerifiedPayment)
| recording (verified : VerifiedPayment)
| settled (decision : PaymentDecision)
    (failure : Option AcceptFailure)
deriving DecidableEq

structure Decision where
  sender : JsText
  decoded : DecodedPayment
  key : JsText
  stage : DecisionStage
  forgotten : Bool
deriving DecidableEq

structure Delivery where
  peer : JsText
  decoded : DecodedPayment
  decision : Nat
  answered : Bool
deriving DecidableEq

structure SentAck where
  peer : JsText
  ack : PaymentAck
  decision : Option Nat
deriving DecidableEq

structure DirectPayClient where
  deciding : List (JsText × Nat) := []
  decisions : List Decision := []
  deliveries : List Delivery := []
  seen : List JsText := []
  wallet : List VerifiedPayment := []
  acks : List SentAck := []

/- What `internalizeAction` answers. -/
inductive WalletAnswer where
| accepted
| notAccepted
| failed
deriving DecidableEq

inductive ClientEvent where
| deliver (peer : JsText) (wire : PaymentWire)
| publicKey (index : Nat) (answer : Option JsText)
    (onFailure : PaymentDecision)
| seenHas (index : Nat) (fails : Bool)
    (onFailure : PaymentDecision)
| internalizeAction (index : Nat) (answer : WalletAnswer)
    (onFailure : PaymentDecision)
| seenAdd (index : Nat) (fails : Bool)
| forget (index : Nat)
| answer (delivery : Nat)

-- Steps

namespace DirectPayClient

variable (client : DirectPayClient)

/- The decision that is being made on a payment. -/
def decidingOn (key : JsText) : Option Nat :=
  client.deciding.lookup key

def setStage (index : Nat) (decision : Decision)
  (stage : DecisionStage) : DirectPayClient :=
  { client with
    decisions := client.decisions.set index { decision with stage } }

def fail (index : Nat) (decision : Decision) (onFailure : PaymentDecision)
  (failure : AcceptFailure) : Option DirectPayClient :=
  if onFailure = .accepted then none
  else some (client.setStage index decision (.settled onFailure (some failure)))

/- `receivePayment`, up to the decision it waits for. -/
def receivePayment (functions : PaymentFunctions) (client : DirectPayClient) (peer : JsText)
  (wire : PaymentWire) : DirectPayClient :=
  match decodePayment functions.fromAtomicBEEF wire with
  | .error e =>
    { client with
      acks := client.acks ++ [{
        peer
        ack := ackOf wire.id none (.rejected (Json.text e.message))
        decision := none }] }
  | .ok decoded =>
    let key := paymentKey decoded.payment
    match client.decidingOn key with
    | some index =>
      { client with
        deliveries := client.deliveries ++ [{
          peer, decoded
          decision := index
          answered := false }] }
    | none =>
      { client with
        deciding := (key, client.decisions.length) :: client.deciding
        decisions := client.decisions ++ [{
          sender := peer
          decoded, key
          stage := .verifying
          forgotten := false }]
        deliveries := client.deliveries ++ [{
          peer, decoded
          decision := client.decisions.length
          answered := false }] }

def afterPublicKey
  (functions : PaymentFunctions) (client : DirectPayClient) (index : Nat) (answer : Option JsText)
  (onFailure : PaymentDecision) :
  Option DirectPayClient := do
  let decision ← client.decisions[index]?
  if decision.stage = .verifying then
    match verify functions (decision.decoded.incoming decision.sender) answer with
    | .ok verified => some (client.setStage index decision (.checking verified))
    | .error failure => client.fail index decision onFailure failure
  else none

def afterSeenHas (index : Nat) (fails : Bool) (onFailure : PaymentDecision) :
  Option DirectPayClient := do
  let decision ← client.decisions[index]?
  match decision.stage with
  | .checking verified =>
    if fails then client.fail index decision onFailure .store
    else if client.seen.contains (paymentKey verified.payment)
    then some (client.setStage index decision (.settled .accepted none))
    else some (client.setStage index decision (.internalizing verified))
  | _ => none

def afterInternalizeAction (index : Nat) (answer : WalletAnswer) (onFailure : PaymentDecision) :
  Option DirectPayClient := do
  let decision ← client.decisions[index]?
  match decision.stage with
  | .internalizing verified =>
    match answer with
    | .accepted =>
      some ({ client with
        wallet := client.wallet ++ [verified] }.setStage index decision (.recording verified))
    | .notAccepted => client.fail index decision onFailure .notAccepted
    | .failed => client.fail index decision onFailure .wallet
  | _ => none

def afterSeenAdd (index : Nat) (fails : Bool) : Option DirectPayClient := do
  let decision ← client.decisions[index]?
  match decision.stage with
  | .recording verified =>
    if fails then some (client.setStage index decision (.settled .accepted none))
    else
      some ({ client with
        seen := paymentKey verified.payment :: client.seen }.setStage
            index decision (.settled .accepted none))
  | _ => none

def outcome : DecisionStage → Option PaymentDecision
| .settled decision _ => some decision
| _ => none

def forget (index : Nat) : Option DirectPayClient := do
  let decision ← client.decisions[index]?
  let _ ← outcome decision.stage
  if decision.forgotten then none
  else
    some { client with
      deciding := client.deciding.filter fun entry => entry.1 != decision.key
      decisions := client.decisions.set index { decision with forgotten := true } }

def answer (index : Nat) : Option DirectPayClient := do
  let delivery ← client.deliveries[index]?
  let decision ← client.decisions[delivery.decision]?
  let made ← outcome decision.stage
  if delivery.answered then none
  else
    some { client with
      deliveries := client.deliveries.set index { delivery with answered := true }
      acks := client.acks ++ [{
        peer := delivery.peer
        ack := ackOf delivery.decoded.id (some delivery.decoded.txid) made
        decision := some delivery.decision }] }

/- What happens at an event, if it can happen. -/
def step (functions : PaymentFunctions) (client : DirectPayClient) :
  ClientEvent → Option DirectPayClient
| .deliver peer wire => some (client.receivePayment functions peer wire)
| .publicKey index answer onFailure => client.afterPublicKey functions index answer onFailure
| .seenHas index fails onFailure => client.afterSeenHas index fails onFailure
| .internalizeAction index answer onFailure => client.afterInternalizeAction index answer onFailure
| .seenAdd index fails => client.afterSeenAdd index fails
| .forget index => client.forget index
| .answer delivery => client.answer delivery

/-
  A payment is delivered only while no other sender's delivery
  of it is being decided, and what is accepted is recorded.
-/
def Meets (functions : PaymentFunctions) (client : DirectPayClient) :
  ClientEvent → DirectPayClient → Prop
| .deliver peer wire, _ =>
  ∀ decoded index decision, decodePayment functions.fromAtomicBEEF wire = .ok decoded →
      client.decidingOn (paymentKey decoded.payment) = some index →
        client.decisions[index]? = some decision → decision.sender = peer
| .seenAdd _ fails, _ => fails = false
| _, _ => True

end DirectPayClient

end TsStack.WebRtPay
