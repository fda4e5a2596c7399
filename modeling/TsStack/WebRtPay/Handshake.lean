import TsStack.WebRtPay.Transcript
import TsStack.Lib.EventRun

/-
  The handshake of one side of a data channel, and the session
  that it hands over to.

  A step of the handshake awaits the wallet or the link, one
  call at a time, while the peer's messages wait in the inbox.
  The session keeps what arrives before the first listener.
-/

-- Links

namespace TsStack.WebRtPay

/-
  A link with the fingerprints of its descriptions: the remote
  one is missing until the answer is applied.
-/
structure PeerLink where
  localFingerprints : List JsText
  remoteDescription : Option (List JsText)
  maxMessageBytes : Nat
  closed : Bool
  localOne : requireOneFingerprint localFingerprints = true
  remoteOne : ∀ fingerprints, remoteDescription = some fingerprints →
      requireOneFingerprint fingerprints = true

namespace PeerLink

def remoteFingerprints (link : PeerLink) : List JsText :=
  link.remoteDescription.getD []

theorem requireOneFingerprint_of_some
  {fingerprints : List JsText} (hOne : requireOneFingerprint fingerprints = true)
  (other : List JsText) (hOther : some fingerprints = some other) :
  requireOneFingerprint other = true := by
  rw [← Option.some.inj hOther]
  exact hOne

def acceptAnswer (link : PeerLink) (fingerprints : List JsText) : Option PeerLink :=
  if link.closed ∨ link.remoteDescription.isSome then none
  else if hOne : requireOneFingerprint fingerprints = true then
    some { link with
      remoteDescription := some fingerprints
      remoteOne := requireOneFingerprint_of_some hOne }
  else none

def setMaxMessageBytes (link : PeerLink) (n : Nat) : PeerLink :=
  { link with maxMessageBytes := n }

def close (link : PeerLink) : PeerLink :=
  { link with closed := true }

end PeerLink

-- Sessions

def MAX_BACKLOG : Nat := 64

/-
  A session whose peer has proved its identity key.  `emitted` keeps each message with the
  listeners that were given it, and `handing` what the release is still to hand over.
-/
structure AuthenticatedPeer where
  localIdentityKey : JsText
  peerIdentityKey : JsText
  backlog : Option (List WireMessage) := some []
  releasing : Bool := false
  failed : Bool := false
  listeners : List Nat := []
  handing : List WireMessage := []
  emitted : List (WireMessage × List Nat) := []

def applicationMessage (isPoint : JsText → Bool) (raw : Json) : Option WireMessage :=
  match parseWireMessage isPoint raw with
  | .error _ => none
  | .ok (.hello _ _) => none
  | .ok (.auth _) => none
  | .ok .ready => none
  | .ok message => some message

namespace AuthenticatedPeer

variable (session : AuthenticatedPeer)

def emit (message : WireMessage) : AuthenticatedPeer :=
  { session with
    emitted := session.emitted ++ [(message, session.listeners)] }

def fail : AuthenticatedPeer :=
  { session with failed := true }

def receive
  (isPoint : JsText → Bool) (session : AuthenticatedPeer) (raw : Json) : AuthenticatedPeer :=
  if session.failed then session
  else
    match applicationMessage isPoint raw with
    | none => session.fail
    | some message =>
      match session.backlog with
      | none => session.emit message
      | some kept =>
        if kept.length < MAX_BACKLOG then { session with backlog := some (kept ++ [message]) }
        else session.fail

/- What the handshake has read past its end comes first. -/
def create (isPoint : JsText → Bool) (localIdentityKey peerIdentityKey : JsText)
  (pending : List Json) : AuthenticatedPeer :=
  pending.foldl (receive isPoint) { localIdentityKey, peerIdentityKey }

def onMessage (listener : Nat) : AuthenticatedPeer :=
  { session with
    listeners := session.listeners ++ [listener]
    releasing := session.releasing || session.backlog.isSome }

def offMessage (listener : Nat) : AuthenticatedPeer :=
  { session with
    listeners := session.listeners.erase listener }

/- The kept messages are taken out, on a microtask. -/
def release : Option AuthenticatedPeer :=
  match session.backlog with
  | some kept =>
    if session.releasing then some { session with backlog := none, handing := kept }
    else none
  | none => none

def handOver : Option AuthenticatedPeer :=
  match session.handing with
  | message :: rest => some ({ session with handing := rest }.emit message)
  | [] => none

end AuthenticatedPeer

-- Handshakes

def PRE_AUTH_MAX_MESSAGE_BYTES : Nat := 65536

def MAX_INBOX_BEFORE_READY : Nat := 3

def MAX_INBOX_AFTER_READY : Nat := 1 + MAX_BACKLOG

structure Hello where
  identityKey : JsText
  nonce : JsText
deriving DecidableEq

/- The bytes to sign, under the signer's nonce. -/
structure CreateSignatureArgs where
  data : List UInt8
  keyID : JsText
  counterparty : JsText
deriving DecidableEq

structure VerifySignatureArgs where
  data : List UInt8
  signature : List UInt8
  keyID : JsText
  counterparty : JsText
deriving DecidableEq

/-
  The options of a handshake, with what the wallet knows: its identity key, and which signatures
  verify.  The nonce is the base 64 of random bytes.
-/
structure AuthenticateOptions where
  isPoint : JsText → Bool
  identityKey : JsText
  identityKey_valid : isIdentityKey isPoint identityKey = true
  verifySignature : VerifySignatureArgs → Option Bool
  random : List UInt8
  random_length : random.length = NONCE_BYTES
  expectedPeer : Option JsText
  startAfter : Bool
  cap : Nat

def AuthenticateOptions.localNonce (o : AuthenticateOptions) : JsText :=
  toBase64 o.random

inductive HandshakeError where
| authFailed (message : String)
| timeout
| closed
deriving DecidableEq

/- The peer's message that is expected next. -/
inductive Expecting where
| hello
| auth
| ready
deriving DecidableEq

def Expecting.name : Expecting → String
| .hello => "hello"
| .auth => "auth"
| .ready => "ready"

def WireMessage.name : WireMessage → String
| .hello _ _ => "hello"
| .auth _ => "auth"
| .ready => "ready"
| .payment _ => "payment"
| .paymentAck _ _ _ _ => "payment.ack"
| .request _ => "request"
| .requestResponse _ => "request.response"
| .error _ _ => "error"
| .bye => "bye"

/-
  The call that the handshake awaits.  A step that has
  returned or thrown is heard of on a later microtask.
-/
inductive AwaitedCall where
| idle
| getPublicKey
| startAfter
| waitOpen
| sendHello
| createSignature (args : CreateSignatureArgs)
| sendAuth
| verifySignature (args : VerifySignatureArgs)
| sendReady
| returned
| threw (error : HandshakeError)

inductive Settlement where
| resolved
| rejected (error : HandshakeError)
deriving DecidableEq

/-
  One side of a channel.  `arrived` keeps what the link has
  given to its listener, and `sent` what was sent.
-/
structure Endpoint where
  link : PeerLink
  expecting : Expecting := .hello
  inbox : List Json := []
  call : AwaitedCall := .getPublicKey
  settled : Option Settlement := none
  timing : Bool
  localKey : JsText := []
  peer : Option Hello := none
  session : Option AuthenticatedPeer := none
  arrived : List Json := []
  sent : List WireMessage := []

namespace Endpoint

variable (o : AuthenticateOptions)

def begin (link : PeerLink) : Endpoint := {
  link := link.setMaxMessageBytes PRE_AUTH_MAX_MESSAGE_BYTES
  timing := !o.startAfter }

variable (endpoint : Endpoint)

def busy : Bool :=
  match endpoint.call with
  | .idle => false
  | _ => true

def fail (error : HandshakeError) : Endpoint :=
  if endpoint.settled.isSome then endpoint
  else
    { endpoint with
      settled := some (.rejected error)
      link := endpoint.link.close }

def throwing (error : HandshakeError) : Endpoint :=
  { endpoint with call := .threw error }

def send (message : WireMessage) (call : AwaitedCall) : Endpoint :=
  if endpoint.link.closed then { endpoint with call }
  else
    { endpoint with
      sent := endpoint.sent ++ [message]
      call }

/- What this side signs, and what the peer has signed. -/
def localTranscript (hello : Hello) : BindingTranscriptInput := {
  signerFingerprints := endpoint.link.localFingerprints
  verifierFingerprints := endpoint.link.remoteFingerprints
  signerNonce := o.localNonce
  verifierNonce := hello.nonce
  signerKey := endpoint.localKey
  verifierKey := hello.identityKey }

def peerTranscript (hello : Hello) : BindingTranscriptInput := {
  signerFingerprints := endpoint.link.remoteFingerprints
  verifierFingerprints := endpoint.link.localFingerprints
  signerNonce := hello.nonce
  verifierNonce := o.localNonce
  signerKey := hello.identityKey
  verifierKey := endpoint.localKey }

/- The hello, up to the wallet's signature. -/
def onHello (hello : Hello) : Endpoint :=
  if o.expectedPeer.any fun expected => expected != hello.identityKey then
    endpoint.throwing (.authFailed "Peer is not the identity this session expects")
  else if hello.nonce = o.localNonce then endpoint.throwing (.authFailed "Peer repeated our nonce")
  else
    let next : Endpoint := { endpoint with peer := some hello, expecting := .auth }
    if next.link.localFingerprints.length = 0 ∨ next.link.remoteFingerprints.length = 0 then
      next.throwing (.authFailed "No DTLS fingerprint to bind the session to")
    else
      { next with
        call := .createSignature {
          data := bindingTranscript (localTranscript o next hello)
          keyID := o.localNonce
          counterparty := hello.identityKey } }

/- The signature, up to the wallet's check. -/
def onAuth (signature : JsText) : Endpoint :=
  match endpoint.peer with
  | none => endpoint.throwing (.authFailed "Handshake failed")
  | some peer =>
    match fromHex signature with
    | none => endpoint.throwing (.authFailed "Peer signature does not verify")
    | some signature =>
      { endpoint with
        call := .verifySignature {
          data := bindingTranscript (peerTranscript o endpoint peer)
          signature
          keyID := peer.nonce
          counterparty := peer.identityKey } }

/- The session subscribes before the handshake lets go. -/
def finish : Endpoint :=
  match endpoint.peer with
  | none => endpoint.fail (.authFailed "Handshake failed")
  | some peer =>
    { endpoint with
      settled := some .resolved
      inbox := []
      session := some (AuthenticatedPeer.create o.isPoint endpoint.localKey
          peer.identityKey endpoint.inbox) }

def handle (raw : Json) : Endpoint :=
  match parseWireMessage o.isPoint raw with
  | .error _ => endpoint.fail (.authFailed "Peer sent a malformed handshake message")
  | .ok message =>
    match message, endpoint.expecting with
    | .hello identityKey nonce, .hello => endpoint.onHello o { identityKey, nonce }
    | .auth signature, .auth => endpoint.onAuth o signature
    | .ready, .ready => endpoint.finish o
    | message, expecting =>
      endpoint.fail (.authFailed ("Peer sent '" ++ message.name ++
          "' while the handshake expected '" ++ expecting.name ++ "'"))

/- Queued messages are handled one at a time. -/
def pumpFrom (o : AuthenticateOptions) (endpoint : Endpoint) : List Json → Endpoint
| [] => endpoint
| raw :: rest =>
  if endpoint.busy ∨ endpoint.settled.isSome then endpoint
  else pumpFrom o ({ endpoint with inbox := rest }.handle o raw) rest

def pump : Endpoint :=
  endpoint.pumpFrom o endpoint.inbox

def inboxLimit : Nat :=
  if endpoint.expecting = .ready then MAX_INBOX_AFTER_READY
  else MAX_INBOX_BEFORE_READY

end Endpoint

-- Steps

/- How an awaited call ends. -/
inductive CallAnswer where
| done
| signature (signature : List UInt8)
| failed

inductive HandshakeEvent where
| message (raw : Json)
| acceptAnswer (fingerprints : List JsText)
| answer (answer : CallAnswer)
| resume
| timeout
| close
| onMessage (listener : Nat)
| offMessage (listener : Nat)
| release
| handOver

def HEX_DIGITS : JsText := Json.text "0123456789abcdef"

def toHex (bytes : List UInt8) : JsText :=
  bytes.flatMap fun byte =>
    [HEX_DIGITS.getD (byte.toNat / 16) 0, HEX_DIGITS.getD (byte.toNat % 16) 0]

namespace Endpoint

/-
  The link gives a message to the one listener it has.  The session subscribes during the emission
  of a ready at most, which goes to the handshake's listener alone.
-/
def message (o : AuthenticateOptions) (endpoint : Endpoint) (raw : Json) : Option Endpoint :=
  if endpoint.link.closed then none
  else
    let heard : Endpoint := { endpoint with arrived := endpoint.arrived ++ [raw] }
    match endpoint.session with
    | some session =>
      if session.handing.length ≠ 0 then none
      else
        some { heard with
          session := some (session.receive o.isPoint raw) }
    | none =>
      if endpoint.settled.isSome then none
      else if endpoint.inboxLimit ≤ endpoint.inbox.length then
        some (heard.fail (.authFailed "Peer sent too many messages during the handshake"))
      else
        some ({ heard with
          inbox := heard.inbox ++ [raw] }.pump o)

def answer
  (o : AuthenticateOptions) (endpoint : Endpoint) (answer : CallAnswer) : Option Endpoint :=
  match endpoint.call, answer with
  | .getPublicKey, .done =>
    some { endpoint with
      localKey := o.identityKey
      call := if o.startAfter then .startAfter else .waitOpen }
  | .getPublicKey, .failed => some (endpoint.throwing (.authFailed "Handshake failed"))
  | .startAfter, .done =>
    if endpoint.settled.isSome then some { endpoint with call := .returned }
    else some { endpoint with call := .waitOpen, timing := true }
  | .waitOpen, .done =>
    if endpoint.settled.isSome then some { endpoint with call := .returned }
    else some (endpoint.send (.hello endpoint.localKey o.localNonce) .sendHello)
  | .createSignature _, .signature signature =>
    if endpoint.settled.isSome then some { endpoint with call := .returned }
    else some (endpoint.send (.auth (toHex signature)) .sendAuth)
  | .createSignature _, .failed =>
    some (endpoint.throwing (.authFailed "Wallet could not sign the channel binding"))
  | .verifySignature args, .done =>
    if o.verifySignature args ≠ some true then
      some (endpoint.throwing (.authFailed "Peer signature does not verify"))
    else if endpoint.settled.isSome then some { endpoint with call := .returned }
    else
      some ({ endpoint with
        link := endpoint.link.setMaxMessageBytes o.cap
        expecting := .ready }.send .ready .sendReady)
  | .verifySignature _, .failed =>
    some (endpoint.throwing (.authFailed "Peer signature does not verify"))
  | .sendHello, .done | .sendAuth, .done | .sendReady, .done =>
    some { endpoint with call := .returned }
  | .startAfter, .failed | .waitOpen, .failed
  | .sendHello, .failed | .sendAuth, .failed
  | .sendReady, .failed => some (endpoint.throwing .closed)
  | _, _ => none

/- A step that has ended lets the next message in. -/
def resume (o : AuthenticateOptions) (endpoint : Endpoint) : Option Endpoint :=
  match endpoint.call with
  | .returned => some ({ endpoint with call := .idle }.pump o)
  | .threw error => some (endpoint.fail error)
  | _ => none

def timeout (endpoint : Endpoint) : Option Endpoint :=
  if endpoint.timing ∧ endpoint.settled.isSome = false then some (endpoint.fail .timeout)
  else none

def close (endpoint : Endpoint) : Option Endpoint :=
  if endpoint.settled.isSome then some { endpoint with link := endpoint.link.close }
  else some (endpoint.fail .closed)

def onSession (endpoint : Endpoint) (change : AuthenticatedPeer → Option AuthenticatedPeer) :
  Option Endpoint := do
  let session ← endpoint.session
  let next ← change session
  some { endpoint with session := some next }

/- What happens at an event, if it can happen. -/
def step (o : AuthenticateOptions) (endpoint : Endpoint) :
  HandshakeEvent → Option Endpoint
| .message raw => endpoint.message o raw
| .acceptAnswer fingerprints =>
  (endpoint.link.acceptAnswer fingerprints).map fun link => { endpoint with link }
| .answer answer => endpoint.answer o answer
| .resume => endpoint.resume o
| .timeout => endpoint.timeout
| .close => endpoint.close
| .onMessage listener => endpoint.onSession fun session => some (session.onMessage listener)
| .offMessage listener => endpoint.onSession fun session => some (session.offMessage listener)
| .release => endpoint.onSession AuthenticatedPeer.release
| .handOver => endpoint.onSession AuthenticatedPeer.handOver

end Endpoint

end TsStack.WebRtPay
