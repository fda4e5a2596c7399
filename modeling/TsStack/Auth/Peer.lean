import TsStack.Auth.SessionManager

/-
  A peer that authenticates others, as a machine.

  Every handler and every call is a task, which runs from one
  awaited call to the next.  What an awaited call answers, the
  clocks and the random nonces come with the event that wakes
  the task, so a run has any interleaving of the tasks.  The
  history records what the peer did.
-/

-- Tasks

namespace TsStack.Auth

/- What a local call wants an authenticated session for. -/
inductive Purpose where
| session
| general (payload : List UInt8)
| certificateRequest (policy : RequestedCertificateSet)
| certificateResponse
    (certificates : List VerifiableCertificate)
deriving DecidableEq

/-
  A local call: the identity that was passed, the one that is
  used, and the session of the handshake that it initiated.
-/
structure Call where
  purpose : Purpose
  identityKey : Option JsText
  target : Option JsText
  completedBefore : Nat
  initiated : Option JsText := none
deriving DecidableEq

/- A change that `updateCertificateSession` makes. -/
inductive SessionChange where
| touch
| markAuthenticated
| validateInitial (message : AuthMessage)
| matchResponse (message : AuthMessage)
| recordRequest (requestNonce : JsText)
    (policy : RequestedCertificateSet)
| forgetRequest (requestNonce : JsText)
deriving DecidableEq

/- What is done after the change. -/
inductive Continuation where
| initial (message : AuthMessage) (session : JsText)
| request (message : AuthMessage)
| response (message : AuthMessage) (session : JsText)
| matched (session : JsText)
| general (message : AuthMessage) (session : JsText)
| send (call : Call) (session : JsText)
    (counterparty : Option JsText) (message : AuthMessage)
| giveUp
deriving DecidableEq

/- How far a change is. -/
inductive Phase where
| queued
| held (found : JsText)
| validating (found : JsText) (requested : Option JsText)
    (policy : RequestedCertificateSet) (matchesHandshake : Bool)
| changed (found : JsText) (validated : Bool)
| updated (validated : Bool)
deriving DecidableEq

/- The awaited call that a task waits for. -/
inductive Stage where
| requestClaimed (message : AuthMessage)
| requestAdded (message : AuthMessage) (session : JsText)
| nonceCheck (message : AuthMessage)
| lookup (message : AuthMessage) (found : JsText)
| verifying (message : AuthMessage) (session : JsText)
| claimed (message : AuthMessage) (session : JsText)
| accepted (message : AuthMessage) (session : JsText)
| updating (session : JsText) (change : SessionChange)
    (phase : Phase) (next : Continuation)
| completing (message : AuthMessage) (session : JsText)
| answering (message : AuthMessage)
| current (message : AuthMessage) (session found : JsText)
| awaitingCertificates (message : AuthMessage)
    (session : JsText) (released : Bool)
| calling (call : Call) (found : Option JsText)
| creating (call : Call)
| handshakeAdded (call : Call) (session : JsText)
| awaitingResponse (call : Call) (session : JsText)
    (released : Bool)
| handshakeAnswered (call : Call) (session : JsText)
    (found : Option JsText)
| failing (found : JsText)
| ready (call : Call) (session : JsText)
| signing (call : Call) (session requestNonce : JsText)
    (counterparty : Option JsText)
| finished
| rejected (error : JsText)
deriving DecidableEq

-- States

structure SentMessage where
  message : AuthMessage
  counterparty : Option JsText
  call : Option Call
deriving DecidableEq

/- A call of the listeners for general messages. -/
structure Delivered where
  sender : JsText
  payload : List UInt8
  session : JsText
  nonce : JsText
deriving DecidableEq

/- A signature that the holder of a key made for this peer. -/
structure Signature where
  signer : JsText
  messageType : MessageType
  nonce : JsText
  yourNonce : JsText
  data : List UInt8
deriving DecidableEq

def Signature.keyID (signature : Signature) : JsText :=
  Auth.keyID signature.nonce signature.yourNonce

/- What a peer did, in the order in which it did it. -/
structure History where
  created : List JsText := []
  initiated : List JsText := []
  accepted : List (JsText × JsText) := []
  completed : List (JsText × JsText) := []
  sent : List SentMessage := []
  claimed : List (JsText × JsText) := []
  validated : List JsText := []
  delivered : List Delivered := []
  signatures : List Signature := []

structure Peer where
  identityPublicKey : JsText
  autoPersistLastSession : Bool := true
  certificatesToRequest : RequestedCertificateSet := ⟨[], []⟩
  sessionManager : SessionManager := {}
  lastInteractedWithPeer : Option JsText := none
  tasks : List Stage := []
  history : History := {}

/-
  The answer to an awaited call: the clock of the store, the clock of the peer, the verdict or the
  success, and what the wallet or the random source gave.
-/
structure Answer where
  now : Nat := 0
  date : Nat := 0
  valid : Bool := true
  nonce : JsText := []
  signature : List UInt8 := []
  certificates : List VerifiableCertificate := []
  handled : Bool := false
  error : JsText := []

inductive PeerEvent where
| deliver (message : AuthMessage) (now : Nat)
| call (purpose : Purpose) (identityKey : Option JsText)
    (now : Nat)
| resume (task : Nat) (answer : Answer)
| signed (signature : Signature)

def lastCompleted (completed : List (JsText × JsText)) : Option JsText :=
  completed.getLast?.map Prod.snd

-- Local calls

namespace Peer

variable (peer : Peer)

def setStage (task : Nat) (stage : Stage) : Peer :=
  { peer with tasks := peer.tasks.set task stage }

def reject (task : Nat) (error : JsText) : Peer :=
  peer.setStage task (.rejected error)

def afterGetSession (task : Nat) (identifier : JsText) (now : Nat)
  (stage : Option JsText → Stage) : Peer :=
  let (found, manager) := peer.sessionManager.getSession identifier now
  { peer with
    sessionManager := manager
    tasks := peer.tasks.set task (stage (found.map (·.sessionNonce))) }

def afterAdding (task : Nat) (outcome : Option SessionError × SessionManager)
  (stage : Stage) : Peer :=
  { peer with
    sessionManager := outcome.2
    tasks := peer.tasks.set task
      (match outcome.1 with
      | some e => .rejected e.message
      | none => stage) }

def implicitTarget (identityKey : Option JsText) : Option JsText :=
  match identityKey with
  | some identityKey => some identityKey
  | none =>
    if peer.autoPersistLastSession then peer.lastInteractedWithPeer
    else none

/- `getAuthenticatedSession`, up to its first awaited call. -/
def getAuthenticatedSession (task : Nat) (call : Call) (now : Nat) : Peer :=
  match call.target with
  | none => peer.setStage task (.creating call)
  | some identityKey => peer.afterGetSession task identityKey now (.calling call)

/- The arguments that each local call takes. -/
def validArguments
  (isPoint : JsText → Bool) (purpose : Purpose) (identityKey : Option JsText) : Bool :=
  match purpose, identityKey with
  | .session, _ => true
  | .general _, none => true
  | .general _, some identityKey => assertAuthPeerTarget isPoint identityKey
  | .certificateRequest policy, none => assertRequestedCertificateSet isPoint policy
  | .certificateRequest policy, some identityKey =>
    assertRequestedCertificateSet isPoint policy && assertAuthIdentityKey isPoint identityKey
  | .certificateResponse _, none => false
  | .certificateResponse certificates, some identityKey =>
    decide (certificates.length ≤ MAX_CERTIFICATES) && assertAuthIdentityKey isPoint identityKey

/- Only `getAuthenticatedSession` takes an identity as is. -/
def callTarget (purpose : Purpose) (identityKey : Option JsText) : Option JsText :=
  match purpose with
  | .session => identityKey
  | _ => peer.implicitTarget identityKey

/- `toPeer`, `requestCertificates`, `sendCertificateResponse` or `getAuthenticatedSession`. -/
def beginCall (task : Nat) (purpose : Purpose) (identityKey : Option JsText)
  (now : Nat) : Peer :=
  peer.getAuthenticatedSession task
    { purpose
      identityKey
      target := peer.callTarget purpose identityKey
      completedBefore := peer.history.completed.length }
    now

def afterCalling (task : Nat) (call : Call) (found : Option JsText) : Peer :=
  match found.bind peer.sessionManager.objects with
  | none => peer.setStage task (.creating call)
  | some session =>
    if session.isAuthenticated then peer.setStage task (.ready call session.sessionNonce)
    else peer.setStage task (.creating call)

/- A nonce of `createNonce` is one that was not made yet. -/
def isNewNonce (nonce : JsText) : Bool :=
  assertCanonicalBase64 nonce 48 && !peer.history.created.contains nonce

/- The session that either side of a handshake begins with. -/
def newSession (sessionNonce : JsText) (peerNonce peerIdentityKey : Option JsText)
  (date : Nat) : PeerSession :=
  let policy := peer.certificatesToRequest
  { isAuthenticated := false
    sessionNonce
    peerNonce
    peerIdentityKey
    lastUpdate := date
    certificatePolicy := policy
    certificatesRequired := decide (policy.certifiers ≠ [])
    certificatesValidated := !decide (policy.certifiers ≠ []) }

/- `initiateHandshake`, from the nonce to the new session. -/
def afterCreating (task : Nat) (call : Call) (answer : Answer) : Option Peer :=
  if !answer.valid then some (peer.reject task answer.error)
  else if peer.isNewNonce answer.nonce then
    some ({ peer with
      history := { peer.history with
        created := peer.history.created ++ [answer.nonce]
        initiated := peer.history.initiated ++ [answer.nonce] } }
      |>.afterAdding task (peer.sessionManager.addSession
          (peer.newSession answer.nonce none call.target answer.date) answer.now)
        (.handshakeAdded
          { call with initiated := some answer.nonce }
          answer.nonce))
  else none

def afterHandshakeAdded (task : Nat) (call : Call) (session : JsText) (answer : Answer) : Peer :=
  if answer.valid then
    { peer with
      tasks := peer.tasks.set task (.awaitingResponse call session false)
      history := { peer.history with
        sent := peer.history.sent ++ [{
          message := {
            messageType := .initialRequest
            identityKey := peer.identityPublicKey
            initialNonce := some session
            requestedCertificates := some peer.certificatesToRequest }
          counterparty := none
          call := some call }] } }
  else peer.reject task answer.error

/- The response came, or the request failed or timed out. -/
def afterAwaitingResponse (task : Nat) (call : Call) (session : JsText) (released : Bool)
  (answer : Answer) : Option Peer :=
  if !answer.valid then
    some (peer.afterGetSession task session answer.now
      fun found =>
        match found with
        | none => .rejected answer.error
        | some found => .failing found)
  else if released then
    some (peer.afterGetSession task session answer.now (.handshakeAnswered call session))
  else none

def afterFailing (task : Nat) (found : JsText) (answer : Answer) : Peer :=
  { peer with
    sessionManager := peer.sessionManager.removeSession found
    tasks := peer.tasks.set task (.rejected answer.error) }

def afterHandshakeAnswered (task : Nat) (call : Call) (found : Option JsText) : Peer :=
  match found.bind peer.sessionManager.objects with
  | none =>
    peer.reject task (Json.text ("Unable to establish mutual authentication with " ++ "peer!"))
  | some session =>
    if session.isAuthenticated then peer.setStage task (.ready call session.sessionNonce)
    else peer.reject task (Json.text ("Unable to establish mutual authentication with " ++ "peer!"))

def mayCarry (purpose : Purpose) (session : PeerSession) : Option JsText :=
  match purpose with
  | .general _ =>
    if session.peerIdentityKey = none then some (Json.text "Peer identity is not established")
    else if session.certificatesRequired && !session.certificatesValidated then
      some (Json.text ("Cannot send general message before certificate " ++
            "validation is complete"))
    else none
  | _ => none

def isCounterparty (isPoint : JsText → Bool) (identityKey : Option JsText) : Bool :=
  match identityKey with
  | none => false
  | some identityKey => assertAuthIdentityKey isPoint identityKey

def afterReady (isPoint : JsText → Bool) (peer : Peer) (task : Nat) (call : Call) (session : JsText)
  (answer : Answer) : Option Peer :=
  match peer.sessionManager.objects session with
  | none => none
  | some found =>
    match call.purpose, mayCarry call.purpose found with
    | .session, _ => some (peer.setStage task .finished)
    | _, some error => some (peer.reject task error)
    | _, none =>
      if answer.valid then
        if assertCanonicalBase64 answer.nonce 32 &&
            isCounterparty isPoint found.peerIdentityKey then
          some (peer.setStage task (.signing call session answer.nonce found.peerIdentityKey))
        else none
      else some (peer.reject task answer.error)

def outbound (purpose : Purpose) (session : PeerSession) (requestNonce : JsText)
  (signature : List UInt8) : AuthMessage :=
  match purpose with
  | .session => {
      messageType := .general
      identityKey := peer.identityPublicKey }
  | .general payload => {
      messageType := .general
      identityKey := peer.identityPublicKey
      nonce := some requestNonce
      yourNonce := session.peerNonce
      payload := some payload
      signature := some signature }
  | .certificateRequest policy => {
      messageType := .certificateRequest
      identityKey := peer.identityPublicKey
      nonce := some requestNonce
      initialNonce := some session.sessionNonce
      yourNonce := session.peerNonce
      requestedCertificates := some policy
      signature := some signature }
  | .certificateResponse certificates => {
      messageType := .certificateResponse
      identityKey := peer.identityPublicKey
      nonce := some requestNonce
      initialNonce := some session.sessionNonce
      yourNonce := session.peerNonce
      certificates := some certificates
      signature := some signature }

def changeBeforeSending (purpose : Purpose) (requestNonce : JsText) : SessionChange :=
  match purpose with
  | .certificateRequest policy => .recordRequest requestNonce policy
  | _ => .touch

def afterSigning (task : Nat) (call : Call) (session requestNonce : JsText)
  (counterparty : Option JsText) (answer : Answer) : Option Peer :=
  match peer.sessionManager.objects session with
  | none => none
  | some found =>
    if answer.valid then
      some (peer.setStage task (.updating session (changeBeforeSending call.purpose requestNonce)
          .queued (.send call session counterparty
            (peer.outbound call.purpose found requestNonce answer.signature))))
    else some (peer.reject task answer.error)

end Peer

-- Changes of a session

/- The fields that a change sets at once. -/
def SessionChange.apply
  (change : SessionChange) (date : Nat) (session : PeerSession) : PeerSession :=
  match change with
  | .touch => { session with lastUpdate := date }
  | .markAuthenticated =>
    { session with
      isAuthenticated := true
      lastUpdate := date }
  | .recordRequest requestNonce policy =>
    { session with
      pendingCertificateRequests := session.pendingCertificateRequests.filter
            (·.1 != requestNonce) ++
          [(requestNonce, policy)]
      lastUpdate := date }
  | .forgetRequest requestNonce =>
    { session with
      pendingCertificateRequests := session.pendingCertificateRequests.filter
          (·.1 != requestNonce) }
  | .validateInitial _ => session
  | .matchResponse _ => session

def afterValidation (requested : Option JsText) (matchesHandshake : Bool) (date : Nat)
  (session : PeerSession) : PeerSession :=
  { session with
    pendingCertificateRequests :=
      session.pendingCertificateRequests.filter fun entry => some entry.1 != requested
    certificatesValidated := matchesHandshake || session.certificatesValidated
    lastUpdate := date }

/-
  The policy that a certificate response is checked by: one
  recorded request, or else the policy of the handshake.
-/
def chosenPolicy (session : PeerSession) (certificates : List VerifiableCertificate) :
  Option (Option JsText × RequestedCertificateSet × Bool) :=
  let matchesHandshake := matchesCertificatePolicy certificates session.certificatePolicy
  match session.pendingCertificateRequests.find? fun entry =>
      matchesCertificatePolicy certificates entry.2 with
  | some (requestNonce, policy) => some (some requestNonce, policy, matchesHandshake)
  | none =>
    if matchesHandshake then some (none, session.certificatePolicy, true)
    else none

def SessionChange.presented :
  SessionChange → Option AuthMessage
| .validateInitial message => some message
| .matchResponse message => some message
| _ => none

namespace Peer

variable (peer : Peer)

def setPhase (task : Nat) (session : JsText) (change : SessionChange) (next : Continuation)
  (phase : Phase) : Peer :=
  peer.setStage task (.updating session change phase next)

def afterHeld (task : Nat) (session : JsText) (change : SessionChange) (next : Continuation)
  (found : JsText) (answer : Answer) : Option Peer :=
  match peer.sessionManager.objects found with
  | none => none
  | some object =>
    match change with
    | .validateInitial _ =>
      some (peer.setPhase task session change next
        (.validating found none object.certificatePolicy true))
    | .matchResponse message =>
      match chosenPolicy object (message.certificates.getD []) with
      | none =>
        some (peer.reject task (Json.text ("Certificates do not match a locally " ++
              "requested set for this session.")))
      | some (requested, policy, matchesHandshake) =>
        some (peer.setPhase task session change next (.validating found requested policy
            matchesHandshake))
    | _ =>
      some ({ peer with
        sessionManager := peer.sessionManager.mutate found (change.apply answer.date) }
        |>.setPhase task session change next (.changed found object.certificatesValidated))

/- `validateCertificates` answers. -/
def afterValidating (task : Nat) (session : JsText) (change : SessionChange) (next : Continuation)
  (found : JsText) (requested : Option JsText) (policy : RequestedCertificateSet)
  (matchesHandshake : Bool) (answer : Answer) : Option Peer :=
  match peer.sessionManager.objects found, change.presented with
  | some object, some message =>
    if answer.valid then
      if presentsRequested message.identityKey (message.certificates.getD []) policy then
        some ({ peer with
          sessionManager := peer.sessionManager.mutate found
              (afterValidation requested matchesHandshake answer.date)
          history := { peer.history with
            validated :=
              if matchesHandshake then peer.history.validated ++ [session]
              else peer.history.validated } }
          |>.setPhase task session change next (.changed found (matchesHandshake ||
                object.certificatesValidated)))
      else none
    else some (peer.reject task answer.error)
  | _, _ => none

/- `updateSession` of the store. -/
def afterChanged (task : Nat) (session : JsText) (change : SessionChange) (next : Continuation)
  (found : JsText) (validated : Bool) (answer : Answer) : Option Peer :=
  match peer.sessionManager.objects found with
  | none => none
  | some object =>
    some (peer.afterAdding task (peer.sessionManager.updateSession object answer.now)
      (.updating session change (.updated validated) next))

def releaseCertificates (session : JsText) : Stage → Stage
| .awaitingCertificates message other released =>
  .awaitingCertificates message other (released || other == session)
| stage => stage

def resolveCertificateValidation (session : JsText) : Peer :=
  { peer with
    tasks := peer.tasks.map (releaseCertificates session) }

/- What follows when the change is made. -/
def afterUpdated (task : Nat) (validated : Bool) (answer : Answer) :
  Continuation → Peer
| .initial message session =>
  (peer.resolveCertificateValidation session).setStage task (.completing message session)
| .request message =>
  match message.requestedCertificates with
  | none => peer.setStage task .finished
  | some set =>
    if set.certifiers = [] then peer.setStage task .finished
    else peer.setStage task (.answering message)
| .response message session =>
  if message.certificates.getD [] = [] then peer.setStage task .finished
  else peer.setPhase task session (.matchResponse message) (.matched session) .queued
| .matched session =>
  if validated then (peer.resolveCertificateValidation session).setStage task .finished
  else peer.setStage task .finished
| .general message session =>
  peer.afterGetSession task session answer.now fun found =>
    match found with
    | none => .rejected (SessionError.notFound session).message
    | some found => .current message session found
| .send call session counterparty message =>
  if answer.valid then
    { peer with
      tasks := peer.tasks.set task .finished
      history := { peer.history with
        sent := peer.history.sent ++ [{
          message
          counterparty
          call := some call }] } }
  else
    match call.purpose with
    | .certificateRequest _ =>
      peer.setPhase task session (.forgetRequest (message.nonce.getD [])) .giveUp .queued
    | _ => peer.reject task answer.error
| .giveUp => peer.reject task answer.error

/- `updateCertificateSession`, one awaited call at a time. -/
def afterUpdating (task : Nat) (session : JsText) (change : SessionChange) (phase : Phase)
  (next : Continuation) (answer : Answer) : Option Peer :=
  match phase with
  | .queued =>
    some (peer.afterGetSession task session answer.now
      fun found =>
        match found with
        | none => .rejected (SessionError.notFound session).message
        | some found => .updating session change (.held found) next)
  | .held found => peer.afterHeld task session change next found answer
  | .validating found requested policy matchesHandshake =>
    peer.afterValidating task session change next found requested policy matchesHandshake answer
  | .changed found validated => peer.afterChanged task session change next found validated answer
  | .updated validated => some (peer.afterUpdated task validated answer next)

end Peer

-- Inbound messages

variable (message : AuthMessage)

def acceptResponse (date : Nat) (session : PeerSession) : PeerSession :=
  let required := decide (session.certificatePolicy.certifiers ≠ [])
  { session with
    peerNonce := message.initialNonce
    peerIdentityKey := some message.identityKey
    isAuthenticated := true
    certificatesRequired := required
    certificatesValidated := !required
    lastUpdate := date }

def matchesSession (session : PeerSession) : Option JsText :=
  match message.messageType, session.peerIdentityKey with
  | .initialResponse, none => none
  | .initialResponse, some identityKey =>
    if identityKey = message.identityKey then none
    else
      some (Json.text ("initialResponse identity does not match the " ++
            "requested peer identity."))
  | messageType, none =>
    some (Json.text "Peer identity is not established for " ++
        messageType.text ++ Json.text " message.")
  | messageType, some identityKey =>
    if identityKey = [] then
      some (Json.text "Peer identity is not established for " ++
          messageType.text ++ Json.text " message.")
    else if message.identityKey = identityKey then none
    else
      some (messageType.text ++ Json.text
            (" identity does not match the authenticated " ++ "session."))

def invalidNonce : JsText :=
  (match message.messageType with
  | .initialRequest => []
  | .initialResponse => Json.text ("Initial response nonce verification failed from " ++ "peer: ")
  | .certificateRequest =>
    Json.text ("Unable to verify nonce for certificate request " ++ "message from: ")
  | .certificateResponse =>
    Json.text ("Unable to verify nonce for certificate response " ++ "from: ")
  | .general => Json.text "Unable to verify nonce for general message from: ") ++
  message.identityKey

def sessionNotFound : JsText :=
  match message.messageType with
  | .initialResponse => Json.text "Peer session not found for peer: " ++ message.identityKey
  | _ => (SessionError.notFound (message.yourNonce.getD [])).message

def invalidSignature : JsText :=
  (match message.messageType with
  | .initialRequest => []
  | .initialResponse => Json.text ("Unable to verify initial response signature for " ++ "peer: ")
  | .certificateRequest =>
    Json.text ("Invalid signature in certificate request message " ++ "from ")
  | .certificateResponse =>
    Json.text ("Unable to verify certificate response signature for " ++ "peer: ")
  | .general => Json.text "Invalid signature in generalMessage from ") ++
  message.identityKey

namespace Peer

/- `#handleIncomingMessage`, up to its first awaited call. -/
def deliver
  (isPoint : JsText → Bool) (peer : Peer) (message : AuthMessage) (now : Nat) : Option Peer :=
  if assertValidAuthMessage isPoint message then
    match message.messageType with
    | .initialRequest =>
      let (claimed, manager) := peer.sessionManager.claimInitialRequestNonce message.identityKey
          (message.initialNonce.getD []) now
      some { peer with
        sessionManager := manager
        tasks := peer.tasks ++ [
          if claimed then .requestClaimed message
          else .rejected (Json.text "Replayed initialRequest nonce.")] }
    | _ =>
      some { peer with
        tasks := peer.tasks ++ [.nonceCheck message] }
  else none

variable (peer : Peer)

/- `processInitialRequest`, from the nonce to the session. -/
def afterRequestClaimed (task : Nat) (message : AuthMessage) (answer : Answer) : Option Peer :=
  if !answer.valid then some (peer.reject task answer.error)
  else if peer.isNewNonce answer.nonce then
    some ({ peer with
      history := { peer.history with
        created := peer.history.created ++ [answer.nonce] } }
      |>.afterAdding task (peer.sessionManager.addSession
          (peer.newSession answer.nonce message.initialNonce (some message.identityKey) answer.date)
          answer.now)
        (.requestAdded message answer.nonce))
  else none

def afterRequestAdded (task : Nat) (message : AuthMessage) (session : JsText)
  (answer : Answer) : Peer :=
  if answer.valid then
    { peer with
      tasks := peer.tasks.set task .finished
      history := { peer.history with
        sent := peer.history.sent ++ [{
          message := {
            messageType := .initialResponse
            identityKey := peer.identityPublicKey
            initialNonce := some session
            yourNonce := message.initialNonce
            certificates :=
              if answer.handled then none
              else some answer.certificates
            requestedCertificates := some peer.certificatesToRequest
            signature := some answer.signature }
          counterparty := some message.identityKey
          call := none }] } }
  else peer.reject task answer.error

def afterNonceCheck (task : Nat) (message : AuthMessage) (answer : Answer) : Peer :=
  if answer.valid then
    peer.afterGetSession task (message.yourNonce.getD []) answer.now fun found =>
        match found with
        | none => .rejected (sessionNotFound message)
        | some found => .lookup message found
  else peer.reject task (invalidNonce message)

def afterLookup (task : Nat) (message : AuthMessage) (found : JsText) : Option Peer :=
  match peer.sessionManager.objects found with
  | none => none
  | some session =>
    match matchesSession message session with
    | some error => some (peer.reject task error)
    | none => some (peer.setStage task (.verifying message found))

def afterVerifying (task : Nat) (message : AuthMessage) (session : JsText)
  (answer : Answer) : Peer :=
  if answer.valid then
    let (outcome, manager) :=
      peer.sessionManager.claimMessageNonce session (messageNonce message) answer.now
    let looked := { peer with sessionManager := manager }
    match outcome with
    | .error e => looked.reject task e.message
    | .ok false =>
      looked.reject task (Json.text "Replayed " ++ message.messageType.text ++
          Json.text " message nonce.")
    | .ok true =>
      { looked with
        tasks := peer.tasks.set task (.claimed message session)
        history := { peer.history with
          claimed := peer.history.claimed ++ [(session, messageNonce message)] } }
  else peer.reject task (invalidSignature message)

def afterClaimed (task : Nat) (message : AuthMessage) (session : JsText)
  (answer : Answer) : Option Peer :=
  let mark (next : Continuation) : Option Peer :=
    some (peer.setPhase task session .markAuthenticated next .queued)
  match message.messageType with
  | .initialRequest => none
  | .certificateRequest => mark (.request message)
  | .certificateResponse => mark (.response message session)
  | .general => mark (.general message session)
  | .initialResponse =>
    match peer.sessionManager.objects session with
    | none => none
    | some object =>
      let manager := peer.sessionManager.mutate session (acceptResponse message answer.date)
      some ({ peer with
        history := { peer.history with
          accepted := peer.history.accepted ++ [(session, message.identityKey)] } }
        |>.afterAdding task (manager.updateSession (acceptResponse message answer.date object)
            answer.now)
          (.accepted message session))

/- `validateInitialResponseCertificates`. -/
def afterAccepted (task : Nat) (message : AuthMessage) (session : JsText) : Option Peer :=
  match peer.sessionManager.objects session with
  | none => none
  | some object =>
    if !object.certificatesRequired || decide (message.certificates.getD [] = []) then
      some (peer.setStage task (.completing message session))
    else
      some (peer.setPhase task session (.validateInitial message)
        (.initial message session) .queued)

def releaseResponse (session : JsText) : Stage → Stage
| .awaitingResponse call other released =>
  .awaitingResponse call other (released || other == session)
| stage => stage

/- The handshake is complete. -/
def afterCompleting (task : Nat) (message : AuthMessage) (session : JsText) : Peer :=
  { peer with
    lastInteractedWithPeer := some message.identityKey
    tasks := (peer.tasks.map (releaseResponse session)).set task
        (match message.requestedCertificates with
        | none => .finished
        | some set =>
          if set.certifiers = [] then .finished
          else .answering message)
    history := { peer.history with
      completed := peer.history.completed ++ [(session, message.identityKey)] } }

/-
  A request for certificates is left to the listeners, or answered with those of the wallet; a
  request in an initial response is not answered with none.
-/
def afterAnswering (task : Nat) (message : AuthMessage) (answer : Answer) : Peer :=
  if !answer.valid then peer.reject task answer.error
  else if answer.handled then peer.setStage task .finished
  else if decide (answer.certificates = []) && message.messageType == .initialResponse then
    peer.setStage task .finished
  else
    peer.beginCall task (.certificateResponse answer.certificates)
      (some message.identityKey) answer.now

/- The listeners for general messages are called. -/
def dispatch (task : Nat) (message : AuthMessage) (session : JsText) : Peer :=
  { peer with
    tasks := peer.tasks.set task .finished
    history := { peer.history with
      delivered := peer.history.delivered ++ [{
        sender := message.identityKey
        payload := message.payload.getD []
        session
        nonce := messageNonce message }] } }

def afterCurrent (task : Nat) (message : AuthMessage) (session found : JsText) : Option Peer :=
  match peer.sessionManager.objects found with
  | none => none
  | some object =>
    if object.certificatesRequired && !object.certificatesValidated then
      some (peer.setStage task (.awaitingCertificates message session false))
    else some (peer.dispatch task message session)

def afterAwaitingCertificates
  (task : Nat) (message : AuthMessage) (session : JsText) (released : Bool)
  (answer : Answer) : Option Peer :=
  if released then some (peer.dispatch task message session)
  else if answer.valid then none
  else some (peer.reject task answer.error)

-- Steps

def resume
  (isPoint : JsText → Bool) (peer : Peer) (task : Nat) (answer : Answer) : Stage → Option Peer
| .requestClaimed message => peer.afterRequestClaimed task message answer
| .requestAdded message session => some (peer.afterRequestAdded task message session answer)
| .nonceCheck message => some (peer.afterNonceCheck task message answer)
| .lookup message found => peer.afterLookup task message found
| .verifying message session => some (peer.afterVerifying task message session answer)
| .claimed message session => peer.afterClaimed task message session answer
| .accepted message session => peer.afterAccepted task message session
| .updating session change phase next => peer.afterUpdating task session change phase next answer
| .completing message session => some (peer.afterCompleting task message session)
| .answering message => some (peer.afterAnswering task message answer)
| .current message session found => peer.afterCurrent task message session found
| .awaitingCertificates message session released =>
  peer.afterAwaitingCertificates task message session released answer
| .calling call found => some (peer.afterCalling task call found)
| .creating call => peer.afterCreating task call answer
| .handshakeAdded call session => some (peer.afterHandshakeAdded task call session answer)
| .awaitingResponse call session released =>
  peer.afterAwaitingResponse task call session released answer
| .handshakeAnswered call _ found => some (peer.afterHandshakeAnswered task call found)
| .failing found => some (peer.afterFailing task found answer)
| .ready call session => peer.afterReady isPoint task call session answer
| .signing call session requestNonce counterparty =>
  peer.afterSigning task call session requestNonce counterparty answer
| .finished => none
| .rejected _ => none

def step (isPoint : JsText → Bool) (peer : Peer) : PeerEvent → Option Peer
| .deliver message now => peer.deliver isPoint message now
| .call purpose identityKey now =>
  if validArguments isPoint purpose identityKey then
    some ({ peer with
      tasks := peer.tasks ++ [Stage.finished] }
      |>.beginCall peer.tasks.length purpose identityKey now)
  else none
| .resume task answer => peer.tasks[task]?.bind (peer.resume isPoint task answer)
| .signed signature =>
  some { peer with
    history := { peer.history with
      signatures := peer.history.signatures ++ [signature] } }

def create (identityPublicKey : JsText) (certificatesToRequest : RequestedCertificateSet)
  (options : SessionManagerOptions) (autoPersistLastSession : Bool) : Peer :=
  { identityPublicKey
    certificatesToRequest
    sessionManager := {
      toSessionManagerOptions := options }
    autoPersistLastSession }

def runs (isPoint : JsText → Bool) (events : List PeerEvent) (peer : Peer) : Option Peer :=
  events.foldlM (step isPoint) peer

end Peer

end TsStack.Auth
