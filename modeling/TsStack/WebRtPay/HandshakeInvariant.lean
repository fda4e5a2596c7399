import TsStack.WebRtPay.SessionDelivery

/-
  What holds of one side of a channel at every point of its
  handshake: which of the peer's messages were handled, and
  what each of them has established.
-/

-- Invariant

open List Option

namespace TsStack.WebRtPay

structure Greeted (o : AuthenticateOptions) (raw : Json) (hello : Hello) : Prop where
  message : parseWireMessage o.isPoint raw = .ok (.hello hello.identityKey hello.nonce)
  expected : ∀ key, o.expectedPeer = some key → hello.identityKey = key
  nonce : hello.nonce ≠ o.localNonce

variable (o : AuthenticateOptions) (endpoint : Endpoint)

def verifyArgs (hello : Hello)
  (signature : List UInt8) : VerifySignatureArgs := {
  data := bindingTranscript (endpoint.peerTranscript o hello)
  signature
  keyID := hello.nonce
  counterparty := hello.identityKey }

/- A signature of this session's transcript that verifies. -/
def Signed (raw : Json) (hello : Hello) : Prop :=
  ∃ text signature, parseWireMessage o.isPoint raw = .ok (.auth text) ∧
      fromHex text = some signature ∧
      o.verifySignature (verifyArgs o endpoint hello signature) = some true

structure Heard
  (o : AuthenticateOptions) (endpoint : Endpoint) (raw : Json) (hello : Hello) : Prop where
  greeted : Greeted o raw hello
  peer : endpoint.peer = some hello
  key : endpoint.localKey = o.identityKey
  remote : endpoint.link.remoteDescription.isSome = true

def Progress : Prop :=
  match endpoint.expecting with
  | .hello => endpoint.arrived = endpoint.inbox ∧ endpoint.localKey = o.identityKey
  | .auth =>
    ∃ rawHello hello, endpoint.arrived = rawHello :: endpoint.inbox ∧
        Heard o endpoint rawHello hello
  | .ready =>
    ∃ rawHello hello rawAuth, endpoint.arrived = rawHello :: rawAuth :: endpoint.inbox ∧
        Heard o endpoint rawHello hello ∧ Signed o endpoint rawAuth hello

/- What is known while a call is awaited. -/
def CallHolds : Prop :=
  match endpoint.call with
  | .getPublicKey => endpoint.expecting = .hello ∧ endpoint.arrived = endpoint.inbox
  | .startAfter | .waitOpen | .sendHello => endpoint.expecting = .hello ∧ Progress o endpoint
  | .createSignature _ | .sendAuth => endpoint.expecting = .auth ∧ Progress o endpoint
  | .verifySignature args =>
    endpoint.expecting = .auth ∧ ∃ rawHello hello rawAuth text signature, endpoint.arrived =
            rawHello :: rawAuth :: endpoint.inbox ∧
          Heard o endpoint rawHello hello ∧ parseWireMessage o.isPoint rawAuth = .ok (.auth text) ∧
          fromHex text = some signature ∧ args = verifyArgs o endpoint hello signature
  | .sendReady => endpoint.expecting = .ready ∧ Progress o endpoint
  | .returned | .idle => Progress o endpoint
  | .threw _ => True

/-
  A session whose peer sent a hello, a signature of this session's transcript and a ready, and
  what it has taken of the messages after these.
-/
structure Authenticated
  (o : AuthenticateOptions) (endpoint : Endpoint) (session : AuthenticatedPeer) (hello : Hello)
  (rawHello rawAuth rawReady : Json) (pending later : List Json) : Prop where
  arrived : endpoint.arrived = rawHello :: rawAuth :: rawReady :: (pending ++ later)
  key : endpoint.localKey = o.identityKey
  greeted : Greeted o rawHello hello
  transcript : (endpoint.peerTranscript o hello).Valid o.isPoint
  signed : Signed o endpoint rawAuth hello
  ready : parseWireMessage o.isPoint rawReady = .ok .ready
  peerKey : session.peerIdentityKey = hello.identityKey
  localKey : session.localIdentityKey = o.identityKey
  delivery : SessionHolds o.isPoint session pending later

def EndpointHolds : Prop :=
  match endpoint.settled with
  | none =>
    endpoint.session = none ∧ endpoint.inbox.length ≤ endpoint.inboxLimit ∧ CallHolds o endpoint
  | some (.rejected _) => endpoint.session = none
  | some .resolved =>
    ∃ session hello rawHello rawAuth rawReady pending later,
      endpoint.session = some session ∧ Authenticated o endpoint session hello rawHello
          rawAuth rawReady pending later

theorem endpointHolds_begin (link : PeerLink) : EndpointHolds o (Endpoint.begin o link) :=
  ⟨rfl, Nat.zero_le _, rfl, rfl⟩

-- Failures

variable {o : AuthenticateOptions} {endpoint next : Endpoint}

theorem EndpointHolds.session_eq_none
  (hHold : EndpointHolds o endpoint) (hSettle : endpoint.settled ≠ some .resolved) :
  endpoint.session = none := by
  unfold EndpointHolds at hHold
  cases hCase : endpoint.settled with
  | none =>
    rw [hCase] at hHold
    exact hHold.1
  | some settlement =>
    rw [hCase] at hHold
    cases settlement with
    | resolved => exact absurd hCase hSettle
    | rejected error => exact hHold

theorem endpointHolds_fail (hOpen : endpoint.settled = none) (hSess : endpoint.session = none)
  (error : HandshakeError) : EndpointHolds o (endpoint.fail error) := by
  unfold Endpoint.fail
  rw [hOpen]
  exact hSess

theorem EndpointHolds.unsettled
  (hHold : EndpointHolds o endpoint) (hOpen : endpoint.settled = none) :
  endpoint.session = none ∧ endpoint.inbox.length ≤ endpoint.inboxLimit ∧
    CallHolds o endpoint := by
  unfold EndpointHolds at hHold
  rw [hOpen] at hHold
  exact hHold

theorem endpointHolds_of_unsettled
  (hOpen : endpoint.settled = none) (hSess : endpoint.session = none)
  (hInbox : endpoint.inbox.length ≤ endpoint.inboxLimit) (hCall : CallHolds o endpoint) :
  EndpointHolds o endpoint := by
  unfold EndpointHolds
  rw [hOpen]
  exact ⟨hSess, hInbox, hCall⟩

theorem endpointHolds_of_rejected
  {error : HandshakeError} (hRejected : endpoint.settled = some (.rejected error))
  (hSess : endpoint.session = none) : EndpointHolds o endpoint := by
  unfold EndpointHolds
  rw [hRejected]
  exact hSess

variable {endpoint : Endpoint}

/- A message that is handled is the only one for now. -/
theorem handle_busy (o : AuthenticateOptions) (endpoint : Endpoint) (raw : Json) :
  (endpoint.handle o raw).busy = true ∨ (endpoint.handle o raw).settled.isSome = true := by
  have hFail : ∀ error, (endpoint.fail error).settled.isSome = true := by
    intro error
    unfold Endpoint.fail
    split
    · rename_i hSettle
      exact hSettle
    · rfl
  unfold Endpoint.handle
  cases parseWireMessage o.isPoint raw with
  | error error => exact .inr (hFail _)
  | ok message =>
    simp only
    split
    · left
      unfold Endpoint.onHello
      split
      · rfl
      split
      · rfl
      simp only
      split
      · rfl
      · rfl
    · left
      unfold Endpoint.onAuth
      split
      · rfl
      split
      · rfl
      · rfl
    · right
      unfold Endpoint.finish
      split
      · exact hFail _
      · rfl
    · exact .inr (hFail _)

theorem pumpFrom_of_busy
  (hBusy : endpoint.busy = true ∨ endpoint.settled.isSome = true) (raws : List Json) :
  endpoint.pumpFrom o raws = endpoint := by
  cases raws with
  | nil => rfl
  | cons raw rest =>
    unfold Endpoint.pumpFrom
    exact if_pos hBusy

/- Nothing is handled, or the first message is. -/
theorem pump_cases (o : AuthenticateOptions) (endpoint : Endpoint) :
  endpoint.pump o = endpoint ∨ ∃ raw rest,
      endpoint.inbox = raw :: rest ∧ endpoint.call = .idle ∧ endpoint.settled = none ∧
        endpoint.pump o = { endpoint with inbox := rest }.handle o raw := by
  unfold Endpoint.pump
  cases hInbox : endpoint.inbox with
  | nil => exact .inl rfl
  | cons raw rest =>
    by_cases hBusy : endpoint.busy = true ∨ endpoint.settled.isSome = true
    · exact .inl (pumpFrom_of_busy hBusy _)
    · right
      have hIdle : endpoint.call = .idle := by
        cases hCall : endpoint.call with
        | idle => rfl
        | _ =>
          exact absurd (Or.inl (by
            unfold Endpoint.busy
            rw [hCall])) hBusy
      have hOpen : endpoint.settled = none := by
        cases hSettle : endpoint.settled with
        | none => rfl
        | some settlement =>
          rw [hSettle] at hBusy
          exact absurd (Or.inr rfl) hBusy
      refine ⟨raw, rest, rfl, hIdle, hOpen, ?_⟩
      unfold Endpoint.pumpFrom
      rw [if_neg hBusy]
      exact pumpFrom_of_busy (handle_busy o _ raw) rest

-- Hellos

variable {isPoint : JsText → Bool}

theorem identity_of_parseHello {r : List (JsText × Json)} {identityKey nonce : JsText}
  (hMsg : parseHello isPoint r = .ok (.hello identityKey nonce)) :
  isIdentityKey isPoint identityKey = true ∧ isNonce nonce = true := by
  unfold parseHello at hMsg
  split at hMsg
  · split at hMsg
    · cases hMsg
    · rename_i hChecks
      cases hMsg
      simp only [not_or, Bool.not_eq_false] at hChecks
      exact hChecks.2
  · cases hMsg

def NotHello (parsed : Except WebRTPayError WireMessage) : Prop :=
  ∀ identityKey nonce, parsed ≠ .ok (.hello identityKey nonce)

theorem notHello_error (error : WebRTPayError) : NotHello (.error error) := nofun

theorem notHello_map {α : Type} {parsed : Except WebRTPayError α} {message : α → WireMessage}
  (hMsg : ∀ value, NotHello (.ok (message value))) : NotHello (parsed.map message) := by
  intro identityKey nonce hEq
  cases parsed with
  | error error => cases hEq
  | ok value => exact hMsg value identityKey nonce hEq

theorem notHello_request (request : PaymentRequestMessage) :
  NotHello (.ok (.request request)) := nofun

theorem notHello_response (response : PaymentRequestResponse) :
  NotHello (.ok (.requestResponse response)) := nofun

variable (r : List (JsText × Json))

theorem notHello_parseAuth : NotHello (parseAuth r) := by
  unfold parseAuth
  split
  · split
    · exact notHello_error _
    · exact nofun
  · exact notHello_error _

theorem notHello_parsePayment : NotHello (parsePayment r) := by
  unfold parsePayment
  split
  · exact notHello_error _
  split
  · split
    · exact notHello_error _
    · unfold parsePayment.typed
      split
      · exact nofun
      · exact notHello_error _
  · exact notHello_error _

theorem notHello_parseAck : NotHello (parseAck r) := by
  unfold parseAck
  split
  · split
    · exact notHello_error _
    · split
      · exact notHello_error _
      · exact nofun
  · exact notHello_error _

theorem notHello_parseError : NotHello (parseError r) := by
  unfold parseError
  split
  · split
    · exact notHello_error _
    · exact nofun
  · exact notHello_error _

variable {raw : Json}

theorem identity_of_parseWireMessage {identityKey nonce : JsText}
  (hMsg : parseWireMessage isPoint raw = .ok (.hello identityKey nonce)) :
  isIdentityKey isPoint identityKey = true ∧ isNonce nonce = true := by
  unfold parseWireMessage at hMsg
  split at hMsg
  · cases hMsg
  split at hMsg
  · split at hMsg
    · exact identity_of_parseHello hMsg
    split at hMsg
    · exact absurd hMsg (notHello_parseAuth _ _ _)
    split at hMsg
    · cases hMsg
    split at hMsg
    · exact absurd hMsg (notHello_parsePayment _ _ _)
    split at hMsg
    · exact absurd hMsg (notHello_parseAck _ _ _)
    split at hMsg
    · exact absurd hMsg (notHello_map notHello_request _ _)
    split at hMsg
    · exact absurd hMsg (notHello_map notHello_response _ _)
    split at hMsg
    · exact absurd hMsg (notHello_parseError _ _ _)
    split at hMsg
    · cases hMsg
    · cases hMsg
  · cases hMsg

-- Keys of Sessions

theorem receive_keys (session : AuthenticatedPeer) (raw : Json) :
  (session.receive isPoint raw).localIdentityKey = session.localIdentityKey ∧
    (session.receive isPoint raw).peerIdentityKey =
      session.peerIdentityKey := by
  unfold AuthenticatedPeer.receive
  split
  · exact ⟨rfl, rfl⟩
  split
  · exact ⟨rfl, rfl⟩
  split
  · exact ⟨rfl, rfl⟩
  split
  · exact ⟨rfl, rfl⟩
  · exact ⟨rfl, rfl⟩

theorem release_keys {session next : AuthenticatedPeer} (hStep : session.release = some next) :
  next.localIdentityKey = session.localIdentityKey ∧
    next.peerIdentityKey = session.peerIdentityKey := by
  unfold AuthenticatedPeer.release at hStep
  split at hStep
  · split at hStep
    · rw [← Option.some.inj hStep]
      exact ⟨rfl, rfl⟩
    · cases hStep
  · cases hStep

theorem handOver_keys {session next : AuthenticatedPeer} (hStep : session.handOver = some next) :
  next.localIdentityKey = session.localIdentityKey ∧
    next.peerIdentityKey = session.peerIdentityKey := by
  unfold AuthenticatedPeer.handOver at hStep
  split at hStep
  · rw [← Option.some.inj hStep]
    exact ⟨rfl, rfl⟩
  · cases hStep

theorem create_keys (localIdentityKey peerIdentityKey : JsText) (pending : List Json) :
  (AuthenticatedPeer.create isPoint localIdentityKey peerIdentityKey pending).localIdentityKey =
      localIdentityKey ∧
    (AuthenticatedPeer.create isPoint localIdentityKey peerIdentityKey pending).peerIdentityKey =
      peerIdentityKey := by
  unfold AuthenticatedPeer.create
  induction pending using reverseRecOn with
  | nil => exact ⟨rfl, rfl⟩
  | append_singleton raws raw ih =>
    rw [foldl_append, foldl_cons, foldl_nil,
      (receive_keys _ raw).1, (receive_keys _ raw).2]
    exact ih

-- What a Message Establishes

theorem endpointHolds_throwing (hOpen : endpoint.settled = none) (hSess : endpoint.session = none)
  (hInbox : endpoint.inbox.length ≤ endpoint.inboxLimit) (error : HandshakeError) :
  EndpointHolds o (endpoint.throwing error) :=
  endpointHolds_of_unsettled hOpen hSess hInbox trivial

variable {hello : Hello}

theorem endpointHolds_onHello (hOpen : endpoint.settled = none) (hSess : endpoint.session = none)
  (hInbox : endpoint.inbox.length ≤ MAX_INBOX_BEFORE_READY)
  (hExpecting : endpoint.expecting = .hello) (hArrived : endpoint.arrived = raw :: endpoint.inbox)
  (hKey : endpoint.localKey = o.identityKey)
  (hMsg : parseWireMessage o.isPoint raw = .ok (.hello hello.identityKey hello.nonce)) :
  EndpointHolds o (endpoint.onHello o hello) := by
  have hLimit : endpoint.inbox.length ≤ endpoint.inboxLimit := by
    unfold Endpoint.inboxLimit
    rw [hExpecting, if_neg nofun]
    exact hInbox
  unfold Endpoint.onHello
  split
  · exact endpointHolds_throwing hOpen hSess hLimit _
  rename_i hExpected
  split
  · exact endpointHolds_throwing hOpen hSess hLimit _
  rename_i hNonce
  simp only
  split
  · exact endpointHolds_of_unsettled hOpen hSess hInbox trivial
  rename_i hFingerprints
  refine endpointHolds_of_unsettled hOpen hSess hInbox ?_
  refine ⟨rfl, raw, hello, hArrived, ?_⟩
  constructor
  case greeted =>
    refine ⟨hMsg, ?_, hNonce⟩
    intro key hSome
    rw [hSome, any_some, bne_iff_ne, ne_eq, not_not] at hExpected
    exact hExpected.symm
  case peer => rfl
  case key => exact hKey
  case remote =>
    unfold PeerLink.remoteFingerprints at hFingerprints
    cases hRemote : endpoint.link.remoteDescription with
    | some fingerprints => rfl
    | none =>
      rw [hRemote] at hFingerprints
      exact absurd (Or.inr rfl) hFingerprints

theorem endpointHolds_onAuth
  {rawHello rawAuth : Json} {text : JsText} (hOpen : endpoint.settled = none)
  (hSess : endpoint.session = none) (hInbox : endpoint.inbox.length ≤ endpoint.inboxLimit)
  (hExpecting : endpoint.expecting = .auth)
  (hArrived : endpoint.arrived = rawHello :: rawAuth :: endpoint.inbox)
  (hHeard : Heard o endpoint rawHello hello)
  (hMsg : parseWireMessage o.isPoint rawAuth = .ok (.auth text)) :
  EndpointHolds o (endpoint.onAuth o text) := by
  unfold Endpoint.onAuth
  rw [hHeard.peer]
  simp only
  cases hText : fromHex text with
  | none => exact endpointHolds_throwing hOpen hSess hInbox _
  | some signature =>
    simp only
    refine endpointHolds_of_unsettled hOpen hSess hInbox ?_
    exact ⟨hExpecting, rawHello, hello, rawAuth, text, signature, hArrived,
      ⟨hHeard.greeted, rfl, hHeard.key, hHeard.remote⟩, hMsg, hText, rfl⟩

theorem valid_peerTranscript (hHeard : Heard o endpoint raw hello) :
  (endpoint.peerTranscript o hello).Valid o.isPoint := by
  have hHello : isIdentityKey o.isPoint hello.identityKey = true ∧ isNonce hello.nonce = true :=
    identity_of_parseWireMessage hHeard.greeted.message
  have hLocal : isNonce o.localNonce = true := by
    unfold isNonce AuthenticateOptions.localNonce
    rw [fromBase64_toBase64, length_toBase64, map_some, o.random_length]
    decide
  constructor
  case signerFingerprints =>
    change requireOneFingerprint endpoint.link.remoteFingerprints = true
    rcases isSome_iff_exists.mp hHeard.remote with ⟨fingerprints, hRemote⟩
    unfold PeerLink.remoteFingerprints
    rw [hRemote]
    exact endpoint.link.remoteOne fingerprints hRemote
  case verifierFingerprints => exact endpoint.link.localOne
  case signerNonce => exact hHello.2
  case verifierNonce => exact hLocal
  case signerKey => exact hHello.1
  case verifierKey =>
    change isIdentityKey o.isPoint endpoint.localKey = true
    rw [hHeard.key]
    exact o.identityKey_valid

theorem endpointHolds_finish
  {rawHello rawAuth rawReady : Json} (hInbox : endpoint.inbox.length ≤ MAX_BACKLOG)
  (hArrived : endpoint.arrived = rawHello :: rawAuth :: rawReady :: endpoint.inbox)
  (hHeard : Heard o endpoint rawHello hello) (hSigned : Signed o endpoint rawAuth hello)
  (hMsg : parseWireMessage o.isPoint rawReady = .ok .ready) :
  EndpointHolds o (endpoint.finish o) := by
  have hTranscript := valid_peerTranscript hHeard
  unfold Endpoint.finish
  rw [hHeard.peer]
  refine ⟨_, hello, rawHello, rawAuth, rawReady, endpoint.inbox, [], rfl, ?_⟩
  constructor
  case arrived =>
    rw [append_nil]
    exact hArrived
  case key => exact hHeard.key
  case greeted => exact hHeard.greeted
  case transcript => exact hTranscript
  case signed => exact hSigned
  case ready => exact hMsg
  case peerKey => exact (create_keys _ _ _).2
  case localKey => exact (create_keys _ _ _).1.trans hHeard.key
  case delivery => exact sessionHolds_create _ _ hInbox

/- The state of an endpoint that is free to handle `raw`. -/
structure Ready
  (o : AuthenticateOptions) (endpoint : Endpoint) (raw : Json) (rest : List Json) : Prop where
  settled : endpoint.settled = none
  session : endpoint.session = none
  inbox : endpoint.inbox = raw :: rest
  limit : endpoint.inbox.length ≤ endpoint.inboxLimit
  progress : Progress o endpoint

theorem Ready.handle {rest : List Json} (hReady : Ready o endpoint raw rest) :
  EndpointHolds o ({ endpoint with inbox := rest }.handle o raw) := by
  have hLen : rest.length < endpoint.inboxLimit := by
    have hLimit := hReady.limit
    rw [hReady.inbox] at hLimit
    exact hLimit
  have hProg := hReady.progress
  unfold Progress at hProg
  unfold Endpoint.handle
  cases hMsg : parseWireMessage o.isPoint raw with
  | error error =>
    apply endpointHolds_fail
    · exact hReady.settled
    · exact hReady.session
  | ok message =>
    simp only
    split
    · -- The hello opens the handshake.
      rename_i identityKey nonce hExpecting
      change endpoint.expecting = .hello at hExpecting
      rw [hExpecting] at hProg
      unfold Endpoint.inboxLimit at hLen
      rw [hExpecting, if_neg nofun] at hLen
      refine endpointHolds_onHello hReady.settled hReady.session
        (Nat.le_of_lt hLen) hExpecting ?_ hProg.2 hMsg
      rw [← hReady.inbox]
      exact hProg.1
    · -- The signature is over the transcript of that hello.
      rename_i text hExpecting
      change endpoint.expecting = .auth at hExpecting
      rw [hExpecting] at hProg
      rcases hProg with ⟨rawHello, hello, hArrived, hHeard⟩
      rw [hReady.inbox] at hArrived
      exact endpointHolds_onAuth hReady.settled hReady.session
        (Nat.le_of_lt hLen) hExpecting hArrived
        ⟨hHeard.greeted, hHeard.peer, hHeard.key, hHeard.remote⟩ hMsg
    · -- The ready hands over what has arrived since.
      rename_i hExpecting
      change endpoint.expecting = .ready at hExpecting
      rw [hExpecting] at hProg
      rcases hProg with ⟨rawHello, hello, rawAuth, hArrived, hHeard, hSigned⟩
      rw [hReady.inbox] at hArrived
      unfold Endpoint.inboxLimit at hLen
      rw [hExpecting, if_pos rfl] at hLen
      have hPending : rest.length ≤ MAX_BACKLOG := by
        unfold MAX_INBOX_AFTER_READY at hLen
        omega
      exact endpointHolds_finish hPending hArrived
        ⟨hHeard.greeted, hHeard.peer, hHeard.key, hHeard.remote⟩ hSigned hMsg
    · apply endpointHolds_fail
      · exact hReady.settled
      · exact hReady.session

/- A message is handled when no step is awaited. -/
theorem endpointHolds_pump (hHold : EndpointHolds o endpoint) :
  EndpointHolds o (endpoint.pump o) := by
  rcases pump_cases o endpoint with hSame | ⟨raw, rest, hInbox, hIdle, hOpen, hPump⟩
  · rw [hSame]
    exact hHold
  · rcases hHold.unsettled hOpen with ⟨hSess, hLimit, hCall⟩
    unfold CallHolds at hCall
    rw [hIdle] at hCall
    rw [hPump]
    exact Ready.handle ⟨hOpen, hSess, hInbox, hLimit, hCall⟩

end TsStack.WebRtPay
