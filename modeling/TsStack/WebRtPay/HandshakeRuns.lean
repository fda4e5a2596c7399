import TsStack.WebRtPay.HandshakeInvariant

/-
  Runs of one side of a channel: whatever the peer sends and
  in whatever order the calls answer, a session is one whose
  peer has proved its identity, and it takes the messages that
  arrive after the peer's ready in order.
-/

-- Arrivals

open List Option

namespace TsStack.WebRtPay

variable {o : AuthenticateOptions} {endpoint next : Endpoint}

/- The same point of the handshake, with more in the inbox. -/
structure Follows (endpoint next : Endpoint) (more : List Json) : Prop where
  expecting : next.expecting = endpoint.expecting
  peer : next.peer = endpoint.peer
  localKey : next.localKey = endpoint.localKey
  localFingerprints : next.link.localFingerprints = endpoint.link.localFingerprints
  remoteDescription : next.link.remoteDescription = endpoint.link.remoteDescription
  arrived : next.arrived = endpoint.arrived ++ more
  inbox : next.inbox = endpoint.inbox ++ more

variable {more : List Json}

theorem Follows.verifyArgs
  (hFoll : Follows endpoint next more) (hello : Hello) (signature : List UInt8) :
  verifyArgs o next hello signature = verifyArgs o endpoint hello signature := by
  unfold WebRtPay.verifyArgs Endpoint.peerTranscript PeerLink.remoteFingerprints
  rw [hFoll.localKey, hFoll.localFingerprints, hFoll.remoteDescription]

variable {raw : Json}

theorem Heard.follows
  {hello : Hello} (hHeard : Heard o endpoint raw hello) (hFoll : Follows endpoint next more) :
  Heard o next raw hello := by
  constructor
  case greeted => exact hHeard.greeted
  case peer => exact hFoll.peer.trans hHeard.peer
  case key => exact hFoll.localKey.trans hHeard.key
  case remote =>
    rw [hFoll.remoteDescription]
    exact hHeard.remote

theorem Signed.follows {hello : Hello} (hSigned : Signed o endpoint raw hello)
  (hFoll : Follows endpoint next more) : Signed o next raw hello := by
  rcases hSigned with ⟨text, signature, hMsg, hText, hVerifies⟩
  refine ⟨text, signature, hMsg, hText, ?_⟩
  rw [hFoll.verifyArgs]
  exact hVerifies

theorem Progress.follows (hProg : Progress o endpoint) (hFoll : Follows endpoint next more) :
  Progress o next := by
  unfold Progress at hProg ⊢
  rw [hFoll.expecting]
  cases hExpecting : endpoint.expecting with
  | hello =>
    rw [hExpecting] at hProg
    rw [hFoll.arrived, hFoll.inbox, hProg.1]
    exact ⟨rfl, hFoll.localKey.trans hProg.2⟩
  | auth =>
    rw [hExpecting] at hProg
    rcases hProg with ⟨rawHello, hello, hArrived, hHeard⟩
    refine ⟨rawHello, hello, ?_, hHeard.follows hFoll⟩
    rw [hFoll.arrived, hFoll.inbox, hArrived]
    rfl
  | ready =>
    rw [hExpecting] at hProg
    rcases hProg with ⟨rawHello, hello, rawAuth, hArrived, hHeard, hSigned⟩
    refine ⟨rawHello, hello, rawAuth, ?_, hHeard.follows hFoll, hSigned.follows hFoll⟩
    rw [hFoll.arrived, hFoll.inbox, hArrived]
    rfl

theorem Progress.awaiting (hProg : Progress o endpoint) (call : AwaitedCall) (timing : Bool) :
  Progress o { endpoint with call, timing } :=
  hProg.follows ⟨rfl, rfl, rfl, rfl, rfl, (append_nil _).symm, (append_nil _).symm⟩

theorem CallHolds.follows (hCall : CallHolds o endpoint) (hFoll : Follows endpoint next more)
  (hSame : next.call = endpoint.call) : CallHolds o next := by
  unfold CallHolds at hCall ⊢
  rw [hSame]
  cases hAwaited : endpoint.call with
  | idle =>
    rw [hAwaited] at hCall
    exact Progress.follows hCall hFoll
  | returned =>
    rw [hAwaited] at hCall
    exact Progress.follows hCall hFoll
  | threw error => trivial
  | getPublicKey =>
    rw [hAwaited] at hCall
    refine ⟨hFoll.expecting.trans hCall.1, ?_⟩
    rw [hFoll.arrived, hFoll.inbox, hCall.2]
  | verifySignature args =>
    rw [hAwaited] at hCall
    rcases hCall with ⟨hExpecting, rawHello, hello, rawAuth, text, signature,
      hArrived, hHeard, hMsg, hText, hArgs⟩
    refine ⟨hFoll.expecting.trans hExpecting, rawHello, hello,
      rawAuth, text, signature, ?_, hHeard.follows hFoll, hMsg, hText, ?_⟩
    · rw [hFoll.arrived, hFoll.inbox, hArrived]
      rfl
    · rw [hFoll.verifyArgs]
      exact hArgs
  | _ =>
    rw [hAwaited] at hCall
    exact ⟨hFoll.expecting.trans hCall.1, hCall.2.follows hFoll⟩

-- Steps

theorem EndpointHolds.authenticated (hHold : EndpointHolds o endpoint) {session : AuthenticatedPeer}
  (hSess : endpoint.session = some session) :
  endpoint.settled = some .resolved ∧ ∃ hello rawHello rawAuth rawReady pending later,
      Authenticated o endpoint session hello rawHello rawAuth rawReady pending later := by
  have hRes : endpoint.settled = some .resolved := by
    by_contra hNot
    have hNone := hHold.session_eq_none hNot
    rw [hSess] at hNone
    cases hNone
  refine ⟨hRes, ?_⟩
  unfold EndpointHolds at hHold
  rw [hRes] at hHold
  rcases hHold with
    ⟨other, hello, rawHello, rawAuth, rawReady, pending, later, hOther, hAuth⟩
  rw [hSess] at hOther
  rw [← Option.some.inj hOther] at hAuth
  exact ⟨hello, rawHello, rawAuth, rawReady, pending, later, hAuth⟩

theorem EndpointHolds.message
  (hHold : EndpointHolds o endpoint) (hStep : endpoint.message o raw = some next) :
  EndpointHolds o next := by
  unfold Endpoint.message at hStep
  split at hStep
  · cases hStep
  cases hSess : endpoint.session with
  | some session =>
    rw [hSess] at hStep
    simp only at hStep
    split at hStep
    · cases hStep
    rename_i hHanded
    rcases hHold.authenticated hSess with
      ⟨hRes, hello, rawHello, rawAuth, rawReady, pending, later, hAuth⟩
    rw [← Option.some.inj hStep]
    unfold EndpointHolds
    rw [hRes]
    refine ⟨_, hello, rawHello, rawAuth, rawReady, pending, later ++ [raw], rfl, ?_⟩
    constructor
    case arrived =>
      rw [hAuth.arrived, ← append_assoc]
      rfl
    case key => exact hAuth.key
    case greeted => exact hAuth.greeted
    case transcript => exact hAuth.transcript
    case signed => exact hAuth.signed
    case ready => exact hAuth.ready
    case peerKey => exact (receive_keys _ _).2.trans hAuth.peerKey
    case localKey => exact (receive_keys _ _).1.trans hAuth.localKey
    case delivery =>
      apply hAuth.delivery.receive
      exact length_eq_zero_iff.mp (not_not.mp hHanded)
  | none =>
    rw [hSess] at hStep
    simp only at hStep
    split at hStep
    · cases hStep
    rename_i hUnsettled
    have hOpen : endpoint.settled = none := by
      rw [isSome_iff_ne_none, not_not] at hUnsettled
      exact hUnsettled
    rcases hHold.unsettled hOpen with ⟨-, hLimit, hCall⟩
    split at hStep
    · rw [← Option.some.inj hStep]
      apply endpointHolds_fail
      · exact hOpen
      · rfl
    rename_i hRoom
    rw [← Option.some.inj hStep]
    apply endpointHolds_pump
    refine endpointHolds_of_unsettled hOpen rfl ?_ ?_
    · change (endpoint.inbox ++ [raw]).length ≤ endpoint.inboxLimit
      rw [length_append, length_singleton]
      omega
    · exact hCall.follows ⟨rfl, rfl, rfl, rfl, rfl, rfl, rfl⟩ rfl

theorem follows_send (endpoint : Endpoint) (message : WireMessage) (call : AwaitedCall) :
  Follows endpoint (endpoint.send message call) [] := by
  unfold Endpoint.send
  split
  · exact ⟨rfl, rfl, rfl, rfl, rfl, (append_nil _).symm, (append_nil _).symm⟩
  · exact ⟨rfl, rfl, rfl, rfl, rfl, (append_nil _).symm, (append_nil _).symm⟩

theorem send_call (endpoint : Endpoint) (message : WireMessage) (call : AwaitedCall) :
  (endpoint.send message call).call = call ∧
    (endpoint.send message call).settled = endpoint.settled ∧
    (endpoint.send message call).session =
      endpoint.session := by
  unfold Endpoint.send
  split
  · exact ⟨rfl, rfl, rfl⟩
  · exact ⟨rfl, rfl, rfl⟩

theorem endpointHolds_send (hOpen : endpoint.settled = none) (hSess : endpoint.session = none)
  (hLimit : endpoint.inbox.length ≤ endpoint.inboxLimit) (message : WireMessage)
  (call : AwaitedCall) (hCall : CallHolds o { endpoint with call }) :
  EndpointHolds o (endpoint.send message call) := by
  have hFoll := follows_send endpoint message call
  rcases send_call endpoint message call with ⟨hSame, hSettle, hNone⟩
  apply endpointHolds_of_unsettled (hSettle.trans hOpen) (hNone.trans hSess)
  · unfold Endpoint.inboxLimit at hLimit ⊢
    rw [hFoll.expecting, hFoll.inbox, append_nil]
    exact hLimit
  · exact hCall.follows ⟨hFoll.expecting, hFoll.peer, hFoll.localKey,
      hFoll.localFingerprints, hFoll.remoteDescription, hFoll.arrived,
      hFoll.inbox⟩ hSame

section

variable (hHold : EndpointHolds o endpoint)

include hHold

/- A call that ends after the handshake changes nothing. -/
theorem EndpointHolds.settled (hSettle : endpoint.settled ≠ none) (call : AwaitedCall)
  (key : JsText) (hKey : key = endpoint.localKey ∨ key = o.identityKey) :
  EndpointHolds o { endpoint with call, localKey := key } := by
  unfold EndpointHolds at hHold ⊢
  cases hCase : endpoint.settled with
  | none => exact absurd hCase hSettle
  | some settlement =>
    rw [hCase] at hHold
    cases settlement with
    | rejected error => exact hHold
    | resolved =>
      rcases hHold with
        ⟨session, hello, rawHello, rawAuth, rawReady, pending, later, hSess, hAuth⟩
      have hSame : key = endpoint.localKey := by
        rcases hKey with hSame | hIdent
        · exact hSame
        · exact hIdent.trans hAuth.key.symm
      subst hSame
      exact ⟨session, hello, rawHello, rawAuth, rawReady, pending, later, hSess,
        ⟨hAuth.arrived, hAuth.key, hAuth.greeted,
          hAuth.transcript, hAuth.signed, hAuth.ready,
          hAuth.peerKey, hAuth.localKey, hAuth.delivery⟩⟩

theorem EndpointHolds.returned (hSettle : endpoint.settled.isSome = true) :
  EndpointHolds o { endpoint with call := .returned } :=
  hHold.settled (isSome_iff_ne_none.mp hSettle) .returned endpoint.localKey (Or.inl rfl)

theorem EndpointHolds.throwing (error : HandshakeError) :
  EndpointHolds o (endpoint.throwing error) := by
  by_cases hOpen : endpoint.settled = none
  · rcases hHold.unsettled hOpen with ⟨hSess, hLimit, -⟩
    exact endpointHolds_throwing hOpen hSess hLimit error
  · exact hHold.settled hOpen (.threw error) endpoint.localKey (Or.inl rfl)

/- The handshake goes on from a call that ends well. -/
theorem EndpointHolds.advance (call : AwaitedCall)
  (hCall : CallHolds o endpoint → CallHolds o { endpoint with call }) :
  EndpointHolds o { endpoint with call } := by
  by_cases hOpen : endpoint.settled = none
  · rcases hHold.unsettled hOpen with ⟨hSess, hLimit, hHeld⟩
    exact endpointHolds_of_unsettled hOpen hSess hLimit (hCall hHeld)
  · exact hHold.settled hOpen call endpoint.localKey (Or.inl rfl)

end

theorem isSome_eq_false {settled : Option Settlement} (hOpen : ¬settled.isSome = true) :
  settled = none := by
  rw [isSome_iff_ne_none, not_not] at hOpen
  exact hOpen

section

variable (hHold : EndpointHolds o endpoint)

include hHold

theorem EndpointHolds.identityKey (hAwaited : endpoint.call = .getPublicKey)
  {call : AwaitedCall} (hCall : call = .startAfter ∨ call = .waitOpen) :
  EndpointHolds o { endpoint with localKey := o.identityKey, call } := by
  by_cases hOpen : endpoint.settled = none
  · rcases hHold.unsettled hOpen with ⟨hSess, hLimit, hHeld⟩
    refine endpointHolds_of_unsettled hOpen hSess hLimit ?_
    unfold CallHolds at hHeld
    rw [hAwaited] at hHeld
    have hProg :
        Progress o { endpoint with
          localKey := o.identityKey, call } := by
      unfold Progress
      simp only [hHeld.1]
      exact ⟨hHeld.2, trivial⟩
    rcases hCall with rfl | rfl
    · exact ⟨hHeld.1, hProg⟩
    · exact ⟨hHeld.1, hProg⟩
  · exact hHold.settled hOpen call o.identityKey (Or.inr rfl)

theorem EndpointHolds.verified {args : VerifySignatureArgs}
  (hAwaited : endpoint.call = .verifySignature args)
  (hVerifies : o.verifySignature args = some true) (hOpen : endpoint.settled = none) :
  EndpointHolds o ({ endpoint with
      link := endpoint.link.setMaxMessageBytes o.cap
      expecting := .ready }.send .ready .sendReady) := by
  rcases hHold.unsettled hOpen with ⟨hSess, hLimit, hHeld⟩
  unfold CallHolds at hHeld
  rw [hAwaited] at hHeld
  rcases hHeld with ⟨hExpecting, rawHello, hello, rawAuth, text, signature,
    hArrived, hHeard, hMsg, hText, hArgs⟩
  apply endpointHolds_send
  · exact hOpen
  · exact hSess
  · unfold Endpoint.inboxLimit at hLimit ⊢
    rw [hExpecting, if_neg nofun] at hLimit
    rw [if_pos rfl]
    exact Nat.le_trans hLimit (by decide : MAX_INBOX_BEFORE_READY ≤ MAX_INBOX_AFTER_READY)
  · refine ⟨rfl, rawHello, hello, rawAuth, hArrived, ?_, ?_⟩
    · exact ⟨hHeard.greeted, hHeard.peer, hHeard.key, hHeard.remote⟩
    · refine ⟨text, signature, hMsg, hText, ?_⟩
      rw [← hVerifies, hArgs]
      rfl

theorem EndpointHolds.answer {answer : CallAnswer}
  (hStep : endpoint.answer o answer = some next) : EndpointHolds o next := by
  unfold Endpoint.answer at hStep
  split at hStep
  case h_1 hAwaited =>
    rw [← Option.some.inj hStep]
    apply hHold.identityKey hAwaited
    cases o.startAfter with
    | true => exact .inl rfl
    | false => exact .inr rfl
  case h_2 =>
    rw [← Option.some.inj hStep]
    exact hHold.throwing _
  case h_3 hAwaited =>
    split at hStep
    · rename_i hSettle
      rw [← Option.some.inj hStep]
      exact hHold.returned hSettle
    · rename_i hUnsettled
      have hOpen := isSome_eq_false hUnsettled
      rcases hHold.unsettled hOpen with ⟨hSess, hLimit, hHeld⟩
      rw [← Option.some.inj hStep]
      unfold CallHolds at hHeld
      rw [hAwaited] at hHeld
      exact endpointHolds_of_unsettled hOpen hSess hLimit ⟨hHeld.1, hHeld.2.awaiting _ _⟩
  case h_4 hAwaited =>
    split at hStep
    · rename_i hSettle
      rw [← Option.some.inj hStep]
      exact hHold.returned hSettle
    · rename_i hUnsettled
      have hOpen := isSome_eq_false hUnsettled
      rcases hHold.unsettled hOpen with ⟨hSess, hLimit, hHeld⟩
      rw [← Option.some.inj hStep]
      unfold CallHolds at hHeld
      rw [hAwaited] at hHeld
      exact endpointHolds_send hOpen hSess hLimit _ _ ⟨hHeld.1, hHeld.2.awaiting _ _⟩
  case h_5 args signature hAwaited =>
    split at hStep
    · rename_i hSettle
      rw [← Option.some.inj hStep]
      exact hHold.returned hSettle
    · rename_i hUnsettled
      have hOpen := isSome_eq_false hUnsettled
      rcases hHold.unsettled hOpen with ⟨hSess, hLimit, hHeld⟩
      rw [← Option.some.inj hStep]
      unfold CallHolds at hHeld
      rw [hAwaited] at hHeld
      exact endpointHolds_send hOpen hSess hLimit _ _ ⟨hHeld.1, hHeld.2.awaiting _ _⟩
  case h_6 =>
    rw [← Option.some.inj hStep]
    exact hHold.throwing _
  case h_7 args hAwaited =>
    split at hStep
    · rw [← Option.some.inj hStep]
      exact hHold.throwing _
    rename_i hVerifies
    split at hStep
    · rename_i hSettle
      rw [← Option.some.inj hStep]
      exact hHold.returned hSettle
    · rename_i hUnsettled
      rw [← Option.some.inj hStep]
      exact hHold.verified hAwaited (not_not.mp hVerifies) (isSome_eq_false hUnsettled)
  case h_8 =>
    rw [← Option.some.inj hStep]
    exact hHold.throwing _
  case h_9 hAwaited =>
    rw [← Option.some.inj hStep]
    apply hHold.advance
    intro hHeld
    unfold CallHolds at hHeld
    rw [hAwaited] at hHeld
    exact hHeld.2.awaiting _ _
  case h_10 hAwaited =>
    rw [← Option.some.inj hStep]
    apply hHold.advance
    intro hHeld
    unfold CallHolds at hHeld
    rw [hAwaited] at hHeld
    exact hHeld.2.awaiting _ _
  case h_11 hAwaited =>
    rw [← Option.some.inj hStep]
    apply hHold.advance
    intro hHeld
    unfold CallHolds at hHeld
    rw [hAwaited] at hHeld
    exact hHeld.2.awaiting _ _
  case h_17 => cases hStep
  all_goals
    rw [← Option.some.inj hStep]
    exact hHold.throwing _

end

-- Runs

section

variable (hHold : EndpointHolds o endpoint)

include hHold

theorem EndpointHolds.fail (error : HandshakeError) : EndpointHolds o (endpoint.fail error) := by
  by_cases hOpen : endpoint.settled = none
  · exact endpointHolds_fail hOpen (hHold.unsettled hOpen).1 error
  · have hSame : endpoint.fail error = endpoint := by
      unfold Endpoint.fail
      exact if_pos (isSome_iff_ne_none.mpr hOpen)
    rw [hSame]
    exact hHold

theorem EndpointHolds.resume (hStep : endpoint.resume o = some next) : EndpointHolds o next := by
  unfold Endpoint.resume at hStep
  split at hStep
  · rename_i hAwaited
    rw [← Option.some.inj hStep]
    apply endpointHolds_pump
    apply hHold.advance
    intro hHeld
    unfold CallHolds at hHeld
    rw [hAwaited] at hHeld
    exact Progress.awaiting hHeld _ _
  · rw [← Option.some.inj hStep]
    exact hHold.fail _
  · cases hStep

theorem EndpointHolds.closeLink (hSettle : endpoint.settled.isSome = true) :
  EndpointHolds o { endpoint with link := endpoint.link.close } := by
  unfold EndpointHolds at hHold ⊢
  cases hCase : endpoint.settled with
  | none =>
    rw [hCase] at hSettle
    cases hSettle
  | some settlement =>
    rw [hCase] at hHold
    cases settlement with
    | rejected error => exact hHold
    | resolved =>
      rcases hHold with
        ⟨session, hello, rawHello, rawAuth, rawReady, pending, later, hSess, hAuth⟩
      exact ⟨session, hello, rawHello, rawAuth, rawReady, pending, later, hSess,
        ⟨hAuth.arrived, hAuth.key, hAuth.greeted,
          hAuth.transcript, hAuth.signed, hAuth.ready,
          hAuth.peerKey, hAuth.localKey, hAuth.delivery⟩⟩

theorem EndpointHolds.close (hStep : endpoint.close = some next) : EndpointHolds o next := by
  unfold Endpoint.close at hStep
  split at hStep
  · rename_i hSettle
    rw [← Option.some.inj hStep]
    exact hHold.closeLink hSettle
  · rw [← Option.some.inj hStep]
    exact hHold.fail _

theorem EndpointHolds.timeout (hStep : endpoint.timeout = some next) : EndpointHolds o next := by
  unfold Endpoint.timeout at hStep
  split at hStep
  · rw [← Option.some.inj hStep]
    exact hHold.fail _
  · cases hStep

theorem EndpointHolds.onSession {change : AuthenticatedPeer → Option AuthenticatedPeer}
  (hChange : ∀ session changed pending later,
      change session = some changed → SessionHolds o.isPoint session pending later →
          SessionHolds o.isPoint changed pending later ∧
            changed.localIdentityKey = session.localIdentityKey ∧
            changed.peerIdentityKey = session.peerIdentityKey)
  (hStep : endpoint.onSession change = some next) : EndpointHolds o next := by
  unfold Endpoint.onSession at hStep
  rcases bind_eq_some_iff.mp hStep with ⟨session, hSess, hRest⟩
  rcases bind_eq_some_iff.mp hRest with ⟨changed, hChanged, hNext⟩
  rcases hHold.authenticated hSess with
    ⟨hRes, hello, rawHello, rawAuth, rawReady, pending, later, hAuth⟩
  rcases hChange session changed pending later hChanged hAuth.delivery with
    ⟨hDeliv, hLocal, hPeer⟩
  rw [← Option.some.inj hNext]
  unfold EndpointHolds
  rw [hRes]
  exact ⟨changed, hello, rawHello, rawAuth, rawReady, pending, later, rfl,
    ⟨hAuth.arrived, hAuth.key,
      hAuth.greeted, hAuth.transcript,
      hAuth.signed, hAuth.ready, hPeer.trans hAuth.peerKey,
      hLocal.trans hAuth.localKey, hDeliv⟩⟩

end

section

variable (hProg : Progress o endpoint) (hNone : endpoint.link.remoteDescription = none)

include hProg hNone

/- Without the answer no hello has been handled. -/
theorem Progress.expecting_hello : endpoint.expecting = .hello := by
  unfold Progress at hProg
  cases hExpecting : endpoint.expecting with
  | hello => rfl
  | auth =>
    rw [hExpecting] at hProg
    rcases hProg with ⟨rawHello, hello, -, hHeard⟩
    have hRemote := hHeard.remote
    rw [hNone] at hRemote
    cases hRemote
  | ready =>
    rw [hExpecting] at hProg
    rcases hProg with ⟨rawHello, hello, rawAuth, -, hHeard, -⟩
    have hRemote := hHeard.remote
    rw [hNone] at hRemote
    cases hRemote

theorem Progress.withLink
  (link : PeerLink) (call : AwaitedCall) : Progress o { endpoint with link, call } := by
  have hExpecting := hProg.expecting_hello hNone
  unfold Progress at hProg ⊢
  simp only [hExpecting] at hProg ⊢
  exact hProg

end

theorem CallHolds.withLink
  (hHeld : CallHolds o endpoint) (hNone : endpoint.link.remoteDescription = none)
  (link : PeerLink) : CallHolds o { endpoint with link } := by
  unfold CallHolds at hHeld ⊢
  cases hAwaited : endpoint.call with
  | idle =>
    rw [hAwaited] at hHeld
    exact Progress.withLink hHeld hNone link _
  | returned =>
    rw [hAwaited] at hHeld
    exact Progress.withLink hHeld hNone link _
  | threw error => trivial
  | getPublicKey =>
    rw [hAwaited] at hHeld
    exact hHeld
  | verifySignature args =>
    rw [hAwaited] at hHeld
    rcases hHeld with ⟨-, rawHello, hello, rawAuth, text, signature, -, hHeard, -⟩
    have hRemote := hHeard.remote
    rw [hNone] at hRemote
    cases hRemote
  | _ =>
    rw [hAwaited] at hHeld
    exact ⟨hHeld.1, hHeld.2.withLink hNone link _⟩

theorem EndpointHolds.acceptAnswer
  (hHold : EndpointHolds o endpoint) {fingerprints : List JsText} {link : PeerLink}
  (hLink : endpoint.link.acceptAnswer fingerprints = some link) :
  EndpointHolds o { endpoint with link } := by
  have hNone : endpoint.link.remoteDescription = none := by
    unfold PeerLink.acceptAnswer at hLink
    split at hLink
    · cases hLink
    · rename_i hOnce
      rw [not_or, isSome_iff_ne_none, not_not] at hOnce
      exact hOnce.2
  by_cases hOpen : endpoint.settled = none
  · rcases hHold.unsettled hOpen with ⟨hSess, hLimit, hHeld⟩
    exact endpointHolds_of_unsettled hOpen hSess hLimit (hHeld.withLink hNone link)
  cases hSess : endpoint.session with
  | none =>
    rcases ne_none_iff_exists'.mp hOpen with ⟨settlement, hSettle⟩
    cases settlement with
    | rejected error => exact endpointHolds_of_rejected hSettle rfl
    | resolved =>
      unfold EndpointHolds at hHold
      rw [hSettle] at hHold
      rcases hHold with ⟨session, _, _, _, _, _, _, hSome, -⟩
      rw [hSess] at hSome
      cases hSome
  | some session =>
    rcases hHold.authenticated hSess with
      ⟨-, hello, rawHello, rawAuth, rawReady, pending, later, hAuth⟩
    have hOne : requireOneFingerprint endpoint.link.remoteFingerprints = true :=
      hAuth.transcript.signerFingerprints
    unfold PeerLink.remoteFingerprints at hOne
    rw [hNone] at hOne
    cases hOne

theorem EndpointHolds.step (hHold : EndpointHolds o endpoint) {event : HandshakeEvent}
  (hStep : endpoint.step o event = some next) : EndpointHolds o next := by
  cases event with
  | message raw => exact hHold.message hStep
  | acceptAnswer fingerprints =>
    rcases map_eq_some_iff.mp hStep with ⟨link, hLink, hNext⟩
    rw [← hNext]
    exact hHold.acceptAnswer hLink
  | answer answer => exact hHold.answer hStep
  | resume => exact hHold.resume hStep
  | timeout => exact hHold.timeout hStep
  | close => exact hHold.close hStep
  | onMessage listener =>
    apply hHold.onSession _ hStep
    intro session changed pending later hChanged hDeliv
    rw [← Option.some.inj hChanged]
    exact ⟨hDeliv.of_same hDeliv.kept rfl rfl, rfl, rfl⟩
  | offMessage listener =>
    apply hHold.onSession _ hStep
    intro session changed pending later hChanged hDeliv
    rw [← Option.some.inj hChanged]
    exact ⟨hDeliv.of_same hDeliv.kept rfl rfl, rfl, rfl⟩
  | release =>
    apply hHold.onSession _ hStep
    intro session changed pending later hChanged hDeliv
    exact ⟨hDeliv.release hChanged, release_keys hChanged⟩
  | handOver =>
    apply hHold.onSession _ hStep
    intro session changed pending later hChanged hDeliv
    exact ⟨hDeliv.handOver hChanged, handOver_keys hChanged⟩

theorem endpointHolds_run {link : PeerLink} (events : List HandshakeEvent)
  (hRun : events.foldlM (Endpoint.step o) (Endpoint.begin o link) = some endpoint) :
  EndpointHolds o endpoint :=
  EventRun.inv_of_run (fun _ _ _ hHold hStep => hHold.step hStep)
    events (endpointHolds_begin o link) hRun

/- What the listeners of a side were given. -/
def Endpoint.delivered (endpoint : Endpoint) : List WireMessage :=
  match endpoint.session with
  | none => []
  | some session => session.emitted.map Prod.fst

/-
  A session resolves only after a hello of the identity that is expected, a signature that
  verifies over this session's transcript and a ready.  The transcript determines both hellos,
  both fingerprints and the roles.  Before that nothing is delivered.  Of the messages after the
  ready, those that are pending at the hand-over are taken in order, up to one that the session
  refuses, and all the later ones too as long as the session has not failed.
-/
theorem session_authenticated
  (o : AuthenticateOptions) (link : PeerLink) (events : List HandshakeEvent) {endpoint : Endpoint}
  (hRun : events.foldlM (Endpoint.step o) (Endpoint.begin o link) = some endpoint) :
  (∀ a b : BindingTranscriptInput,
    a.Valid o.isPoint → b.Valid o.isPoint → bindingTranscript a = bindingTranscript b → a = b) ∧
  (endpoint.settled ≠ some .resolved → endpoint.session = none ∧ endpoint.delivered = []) ∧
  (endpoint.settled = some .resolved → ∃ session hello rawHello rawAuth rawReady pending later,
      endpoint.session = some session ∧ Authenticated o endpoint session hello rawHello
          rawAuth rawReady pending later ∧
        (session.backlog = none → session.handing = [] →
          endpoint.delivered = session.taken)) := by
  have hHolds := endpointHolds_run events hRun
  constructor
  · intro a b hA hB hBytes
    exact bindingTranscript_injective hA hB hBytes
  constructor
  · intro hNot
    have hNone := hHolds.session_eq_none hNot
    refine ⟨hNone, ?_⟩
    unfold Endpoint.delivered
    rw [hNone]
  · intro hResolved
    unfold EndpointHolds at hHolds
    rw [hResolved] at hHolds
    rcases hHolds with
      ⟨session, hello, rawHello, rawAuth, rawReady, pending, later, hSession, hAuthenticated⟩
    refine ⟨session, hello, rawHello, rawAuth, rawReady, pending,
        later, hSession, hAuthenticated, ?_⟩
    intro hBacklog hHanding
    unfold Endpoint.delivered AuthenticatedPeer.taken
    rw [hSession, hBacklog, hHanding]
    simp only [Option.getD_none, List.append_nil]

-- A Bye Right After the Ready

namespace ExampleHandshake

def localIdentity : JsText := Json.text
  "02c6047f9441ed7d6d3045406e95c07cd85c778e4b8cef3ca7abac09b95c709ee5"

def peerIdentity : JsText := Json.text
  "02f9308a019258c31049344f85f89d5229b531c845836f99b08601f113bce036f9"

def isPoint (key : JsText) : Bool :=
  [localIdentity, peerIdentity].contains key

def peerNonce : JsText := toBase64 (List.replicate 32 1)

def localFingerprint : JsText := Json.text
  "sha-256 00112233445566778899aabbccddeeff00112233445566778899aabbccddeeff"

def peerFingerprint : JsText := Json.text
  "sha-256 ffeeddccbbaa99887766554433221100ffeeddccbbaa99887766554433221100"

def link : PeerLink := {
  localFingerprints := [localFingerprint]
  remoteDescription := some [peerFingerprint]
  maxMessageBytes := maxMessageBytes
  closed := false
  localOne := by decide +kernel
  remoteOne := PeerLink.requireOneFingerprint_of_some (by decide +kernel) }

def signature : List UInt8 := [48, 6, 2, 1, 1, 2, 1, 1]

def signedArgs : VerifySignatureArgs := {
  data := bindingTranscript {
    signerFingerprints := [peerFingerprint]
    verifierFingerprints := [localFingerprint]
    signerNonce := peerNonce
    verifierNonce := toBase64 (List.replicate 32 0)
    signerKey := peerIdentity
    verifierKey := localIdentity }
  signature
  keyID := peerNonce
  counterparty := peerIdentity }

def options : AuthenticateOptions := {
  isPoint
  identityKey := localIdentity
  identityKey_valid := by decide +kernel
  verifySignature := fun args => some (decide (args = signedArgs))
  random := List.replicate 32 0
  random_length := List.length_replicate
  expectedPeer := some peerIdentity
  startAfter := false
  cap := maxMessageBytes }

def record (type : String) (more : List (JsText × Json)) :
  Json :=
  .object ((Json.text "t", .string (Json.text type)) :: more)

def helloJson : Json :=
  record "hello" [(Json.text "v", .number 1), (Json.text "identityKey", .string peerIdentity),
    (Json.text "nonce", .string peerNonce)]

def authJson : Json :=
  record "auth" [(Json.text "signature", .string (toHex signature))]

/- The handshake, up to this side's ready being sent. -/
def opening : List HandshakeEvent :=
  [.answer .done, .answer .done, .answer .done, .resume,
    .message helloJson, .answer (.signature signature),
    .answer .done, .resume, .message authJson, .answer .done]

/- The peer's ready and more, before the hand-over. -/
def events (pending : List Json) : List HandshakeEvent :=
  opening ++ (record "ready" [] :: pending).map .message ++
    [.answer .done, .resume, .onMessage 1, .release]

end ExampleHandshake

open ExampleHandshake

theorem session_authenticated_bye :
  ∃ endpoint, (events [record "bye" []] ++ [HandshakeEvent.handOver]).foldlM
          (Endpoint.step options) (Endpoint.begin options link) =
        some endpoint ∧
      endpoint.delivered.map WireMessage.name = ["bye"] ∧
      ∃ session hello rawHello rawAuth rawReady pending later,
        endpoint.session = some session ∧ Authenticated options endpoint session hello
            rawHello rawAuth rawReady pending later := by
  have hRuns :
      ((events [record "bye" []] ++ [HandshakeEvent.handOver]).foldlM (Endpoint.step options)
          (Endpoint.begin options link)).map
        (fun endpoint => (endpoint.settled, endpoint.delivered.map WireMessage.name)) =
        some (some .resolved, ["bye"]) := by
    decide +kernel
  rcases Option.map_eq_some_iff.mp hRuns with ⟨endpoint, hRun, hState⟩
  rcases Prod.mk.inj hState with ⟨hResolved, hDelivered⟩
  rcases (session_authenticated options link _ hRun).2.2 hResolved with
    ⟨session, hello, rawHello, rawAuth, rawReady, pending, later, hSession, hAuthenticated, -⟩
  exact ⟨endpoint, hRun, hDelivered, session, hello, rawHello,
      rawAuth, rawReady, pending, later, hSession, hAuthenticated⟩

theorem bye_not_delivered :
  (applicationMessage isPoint (record "bye" [])).isSome = true ∧
    ∃ endpoint session, (events [record "unknown" [], record "bye" []]).foldlM
            (Endpoint.step options) (Endpoint.begin options link) =
          some endpoint ∧
        endpoint.session = some session ∧ session.listeners = [1] ∧ session.failed = true ∧
        session.backlog.isSome = false ∧ session.taken.length = 0 ∧
        endpoint.delivered.length = 0 := by
  constructor
  · decide +kernel
  have hRuns : ((events [record "unknown" [], record "bye" []]).foldlM (Endpoint.step options)
          (Endpoint.begin options link)).bind
        (fun endpoint => endpoint.session.map fun session =>
          (session.listeners, session.failed, session.backlog.isSome, session.taken.length,
            endpoint.delivered.length)) =
        some ([1], true, false, 0, 0) := by
    decide +kernel
  rcases Option.bind_eq_some_iff.mp hRuns with ⟨endpoint, hRun, hRest⟩
  rcases Option.map_eq_some_iff.mp hRest with ⟨session, hSession, hState⟩
  simp only [Prod.mk.injEq] at hState
  exact ⟨endpoint, session, hRun, hSession, hState⟩

end TsStack.WebRtPay
