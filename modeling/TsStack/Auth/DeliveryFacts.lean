import TsStack.Auth.PeerInvariant

/-
  What is known of the messages that a peer has claimed.

  A session that has an identity key keeps having one, and a
  session that was indexed under another nonce keeps that
  name; so an update that finds a session by a nonce changes
  the session of the nonce, or one that no message is for.
  A claimed message is carried by one task until it is
  delivered.
-/

-- Facts

open List

namespace TsStack.Auth

structure DeliveryView where
  policy : RequestedCertificateSet
  objects : JsText → Option PeerSession
  created : List JsText
  validated : List JsText
  signatures : List Signature

def Peer.deliveryView (peer : Peer) : DeliveryView where
  policy := peer.certificatesToRequest
  objects := peer.sessionManager.objects
  created := peer.history.created
  validated := peer.history.validated
  signatures := peer.history.signatures

namespace DeliveryView

def identity (view : DeliveryView) (session : JsText) : Option JsText :=
  (view.objects session).bind (·.peerIdentityKey)

theorem identity_of_objects {view : DeliveryView} {session : JsText} {object : PeerSession}
  (hObj : view.objects session = some object) : view.identity session = object.peerIdentityKey := by
  unfold identity
  rw [hObj]
  rfl

def Named (isPoint : JsText → Bool) (view : DeliveryView) (session : JsText) : Prop :=
  ∃ identityKey, view.identity session = some identityKey ∧
      assertAuthIdentityKey isPoint identityKey = true

def Released (view : DeliveryView) (session : JsText) : Prop :=
  view.policy.certifiers ≠ [] → session ∈ view.validated

structure Extends (isPoint : JsText → Bool) (before after : DeliveryView) : Prop where
  policy : after.policy = before.policy
  objects :
    ∀ {session}, (before.objects session).isSome = true → (after.objects session).isSome = true
  named : ∀ {session}, before.Named isPoint session → after.Named isPoint session
  indexed : ∀ {session nonce}, before.identity session = some nonce →
      nonce ∈ before.created → after.identity session = some nonce
  nameless : ∀ {session}, (before.objects session).isSome = true →
      before.identity session = none → after.identity session = none ∨ after.Named isPoint session
  created : ∀ {nonce}, nonce ∈ before.created → nonce ∈ after.created
  validated : ∀ {session}, session ∈ before.validated → session ∈ after.validated
  signatures : ∀ {signature}, signature ∈ before.signatures → signature ∈ after.signatures

structure ObjectHolds (view : DeliveryView) (session : JsText) (object : PeerSession) : Prop where
  created : session ∈ view.created
  policy : object.certificatePolicy = view.policy
  required : object.certificatesRequired = decide (view.policy.certifiers ≠ [])
  validated : object.certificatesRequired = true →
      object.certificatesValidated = true → session ∈ view.validated ∨
          ∃ nonce, object.peerIdentityKey = some nonce ∧ nonce ∈ view.validated

structure Holds (isPoint : JsText → Bool) (view : DeliveryView) : Prop where
  objects : ∀ {session object}, view.objects session = some object → view.ObjectHolds session object
  created : ∀ {nonce}, nonce ∈ view.created → assertCanonicalBase64 nonce 48 = true
  validated :
    ∀ {session}, session ∈ view.validated → session ∈ view.created ∧ view.Named isPoint session
  signatures :
    ∀ {signature}, signature ∈ view.signatures → signature.messageType = .initialResponse →
        assertCanonicalBase64 signature.nonce 48 = true

end DeliveryView

def SignedBySender (view : DeliveryView) (message : AuthMessage) (session : JsText) : Prop :=
  ∃ signature ∈ view.signatures, signature.signer = message.identityKey ∧
      signature.keyID = signingKeyID session message ∧ signature.data = signedData session message

structure Vouched (isPoint : JsText → Bool) (view : DeliveryView) (message : AuthMessage)
  (session : JsText) : Prop where
  valid : assertValidAuthMessage isPoint message = true
  general : message.messageType = .general
  object : (view.objects session).isSome = true
  named : view.Named isPoint session
  signed : SignedBySender view message session

structure Addressed (isPoint : JsText → Bool) (view : DeliveryView) (message : AuthMessage)
  (session : JsText) : Prop where
  valid : assertValidAuthMessage isPoint message = true
  object : (view.objects session).isSome = true
  response : view.identity session = none ∨ view.Named isPoint session
  other : message.messageType ≠ .initialResponse → view.Named isPoint session

def FoundBy
  (view : DeliveryView) (session : JsText) (change : SessionChange) (found : JsText) : Prop :=
  change.presented.isSome = true → found = session ∨
      view.identity found = some session ∧ session ∈ view.created

/- What is known when a change has been made. -/
structure OutcomeHolds (view : DeliveryView) (session : JsText) (change : SessionChange)
  (validated : Bool) : Prop where
  released : change.presented.isSome = true → validated = true → view.Released session
  initial : ∀ message, change = .validateInitial message → validated = true

def DeliveryPhase (view : DeliveryView) (session : JsText) (change : SessionChange) : Phase → Prop
| .queued => True
| .held found => FoundBy view session change found
| .validating found _ _ matchesHandshake =>
  FoundBy view session change found ∧ ∀ message, change = .validateInitial message →
      matchesHandshake = true
| .changed _ validated => OutcomeHolds view session change validated
| .updated validated => OutcomeHolds view session change validated

def DeliveryNext (isPoint : JsText → Bool) (view : DeliveryView) (session : JsText)
  (change : SessionChange) : Continuation → Prop
| .initial message other => other = session ∧ change = .validateInitial message
| .request _ => True
| .response _ other => (view.objects other).isSome = true ∧ view.Named isPoint other
| .matched other => other = session ∧ change.presented.isSome = true
| .general message other => Vouched isPoint view message other
| .send _ _ _ _ => True
| .giveUp => True

def DeliveryStage (isPoint : JsText → Bool) (view : DeliveryView) : Stage → Prop
| .nonceCheck message => assertValidAuthMessage isPoint message = true
| .lookup message _ => assertValidAuthMessage isPoint message = true
| .verifying message session => Addressed isPoint view message session
| .claimed message session =>
  Addressed isPoint view message session ∧ SignedBySender view message session
| .accepted _ session => (view.objects session).isSome = true ∧ view.Named isPoint session
| .updating session change phase next =>
  (change.presented.isSome = true →
    (view.objects session).isSome = true ∧ view.Named isPoint session) ∧
    DeliveryPhase view session change phase ∧ DeliveryNext isPoint view session change next
| .current message session found =>
  Vouched isPoint view message session ∧ (found = session ∨ view.identity found = some session)
| .awaitingCertificates message session released =>
  Vouched isPoint view message session ∧ (released = true → view.Released session)
| _ => True

def carried : Stage → Option (JsText × JsText)
| .claimed message session =>
  if message.messageType = .general then some (session, messageNonce message)
  else none
| .updating _ _ _ (.general message session) => some (session, messageNonce message)
| .current message session _ => some (session, messageNonce message)
| .awaitingCertificates message session _ => some (session, messageNonce message)
| _ => none

def Delivered.claim (delivered : Delivered) :
  JsText × JsText :=
  (delivered.session, delivered.nonce)

def claimsInUse (peer : Peer) : List (JsText × JsText) :=
  peer.history.delivered.map Delivered.claim ++ peer.tasks.filterMap carried

structure DeliveredHolds (view : DeliveryView) (delivered : Delivered) : Prop where
  nonce : assertCanonicalBase64 delivered.nonce 32 = true
  released : view.Released delivered.session
  signed : ∃ signature ∈ view.signatures, signature.signer = delivered.sender ∧ signature.keyID =
          keyID delivered.nonce delivered.session ∧
        signature.data = delivered.payload

def ClaimsKept (peer : Peer) : Prop :=
  ∀ claim ∈ peer.history.claimed, claim.1 ∈ peer.history.created ∧
      (claim.1 ∈ peer.sessionManager.sessionNonces → claim.2 ∈
          peer.sessionManager.consumedMessageNonces claim.1)

structure DeliveryHolds (isPoint : JsText → Bool) (peer : Peer) : Prop where
  indexed : peer.sessionManager.Indexed
  view : peer.deliveryView.Holds isPoint
  stages : ∀ stage ∈ peer.tasks, DeliveryStage isPoint peer.deliveryView stage
  delivered : ∀ delivered ∈ peer.history.delivered, DeliveredHolds peer.deliveryView delivered
  kept : ClaimsKept peer
  once : (claimsInUse peer).Nodup
  claimed : ∀ claim ∈ claimsInUse peer, claim ∈ peer.history.claimed

-- Growth

variable {isPoint : JsText → Bool} {before after : DeliveryView}

theorem DeliveryView.Extends.refl (isPoint : JsText → Bool) (view : DeliveryView) :
  view.Extends isPoint view where
  policy := rfl
  objects := id
  named := id
  indexed := fun hIdent _ => hIdent
  nameless := fun _ => .inl
  created := id
  validated := id
  signatures := id

variable {session : JsText}

theorem DeliveryView.Released.extends
  (hReleased : before.Released session) (hExt : before.Extends isPoint after) :
  after.Released session := by
  intro hReq
  rw [hExt.policy] at hReq
  exact hExt.validated (hReleased hReq)

variable {message : AuthMessage}

theorem SignedBySender.extends
  (hSigned : SignedBySender before message session) (hExt : before.Extends isPoint after) :
  SignedBySender after message session := by
  rcases hSigned with ⟨signature, hMem, hSame⟩
  exact ⟨signature, hExt.signatures hMem, hSame⟩

theorem Vouched.extends
  (hVouched : Vouched isPoint before message session) (hExt : before.Extends isPoint after) :
  Vouched isPoint after message session where
  valid := hVouched.valid
  general := hVouched.general
  object := hExt.objects hVouched.object
  named := hExt.named hVouched.named
  signed := hVouched.signed.extends hExt

theorem Addressed.extends (hAddressed : Addressed isPoint before message session)
  (hExt : before.Extends isPoint after) : Addressed isPoint after message session where
  valid := hAddressed.valid
  object := hExt.objects hAddressed.object
  response := by
    rcases hAddressed.response with hNone | hNamed
    · exact hExt.nameless hAddressed.object hNone
    · exact .inr (hExt.named hNamed)
  other := fun hType => hExt.named (hAddressed.other hType)

variable {change : SessionChange}

theorem FoundBy.extends {found : JsText} (hFound : FoundBy before session change found)
  (hExt : before.Extends isPoint after) : FoundBy after session change found := by
  intro hPresented
  rcases hFound hPresented with hSame | ⟨hIdent, hCreated⟩
  · exact .inl hSame
  · exact .inr ⟨hExt.indexed hIdent hCreated, hExt.created hCreated⟩

theorem OutcomeHolds.extends
  {validated : Bool} (hOut : OutcomeHolds before session change validated)
  (hExt : before.Extends isPoint after) : OutcomeHolds after session change validated where
  released := fun hPresented hTrue => (hOut.released hPresented hTrue).extends hExt
  initial := hOut.initial

theorem DeliveryPhase.extends {phase : Phase} (hPhase : DeliveryPhase before session change phase)
  (hExt : before.Extends isPoint after) : DeliveryPhase after session change phase := by
  cases phase with
  | queued => trivial
  | held found => exact FoundBy.extends hPhase hExt
  | validating found requested policy matchesHandshake =>
    exact ⟨hPhase.1.extends hExt, hPhase.2⟩
  | changed found validated => exact OutcomeHolds.extends hPhase hExt
  | updated validated => exact OutcomeHolds.extends hPhase hExt

theorem DeliveryNext.extends
  {next : Continuation} (hNext : DeliveryNext isPoint before session change next)
  (hExt : before.Extends isPoint after) : DeliveryNext isPoint after session change next := by
  cases next with
  | initial message other => exact hNext
  | request message => trivial
  | response message other => exact ⟨hExt.objects hNext.1, hExt.named hNext.2⟩
  | matched other => exact hNext
  | general message other => exact Vouched.extends hNext hExt
  | send call other counterparty message => trivial
  | giveUp => trivial

variable {stage : Stage}

theorem DeliveryStage.extends
  (hNonces : ∀ {session}, (before.objects session).isSome = true → session ∈ before.created)
  (hStage : DeliveryStage isPoint before stage) (hExt : before.Extends isPoint after) :
  DeliveryStage isPoint after stage := by
  cases stage with
  | nonceCheck message => exact hStage
  | lookup message found => exact hStage
  | verifying message session => exact Addressed.extends hStage hExt
  | claimed message session => exact ⟨hStage.1.extends hExt, hStage.2.extends hExt⟩
  | accepted message session => exact ⟨hExt.objects hStage.1, hExt.named hStage.2⟩
  | updating session change phase next =>
    rcases hStage with ⟨hSess, hPhase, hNext⟩
    refine ⟨?_, hPhase.extends hExt, hNext.extends hExt⟩
    intro hPresented
    exact ⟨hExt.objects (hSess hPresented).1, hExt.named (hSess hPresented).2⟩
  | current message session found =>
    refine ⟨Vouched.extends hStage.1 hExt, ?_⟩
    exact hStage.2.imp id fun hIdent => hExt.indexed hIdent (hNonces hStage.1.object)
  | awaitingCertificates message session released =>
    exact ⟨Vouched.extends hStage.1 hExt, fun hTrue => (hStage.2 hTrue).extends hExt⟩
  | _ => trivial

theorem DeliveredHolds.extends {delivered : Delivered} (hDeliv : DeliveredHolds before delivered)
  (hExt : before.Extends isPoint after) : DeliveredHolds after delivered where
  nonce := hDeliv.nonce
  released := hDeliv.released.extends hExt
  signed := by
    rcases hDeliv.signed with ⟨signature, hMem, hSame⟩
    exact ⟨signature, hExt.signatures hMem, hSame⟩

/-
  A session that was found for the session of a message is
  validated only by certificates for that session.
-/
theorem released_of_found
  {view : DeliveryView} (hHold : view.Holds isPoint) {found : JsText} {object : PeerSession}
  (hSess : (view.objects session).isSome = true) (hNamed : view.Named isPoint session)
  (hFound : found = session ∨ view.identity found = some session)
  (hObj : view.objects found = some object)
  (hReady : object.certificatesRequired = true → object.certificatesValidated = true) :
  view.Released session := by
  have hKnown := hHold.objects hObj
  have hIdent : view.identity found = object.peerIdentityKey := by
    unfold DeliveryView.identity
    rw [hObj]
    rfl
  intro hReq
  have hTrue : object.certificatesRequired = true := by
    rw [hKnown.required]
    exact decide_eq_true hReq
  rcases hKnown.validated hTrue (hReady hTrue) with hOwn | ⟨nonce, hNonce, hOther⟩
  · rcases hFound with rfl | hIdx
    · exact hOwn
    · rcases (hHold.validated hOwn).2 with ⟨identityKey, hHas, hValid⟩
      rw [hIdx] at hHas
      rcases Option.isSome_iff_exists.mp hSess with ⟨other, hOther⟩
      exact absurd (Option.some.inj hHas).symm (ne_of_identityKey hValid
        (hHold.created (hHold.objects hOther).created))
  · rw [← hIdent] at hNonce
    rcases hFound with rfl | hIdx
    · rcases hNamed with ⟨identityKey, hHas, hValid⟩
      rw [hNonce] at hHas
      exact absurd (Option.some.inj hHas).symm (ne_of_identityKey hValid
        (hHold.created (hHold.validated hOther).1))
    · rw [hNonce] at hIdx
      rw [← Option.some.inj hIdx]
      exact hOther

variable {old : Stage}

theorem carried_set_sublist
  {tasks : List Stage} {task : Nat} {new : Stage} (hTask : tasks[task]? = some old)
  (hCarry : carried new = none ∨ carried new = carried old) :
  ((tasks.set task new).filterMap carried).Sublist (tasks.filterMap carried) := by
  induction tasks generalizing task with
  | nil => cases hTask
  | cons first rest ih =>
    cases task with
    | zero =>
      rw [getElem?_cons_zero] at hTask
      rw [Option.some.inj hTask]
      rw [set_cons_zero]
      rcases hCarry with hNone | hSame
      · rw [filterMap_cons_none hNone]
        exact (sublist_cons_self old rest).filterMap _
      · rw [filterMap_cons, filterMap_cons, hSame]
    | succ task =>
      rw [getElem?_cons_succ] at hTask
      rw [set_cons_succ, filterMap_cons, filterMap_cons]
      split
      · exact ih hTask
      · exact (ih hTask).cons_cons _

-- Quiet steps

variable {peer : Peer} {task : Nat}

theorem DeliveryHolds.nonces (hHold : DeliveryHolds isPoint peer)
  (hObj : (peer.deliveryView.objects session).isSome = true) :
  session ∈ peer.deliveryView.created := by
  rcases Option.isSome_iff_exists.mp hObj with ⟨object, hObj⟩
  exact (hHold.view.objects hObj).created

variable {next : Peer}

theorem ClaimsKept.letsGo
  (hKept : ClaimsKept peer) (hGone : peer.sessionManager.LetsGo next.sessionManager)
  (hClaimed : next.history.claimed = peer.history.claimed)
  (hCreated : next.history.created = peer.history.created) : ClaimsKept next := by
  intro claim hClaim
  rw [hClaimed] at hClaim
  rcases hKept claim hClaim with ⟨hNonce, hConsumed⟩
  rw [hCreated]
  refine ⟨hNonce, ?_⟩
  intro hHeld
  rw [hGone.consumed hHeld]
  exact hConsumed (hGone.held hHeld)

section

variable (hHold : DeliveryHolds isPoint peer)

include hHold

/-
  The facts of a peer whose view grew, and in which no claim
  was made and no message was delivered.
-/
theorem DeliveryHolds.grow (hIdx : next.sessionManager.Indexed)
  (view : DeliveryView) (hView : next.deliveryView = view)
  (hExt : peer.deliveryView.Extends isPoint view) (hKeeps : view.Holds isPoint)
  (hKept : ClaimsKept next) (hDeliv : next.history.delivered = peer.history.delivered)
  (hClaimed : next.history.claimed = peer.history.claimed) (hTask : peer.tasks[task]? = some old)
  (hTasks : next.tasks = peer.tasks.set task stage) (hStage : DeliveryStage isPoint view stage)
  (hCarry : carried stage = none ∨ carried stage = carried old) : DeliveryHolds isPoint next := by
  subst hView
  have hSub : (claimsInUse next).Sublist (claimsInUse peer) := by
    unfold claimsInUse
    rw [hDeliv, hTasks]
    exact (List.Sublist.refl _).append (carried_set_sublist hTask hCarry)
  constructor
  · exact hIdx
  · exact hKeeps
  · rw [hTasks]
    intro other hOther
    rcases mem_or_eq_of_mem_set hOther with hOld | rfl
    · exact (hHold.stages other hOld).extends hHold.nonces hExt
    · exact hStage
  · rw [hDeliv]
    intro delivered hMem
    exact (hHold.delivered delivered hMem).extends hExt
  · exact hKept
  · exact hHold.once.sublist hSub
  · rw [hClaimed]
    intro claim hClaim
    exact hHold.claimed claim (hSub.mem hClaim)

/- A step that changes no fact keeps all that is known. -/
theorem DeliveryHolds.quiet (hGone : peer.sessionManager.LetsGo next.sessionManager)
  (hView : next.deliveryView = peer.deliveryView)
  (hDeliv : next.history.delivered = peer.history.delivered)
  (hClaimed : next.history.claimed = peer.history.claimed) (hTask : peer.tasks[task]? = some old)
  (hTasks : next.tasks = peer.tasks.set task stage)
  (hStage : DeliveryStage isPoint peer.deliveryView stage)
  (hCarry : carried stage = none ∨ carried stage = carried old) : DeliveryHolds isPoint next :=
  hHold.grow (hGone.indexed hHold.indexed) peer.deliveryView hView
    (DeliveryView.Extends.refl isPoint _) hHold.view
    (hHold.kept.letsGo hGone hClaimed (congrArg DeliveryView.created hView))
    hDeliv hClaimed hTask hTasks hStage hCarry

theorem DeliveryHolds.setStage (hTask : peer.tasks[task]? = some old)
  (hStage : DeliveryStage isPoint peer.deliveryView stage)
  (hCarry : carried stage = none ∨ carried stage = carried old) :
  DeliveryHolds isPoint (peer.setStage task stage) :=
  hHold.quiet (SessionManager.LetsGo.refl _) rfl rfl rfl hTask rfl hStage hCarry

theorem DeliveryHolds.reject (hTask : peer.tasks[task]? = some old) (error : JsText) :
  DeliveryHolds isPoint (peer.reject task error) := by
  have hStage : DeliveryStage isPoint peer.deliveryView (.rejected error) := trivial
  exact hHold.setStage hTask hStage (Or.inl rfl)

theorem DeliveryHolds.finish (hTask : peer.tasks[task]? = some old) :
  DeliveryHolds isPoint (peer.setStage task .finished) := by
  have hStage : DeliveryStage isPoint peer.deliveryView .finished := trivial
  exact hHold.setStage hTask hStage (Or.inl rfl)

theorem DeliveryHolds.afterGetSession (hTask : peer.tasks[task]? = some old)
  {identifier : JsText} {now : Nat} {stage : Option JsText → Stage}
  (hNone : DeliveryStage isPoint peer.deliveryView (stage none))
  (hFound : ∀ session, (peer.deliveryView.objects session).isSome = true →
        (session = identifier ∨ peer.deliveryView.identity session = some identifier) →
          DeliveryStage isPoint peer.deliveryView (stage (some session)))
  (hCarry : ∀ found, carried (stage found) = none ∨ carried (stage found) = carried old) :
  DeliveryHolds isPoint (peer.afterGetSession task identifier now stage) := by
  have hGone := SessionManager.letsGo_getSession hHold.indexed identifier now
  have hStage : DeliveryStage isPoint peer.deliveryView (stage
          ((peer.sessionManager.getSession identifier now).1.map (·.sessionNonce))) := by
    cases hSess : (peer.sessionManager.getSession identifier now).1 with
    | none => exact hNone
    | some session =>
      rcases SessionManager.mem_of_getSession hHold.indexed hSess with ⟨hObj, -, hFrom⟩
      apply hFound
      · change (peer.sessionManager.objects _).isSome = true
        rw [hObj]
        rfl
      · refine hFrom.imp id fun hIdent => ?_
        unfold DeliveryView.identity
        change (peer.sessionManager.objects _).bind _ = _
        rw [hObj]
        exact hIdent
  refine hHold.quiet hGone ?_ rfl rfl hTask rfl hStage (hCarry _)
  unfold Peer.afterGetSession Peer.deliveryView
  simp only [hGone.objects]

end

end TsStack.Auth
