import TsStack.Auth.Peer

/-
  What is known of a peer while it runs.

  A session keeps the identity that it has.  So a call that
  found a session by an identity, or whose handshake was
  answered, sends to that identity, however long it waits.
  The facts are stated over the objects and the history
  alone, which only grow.
-/

-- Facts

open List Option

namespace TsStack.Auth

structure View where
  autoPersist : Bool
  objects : JsText → Option PeerSession
  created : List JsText
  initiated : List JsText
  accepted : List (JsText × JsText)
  completed : List (JsText × JsText)

def Peer.view (peer : Peer) : View where
  autoPersist := peer.autoPersistLastSession
  objects := peer.sessionManager.objects
  created := peer.history.created
  initiated := peer.history.initiated
  accepted := peer.history.accepted
  completed := peer.history.completed

namespace View

def identity (view : View) (session : JsText) : Option JsText :=
  (view.objects session).bind (·.peerIdentityKey)

def Answered (view : View) (session : JsText) : Prop :=
  session ∈ view.accepted.map Prod.fst

/- Sessions keep their identities; the history grows. -/
structure Extends (before after : View) : Prop where
  autoPersist : after.autoPersist = before.autoPersist
  objects :
    ∀ {session object}, before.objects session = some object → (after.objects session).isSome = true
  identity : ∀ {session identityKey}, before.identity session = some identityKey →
        after.identity session = some identityKey
  nameless : ∀ {session}, (before.objects session).isSome = true → before.identity session = none →
          after.identity session = none ∨ after.Answered session
  created : ∀ {nonce}, nonce ∈ before.created → nonce ∈ after.created
  initiated : ∀ {nonce}, nonce ∈ before.initiated → nonce ∈ after.initiated
  accepted : ∀ {entry}, entry ∈ before.accepted → entry ∈ after.accepted
  completed : ∃ more, after.completed = before.completed ++ more

structure Holds (isPoint : JsText → Bool) (view : View) : Prop where
  objects : ∀ {session object}, view.objects session = some object → session ∈ view.created
  created : ∀ {nonce}, nonce ∈ view.created → assertCanonicalBase64 nonce 48 = true
  authenticated : ∀ {session object}, view.objects session = some object →
      object.isAuthenticated = true → object.peerIdentityKey.isSome = true
  accepted : ∀ {entry}, entry ∈ view.accepted → entry.1 ∈ view.initiated ∧
        view.identity entry.1 = some entry.2 ∧ assertAuthIdentityKey isPoint entry.2 = true
  once : (view.accepted.map Prod.fst).Nodup
  completed : ∀ {entry}, entry ∈ view.completed → entry ∈ view.accepted

end View

def implicitIdentity (view : View) (call : Call) : Option JsText :=
  match call.identityKey with
  | some identityKey => some identityKey
  | none =>
    if view.autoPersist then lastCompleted (view.completed.take call.completedBefore)
    else none

structure CallHolds (isPoint : JsText → Bool) (view : View) (call : Call) : Prop where
  before : call.completedBefore ≤ view.completed.length
  target : call.purpose ≠ .session → call.target = implicitIdentity view call
  valid : ∀ identityKey, call.identityKey = none → call.target = some identityKey →
          assertAuthIdentityKey isPoint identityKey = true

/-
  An identity is the one that a call is for: its target, or
  the one that completed the handshake of the call.
-/
structure Reaches
  (isPoint : JsText → Bool) (view : View) (call : Call) (counterparty : JsText) : Prop where
  target : ∀ identityKey, call.target = some identityKey →
        assertAuthIdentityKey isPoint identityKey = true → counterparty = identityKey
  own : call.target = none → ∃ session, call.initiated = some session ∧
          (session, counterparty) ∈ view.completed

structure OwnSession
  (isPoint : JsText → Bool) (view : View) (call : Call) (session : JsText) : Prop where
  initiated : call.initiated = some session
  object : (view.objects session).isSome = true
  identity :
    ∀ identityKey, call.target = some identityKey → view.identity session = some identityKey

structure MessageFor
  (isPoint : JsText → Bool) (view : View) (message : AuthMessage) (session : JsText) : Prop where
  sender : assertAuthIdentityKey isPoint message.identityKey = true
  object : (view.objects session).isSome = true
  response : message.messageType = .initialResponse → view.identity session = none ∨
        view.identity session = some message.identityKey ∨ view.Answered session
  other : message.messageType ≠ .initialResponse → (view.identity session).isSome = true

def ContinuationHolds (isPoint : JsText → Bool) (view : View) : Continuation → Prop
| .initial message session =>
  assertAuthIdentityKey isPoint message.identityKey = true ∧
    (session, message.identityKey) ∈ view.accepted
| .request message => assertAuthIdentityKey isPoint message.identityKey = true
| .response _ _ => True
| .matched _ => True
| .general _ _ => True
| .send call _ counterparty _ =>
  CallHolds isPoint view call ∧ ∃ identityKey, counterparty = some identityKey ∧
      Reaches isPoint view call identityKey
| .giveUp => True

def FoundHolds (view : View) (change : SessionChange) (found : JsText) : Prop :=
  change = .markAuthenticated → (view.identity found).isSome = true

def PhaseHolds (view : View) (session : JsText) (change : SessionChange) : Phase → Prop
| .queued => FoundHolds view change session
| .held found => FoundHolds view change found
| .validating _ _ _ _ => True
| .changed _ _ => True
| .updated _ => True

def StageHolds (isPoint : JsText → Bool) (view : View) : Stage → Prop
| .requestClaimed message => assertAuthIdentityKey isPoint message.identityKey = true
| .requestAdded _ _ => True
| .nonceCheck message => assertAuthIdentityKey isPoint message.identityKey = true
| .lookup message found =>
  assertAuthIdentityKey isPoint message.identityKey = true ∧ (view.objects found).isSome = true
| .verifying message session => MessageFor isPoint view message session
| .claimed message session => MessageFor isPoint view message session
| .accepted message session =>
  assertAuthIdentityKey isPoint message.identityKey = true ∧
    (session, message.identityKey) ∈ view.accepted
| .updating session change phase next =>
  PhaseHolds view session change phase ∧ ContinuationHolds isPoint view next
| .completing message session =>
  assertAuthIdentityKey isPoint message.identityKey = true ∧
    (session, message.identityKey) ∈ view.accepted
| .answering message => assertAuthIdentityKey isPoint message.identityKey = true
| .current _ _ _ => True
| .awaitingCertificates _ _ _ => True
| .calling call found =>
  CallHolds isPoint view call ∧ call.target.isSome = true ∧
    ∀ session identityKey, found = some session → call.target = some identityKey →
          assertAuthIdentityKey isPoint identityKey = true →
            view.identity session = some identityKey
| .creating call => CallHolds isPoint view call
| .handshakeAdded call session => CallHolds isPoint view call ∧ OwnSession isPoint view call session
| .awaitingResponse call session released =>
  CallHolds isPoint view call ∧ OwnSession isPoint view call session ∧
    (released = true → ∃ identityKey, (session, identityKey) ∈ view.completed)
| .handshakeAnswered call session found =>
  CallHolds isPoint view call ∧ OwnSession isPoint view call session ∧
    (∃ identityKey, (session, identityKey) ∈ view.completed) ∧
    ∀ other, found = some other → other = session ∨ view.identity other = some session
| .failing _ => True
| .ready call session =>
  CallHolds isPoint view call ∧ (view.identity session).isSome = true ∧
    ∀ identityKey, view.identity session = some identityKey →
        assertAuthIdentityKey isPoint identityKey = true → Reaches isPoint view call identityKey
| .signing call _ _ counterparty =>
  CallHolds isPoint view call ∧ ∃ identityKey, counterparty = some identityKey ∧
      Reaches isPoint view call identityKey
| .finished => True
| .rejected _ => True

def SentHolds (isPoint : JsText → Bool) (view : View) (sent : SentMessage) : Prop :=
  ∀ call, sent.call = some call → sent.message.messageType ≠ .initialRequest →
      CallHolds isPoint view call ∧ ∃ identityKey, sent.counterparty = some identityKey ∧
          Reaches isPoint view call identityKey

structure PeerHolds (isPoint : JsText → Bool) (peer : Peer) : Prop where
  indexed : peer.sessionManager.Indexed
  view : peer.view.Holds isPoint
  last : peer.lastInteractedWithPeer = lastCompleted peer.history.completed
  sent : ∀ sent ∈ peer.history.sent, SentHolds isPoint peer.view sent
  stages : ∀ stage ∈ peer.tasks, StageHolds isPoint peer.view stage

-- Growth

variable {isPoint : JsText → Bool} {before after : View} {session : JsText}

section

variable (hExt : before.Extends after)

include hExt

theorem View.Extends.isSome (hSome : (before.objects session).isSome = true) :
  (after.objects session).isSome = true := by
  rcases isSome_iff_exists.mp hSome with ⟨object, hObj⟩
  exact hExt.objects hObj

theorem View.Extends.identity_isSome (hSome : (before.identity session).isSome = true) :
  (after.identity session).isSome = true := by
  rcases isSome_iff_exists.mp hSome with ⟨identityKey, hIdent⟩
  rw [hExt.identity hIdent]
  rfl

theorem View.Extends.answered (hAnswered : before.Answered session) : after.Answered session := by
  unfold View.Answered at hAnswered ⊢
  rcases List.mem_map.mp hAnswered with ⟨entry, hEntry, hName⟩
  exact List.mem_map.mpr ⟨entry, hExt.accepted hEntry, hName⟩

theorem View.Extends.mem_completed {entry : JsText × JsText}
  (hEntry : entry ∈ before.completed) : entry ∈ after.completed := by
  rcases hExt.completed with ⟨more, hMore⟩
  rw [hMore]
  exact mem_append_left _ hEntry

end

variable {call : Call}

theorem CallHolds.extends (hCall : CallHolds isPoint before call) (hExt : before.Extends after) :
  CallHolds isPoint after call := by
  rcases hExt.completed with ⟨more, hMore⟩
  have hSame : implicitIdentity after call = implicitIdentity before call := by
    unfold implicitIdentity
    rw [hExt.autoPersist, hMore, take_append_of_le_length hCall.before]
  constructor
  · rw [hMore, length_append]
    exact Nat.le_add_right_of_le hCall.before
  · rw [hSame]
    exact hCall.target
  · exact hCall.valid

theorem Reaches.extends
  {counterparty : JsText} (hReaches : Reaches isPoint before call counterparty)
  (hExt : before.Extends after) : Reaches isPoint after call counterparty := by
  constructor
  · exact hReaches.target
  · intro hNone
    rcases hReaches.own hNone with ⟨session, hOwn, hDone⟩
    exact ⟨session, hOwn, hExt.mem_completed hDone⟩

theorem OwnSession.extends
  (hOwn : OwnSession isPoint before call session) (hExt : before.Extends after) :
  OwnSession isPoint after call session := by
  constructor
  · exact hOwn.initiated
  · exact hExt.isSome hOwn.object
  · intro identityKey hTgt
    exact hExt.identity (hOwn.identity _ hTgt)

theorem MessageFor.extends
  {message : AuthMessage} (hFor : MessageFor isPoint before message session)
  (hExt : before.Extends after) : MessageFor isPoint after message session := by
  constructor
  · exact hFor.sender
  · exact hExt.isSome hFor.object
  · intro hType
    rcases hFor.response hType with hNone | hSame | hAnswered
    · exact (hExt.nameless hFor.object hNone).imp id Or.inr
    · exact .inr (Or.inl (hExt.identity hSame))
    · exact .inr (Or.inr (hExt.answered hAnswered))
  · intro hType
    exact hExt.identity_isSome (hFor.other hType)

theorem sendHolds_extends {counterparty : Option JsText}
  (hSend : CallHolds isPoint before call ∧ ∃ identityKey, counterparty = some identityKey ∧
        Reaches isPoint before call identityKey)
  (hExt : before.Extends after) :
  CallHolds isPoint after call ∧ ∃ identityKey, counterparty = some identityKey ∧
      Reaches isPoint after call identityKey := by
  rcases hSend with ⟨hCall, identityKey, hSome, hReaches⟩
  exact ⟨hCall.extends hExt, identityKey, hSome, hReaches.extends hExt⟩

theorem ContinuationHolds.extends
  {next : Continuation} (hNext : ContinuationHolds isPoint before next)
  (hExt : before.Extends after) : ContinuationHolds isPoint after next := by
  cases next with
  | initial message session => exact ⟨hNext.1, hExt.accepted hNext.2⟩
  | request message => exact hNext
  | response message session => trivial
  | matched session => trivial
  | general message session => trivial
  | send call session counterparty message => exact sendHolds_extends hNext hExt
  | giveUp => trivial

theorem PhaseHolds.extends
  {change : SessionChange} {phase : Phase} (hPhase : PhaseHolds before session change phase)
  (hExt : before.Extends after) : PhaseHolds after session change phase := by
  cases phase with
  | queued =>
    intro hMark
    exact hExt.identity_isSome (hPhase hMark)
  | held found =>
    intro hMark
    exact hExt.identity_isSome (hPhase hMark)
  | validating found requested policy matchesHandshake => trivial
  | changed found validated => trivial
  | updated validated => trivial

variable {stage : Stage}

theorem StageHolds.extends
  (hStage : StageHolds isPoint before stage) (hExt : before.Extends after) :
  StageHolds isPoint after stage := by
  cases stage with
  | requestClaimed message => exact hStage
  | requestAdded message session => trivial
  | nonceCheck message => exact hStage
  | lookup message found => exact ⟨hStage.1, hExt.isSome hStage.2⟩
  | verifying message session => exact MessageFor.extends hStage hExt
  | claimed message session => exact MessageFor.extends hStage hExt
  | accepted message session => exact ⟨hStage.1, hExt.accepted hStage.2⟩
  | updating session change phase next =>
    exact ⟨PhaseHolds.extends hStage.1 hExt, ContinuationHolds.extends hStage.2 hExt⟩
  | completing message session => exact ⟨hStage.1, hExt.accepted hStage.2⟩
  | answering message => exact hStage
  | current message session found => trivial
  | awaitingCertificates message session released => trivial
  | calling call found =>
    rcases hStage with ⟨hCall, hTgt, hFound⟩
    refine ⟨hCall.extends hExt, hTgt, ?_⟩
    intro session identityKey hSess hIs hValid
    exact hExt.identity (hFound session identityKey hSess hIs hValid)
  | creating call => exact CallHolds.extends hStage hExt
  | handshakeAdded call session =>
    exact ⟨CallHolds.extends hStage.1 hExt, OwnSession.extends hStage.2 hExt⟩
  | awaitingResponse call session released =>
    rcases hStage with ⟨hCall, hOwn, hReleased⟩
    refine ⟨hCall.extends hExt, hOwn.extends hExt, ?_⟩
    intro hTrue
    rcases hReleased hTrue with ⟨identityKey, hDone⟩
    exact ⟨identityKey, hExt.mem_completed hDone⟩
  | handshakeAnswered call session found =>
    rcases hStage with ⟨hCall, hOwn, ⟨identityKey, hDone⟩, hFound⟩
    refine ⟨hCall.extends hExt, hOwn.extends hExt,
      ⟨identityKey, hExt.mem_completed hDone⟩, ?_⟩
    intro other hOther
    exact (hFound other hOther).imp id hExt.identity
  | failing found => trivial
  | ready call session =>
    rcases hStage with ⟨hCall, hSome, hReaches⟩
    refine ⟨hCall.extends hExt, hExt.identity_isSome hSome, ?_⟩
    intro identityKey hIdent hValid
    rcases isSome_iff_exists.mp hSome with ⟨known, hKnown⟩
    have hKept := hExt.identity hKnown
    rw [hKept] at hIdent
    rw [Option.some.inj hIdent] at hKnown
    exact (hReaches identityKey hKnown hValid).extends hExt
  | signing call session requestNonce counterparty => exact sendHolds_extends hStage hExt
  | finished => trivial
  | rejected error => trivial

theorem SentHolds.extends
  {sent : SentMessage} (hSent : SentHolds isPoint before sent) (hExt : before.Extends after) :
  SentHolds isPoint after sent := by
  intro call hCall hType
  exact sendHolds_extends (hSent call hCall hType) hExt

theorem forall_mem_set
  {tasks : List Stage} {property : Stage → Prop} (hOld : ∀ stage ∈ tasks, property stage)
  (hNew : property stage) (task : Nat) : ∀ other ∈ tasks.set task stage, property other := by
  intro other hOther
  rcases mem_or_eq_of_mem_set hOther with hMem | rfl
  · exact hOld other hMem
  · exact hNew

variable {peer : Peer}

section

variable (hHold : PeerHolds isPoint peer)

include hHold

/- A step that changes no object and no fact of the history keeps all that is known. -/
theorem PeerHolds.quiet {next : Peer} (hIdx : next.sessionManager.Indexed)
  (hView : next.view = peer.view)
  (hLast : next.lastInteractedWithPeer = peer.lastInteractedWithPeer)
  (hSent : next.history.sent = peer.history.sent)
  (hStages : ∀ stage ∈ next.tasks, StageHolds isPoint peer.view stage) :
  PeerHolds isPoint next := by
  constructor
  · exact hIdx
  · rw [hView]
    exact hHold.view
  · have hCompleted : next.history.completed = peer.history.completed :=
      congrArg View.completed hView
    rw [hLast, hCompleted]
    exact hHold.last
  · rw [hSent, hView]
    exact hHold.sent
  · rw [hView]
    exact hStages

/- A task goes on, and nothing else is changed. -/
theorem PeerHolds.setStage (hStage : StageHolds isPoint peer.view stage) (task : Nat) :
  PeerHolds isPoint (peer.setStage task stage) :=
  hHold.quiet hHold.indexed rfl rfl rfl (forall_mem_set hHold.stages hStage task)

theorem PeerHolds.reject (task : Nat) (error : JsText) :
  PeerHolds isPoint (peer.reject task error) := by
  have hStage : StageHolds isPoint peer.view (.rejected error) := trivial
  exact hHold.setStage hStage task

theorem PeerHolds.afterGetSession {task : Nat} {identifier : JsText} {now : Nat}
  {stage : Option JsText → Stage} (hNone : StageHolds isPoint peer.view (stage none))
  (hFound : ∀ session object, peer.sessionManager.objects session = some object →
        (session = identifier ∨ peer.view.identity session = some identifier) →
          StageHolds isPoint peer.view (stage (some session))) :
  PeerHolds isPoint (peer.afterGetSession task identifier now stage) := by
  have hGone := SessionManager.letsGo_getSession hHold.indexed identifier now
  have hMem : ∀ session, (peer.sessionManager.getSession identifier now).1 = some session →
          StageHolds isPoint peer.view (stage (some session.sessionNonce)) := by
    intro session hSess
    rcases SessionManager.mem_of_getSession hHold.indexed hSess with ⟨hObj, -, hFrom⟩
    apply hFound _ session hObj
    refine hFrom.imp id fun hIdent => ?_
    unfold View.identity
    change (peer.sessionManager.objects _).bind _ = _
    rw [hObj]
    exact hIdent
  have hStage : StageHolds isPoint peer.view (stage ((peer.sessionManager.getSession identifier
            now).1.map (·.sessionNonce))) := by
    cases hSess : (peer.sessionManager.getSession identifier now).1 with
    | none => exact hNone
    | some session => exact hMem session hSess
  refine hHold.quiet (hGone.indexed hHold.indexed) ?_ rfl rfl
    (forall_mem_set hHold.stages hStage task)
  unfold Peer.afterGetSession Peer.view
  simp only [hGone.objects]

end

end TsStack.Auth
