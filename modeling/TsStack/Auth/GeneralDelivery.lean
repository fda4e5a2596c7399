import TsStack.Auth.DeliveryChanges
import TsStack.Lib.EventRun

/-
  The delivery of general messages.

  A signature covers no kind of message, so a message that
  its sender signed as a request or a response for
  certificates is delivered as a general one as well.  In a
  run in which no update puts a session back that the store
  let go, every delivered message was signed by its sender
  for the session, and no two with the same nonces.
-/

-- Claims of messages

open List Option

namespace TsStack.Auth

variable {isPoint : JsText → Bool} {peer : Peer} {task : Nat} {message : AuthMessage}
variable {session : JsText} {answer : Answer} {after : Peer}

theorem filterMap_carried_cons (stage : Stage) (tasks : List Stage) :
  (stage :: tasks).filterMap carried = (carried stage).toList ++ tasks.filterMap carried := by
  rw [filterMap_cons]
  cases carried stage <;> rfl

variable {old : Stage}

theorem carried_set_perm {tasks : List Stage} (hTask : tasks[task]? = some old) (new : Stage) :
  List.Perm ((carried old).toList ++ (tasks.set task new).filterMap carried)
    ((carried new).toList ++ tasks.filterMap carried) := by
  induction tasks generalizing task with
  | nil => cases hTask
  | cons first rest ih =>
    cases task with
    | zero =>
      rw [getElem?_cons_zero] at hTask
      rw [Option.some.inj hTask, set_cons_zero, filterMap_carried_cons, filterMap_carried_cons]
      exact perm_append_comm_assoc _ _ _
    | succ task =>
      rw [getElem?_cons_succ] at hTask
      rw [set_cons_succ, filterMap_carried_cons, filterMap_carried_cons]
      have hRest := (ih hTask).append_left (carried first).toList
      exact (perm_append_comm_assoc _ _ _).trans
        (hRest.trans (perm_append_comm_assoc _ _ _))

variable
    {nonce : JsText} {manager : SessionManager}

theorem DeliveryHolds.isNew (hHold : DeliveryHolds isPoint peer)
  (hClaims : peer.sessionManager.Claims session nonce manager) :
  (session, nonce) ∉ claimsInUse peer := by
  intro hMem
  rcases hHold.kept _ (hHold.claimed _ hMem) with ⟨-, hConsumed⟩
  exact hClaims.isNew (hConsumed (hClaims.held hClaims.isHeld))

theorem ClaimsKept.claim (hKept : ClaimsKept peer) (hCreated : session ∈ peer.history.created)
  (hClaims : peer.sessionManager.Claims session nonce manager) (tasks : List Stage) : ClaimsKept
    { peer with
      sessionManager := manager
      tasks
      history := { peer.history with
        claimed := peer.history.claimed ++ [(session, nonce)] } } := by
  intro claim hClaim
  rcases mem_append.mp hClaim with hOld | hNew
  · rcases hKept claim hOld with ⟨hNonce, hConsumed⟩
    refine ⟨hNonce, ?_⟩
    intro hHeld
    exact hClaims.consumed hHeld _ (hConsumed (hClaims.held hHeld))
  · rw [mem_singleton.mp hNew]
    exact ⟨hCreated, fun _ => hClaims.claimed⟩

section

variable
    (hHold : DeliveryHolds isPoint peer)
    (hTask : peer.tasks[task]? = some (.verifying message session))

include hHold hTask

theorem DeliveryHolds.claim (hSigned : SignedBySender peer.deliveryView message session)
  (hClaims : peer.sessionManager.Claims session (messageNonce message) manager) :
  DeliveryHolds isPoint
    { peer with
      sessionManager := manager
      tasks := peer.tasks.set task (.claimed message session)
      history := { peer.history with
        claimed := peer.history.claimed ++ [(session, messageNonce message)] } } := by
  have hAddressed : Addressed isPoint peer.deliveryView message session :=
    hHold.stages _ (mem_of_getElem? hTask)
  have hNew := hHold.isNew hClaims
  have hPerm : List.Perm ((peer.tasks.set task (.claimed message session)).filterMap carried)
        ((carried (.claimed message session)).toList ++ peer.tasks.filterMap carried) :=
    carried_set_perm hTask (.claimed message session)
  have hUse :
      List.Perm (claimsInUse { peer with
          tasks := peer.tasks.set task (.claimed message session) })
        ((carried (.claimed message session)).toList ++ claimsInUse peer) := by
    unfold claimsInUse
    exact (hPerm.append_left _).trans (perm_append_comm_assoc _ _ _)
  have hCarry : ∀ claim, claim ∈ (carried (.claimed message session)).toList →
        claim = (session, messageNonce message) := by
    intro claim hClaim
    simp only [carried] at hClaim
    split at hClaim
    · exact mem_singleton.mp hClaim
    · cases hClaim
  have hView :
      ({ peer with sessionManager := manager } : Peer).deliveryView = peer.deliveryView := by
    unfold Peer.deliveryView
    simp only [hClaims.objects]
  refine ⟨hClaims.indexed hHold.indexed, ?_, ?_, ?_,
    hHold.kept.claim (hHold.nonces hAddressed.object) hClaims _, ?_, ?_⟩
  · exact hView ▸ hHold.view
  · have hStage : DeliveryStage isPoint peer.deliveryView (.claimed message session) :=
      ⟨hAddressed, hSigned⟩
    change ∀ stage ∈ peer.tasks.set task (.claimed message session),
      DeliveryStage isPoint ({ peer with sessionManager := manager } : Peer).deliveryView stage
    rw [hView]
    exact forall_mem_set hHold.stages hStage task
  · change ∀ delivered ∈ peer.history.delivered, DeliveredHolds
        ({ peer with sessionManager := manager } : Peer).deliveryView delivered
    rw [hView]
    exact hHold.delivered
  · apply hUse.nodup_iff.mpr
    apply nodup_append.mpr
    refine ⟨?_, hHold.once, ?_⟩
    · cases carried (.claimed message session) with
      | none => exact nodup_nil
      | some claim => exact nodup_singleton claim
    · rintro claim hClaim other hOther rfl
      rw [hCarry claim hClaim] at hOther
      exact hNew hOther
  · intro claim hClaim
    rcases mem_append.mp (hUse.mem_iff.mp hClaim) with hOwn | hOld
    · rw [hCarry claim hOwn]
      exact mem_append_right _ mem_cons_self
    · exact mem_append_left _ (hHold.claimed _ hOld)

/- A signature made by the sender is one the wallet accepts. -/
theorem DeliveryHolds.afterVerifying
  (hSigned : answer.valid = true → SignedBySender peer.deliveryView message session) :
  DeliveryHolds isPoint (peer.afterVerifying task message session answer) := by
  have hRejected : ∀ error, DeliveryStage isPoint peer.deliveryView
    (.rejected error) := fun _ => trivial
  unfold Peer.afterVerifying
  split
  · rename_i hValid
    cases hClaim :
      peer.sessionManager.claimMessageNonce session (messageNonce message) answer.now with
    | mk outcome manager =>
      have hRefused : ∀ error, outcome ≠ .ok true → DeliveryHolds isPoint (({ peer with
                sessionManager := manager } : Peer).reject
                task error) := by
        intro error hOut
        have hGone := SessionManager.letsGo_claimMessageNonce hHold.indexed hClaim hOut
        refine hHold.quiet hGone ?_ rfl rfl hTask rfl (hRejected error) (Or.inl rfl)
        unfold Peer.reject Peer.setStage Peer.deliveryView
        simp only [hGone.objects]
      simp only
      split
      · exact hRefused _ nofun
      · exact hRefused _ nofun
      · exact hHold.claim hTask (hSigned hValid)
          (SessionManager.claims_of_claimMessageNonce hHold.indexed hClaim)
  · exact hHold.reject hTask _

end

-- Delivered messages

theorem nonce_of_general (hValid : assertValidAuthMessage isPoint message = true)
  (hGeneral : message.messageType = .general) :
  assertCanonicalBase64 (messageNonce message) 32 = true := by
  unfold assertValidAuthMessage at hValid
  unfold messageNonce
  rw [hGeneral] at hValid ⊢
  simp only [Bool.and_eq_true] at hValid ⊢
  have hNonce := hValid.2.1.1.1
  unfold hasNonce at hNonce
  split at hNonce
  · cases hNonce
  · rename_i nonce hSome
    rw [hSome]
    exact hNonce

theorem deliveredHolds_of_vouched (hVouched : Vouched isPoint peer.deliveryView message session)
  (hReleased : peer.deliveryView.Released session) : DeliveredHolds peer.deliveryView
    { sender := message.identityKey
      payload := message.payload.getD []
      session
      nonce := messageNonce message } where
  nonce := nonce_of_general hVouched.valid hVouched.general
  released := hReleased
  signed := by
    rcases hVouched.signed with ⟨signature, hMem, hSigner, hKeyID, hData⟩
    refine ⟨signature, hMem, hSigner, ?_, ?_⟩
    · rw [hKeyID]
      unfold signingKeyID messageNonce
      rw [hVouched.general]
    · rw [hData]
      unfold signedData
      rw [hVouched.general]

section

variable (hHold : DeliveryHolds isPoint peer)

include hHold

theorem DeliveryHolds.dispatch (hTask : peer.tasks[task]? = some old)
  (hOld : carried old = some (session, messageNonce message))
  (hVouched : Vouched isPoint peer.deliveryView message session)
  (hReleased : peer.deliveryView.Released session) :
  DeliveryHolds isPoint (peer.dispatch task message session) := by
  have hTasks := carried_set_perm hTask .finished
  rw [hOld] at hTasks
  have hUse : List.Perm (claimsInUse (peer.dispatch task message session)) (claimsInUse peer) := by
    unfold claimsInUse Peer.dispatch
    rw [map_append, append_assoc]
    exact hTasks.append_left _
  have hFin : DeliveryStage isPoint peer.deliveryView .finished := trivial
  refine ⟨hHold.indexed, hHold.view, forall_mem_set hHold.stages hFin task, ?_,
    hHold.kept, hUse.nodup_iff.mpr hHold.once, ?_⟩
  · intro delivered hMem
    rcases mem_append.mp hMem with hBefore | hLast
    · exact hHold.delivered delivered hBefore
    · rw [mem_singleton.mp hLast]
      exact deliveredHolds_of_vouched hVouched hReleased
  · intro claim hClaim
    exact hHold.claimed claim (hUse.mem_iff.mp hClaim)

theorem DeliveryHolds.afterCurrent {found : JsText}
  (hTask : peer.tasks[task]? = some (.current message session found))
  (hStep : peer.afterCurrent task message session found = some after) :
  DeliveryHolds isPoint after := by
  rcases hHold.stages _ (mem_of_getElem? hTask) with ⟨hVouched, hFound⟩
  unfold Peer.afterCurrent at hStep
  split at hStep
  · cases hStep
  · rename_i object hObj
    split at hStep
    · have hStage :
          DeliveryStage isPoint peer.deliveryView (.awaitingCertificates message session false) :=
        ⟨hVouched, nofun⟩
      rw [← Option.some.inj hStep]
      exact hHold.setStage hTask hStage (Or.inr rfl)
    · rename_i hReady
      rw [← Option.some.inj hStep]
      apply hHold.dispatch hTask rfl hVouched
      apply released_of_found hHold.view hVouched.object hVouched.named hFound hObj
      intro hReq
      rw [hReq, Bool.true_and, Bool.not_eq_true, Bool.not_eq_false'] at hReady
      exact hReady

theorem DeliveryHolds.afterAwaitingCertificates {released : Bool}
  (hTask : peer.tasks[task]? = some (.awaitingCertificates message session released))
  (hStep : peer.afterAwaitingCertificates task message session released answer = some after) :
  DeliveryHolds isPoint after := by
  rcases hHold.stages _ (mem_of_getElem? hTask) with ⟨hVouched, hReleased⟩
  unfold Peer.afterAwaitingCertificates at hStep
  split at hStep
  · rename_i hTrue
    rw [← Option.some.inj hStep]
    exact hHold.dispatch hTask rfl hVouched (hReleased hTrue)
  · split at hStep
    · cases hStep
    · rw [← Option.some.inj hStep]
      exact hHold.reject hTask _

end

-- Inbound messages

variable {stage : Stage}

section

variable (hHold : DeliveryHolds isPoint peer)

include hHold

theorem DeliveryHolds.addTask {next : Peer} (hGone : peer.sessionManager.LetsGo next.sessionManager)
  (hView : next.deliveryView = peer.deliveryView)
  (hDeliv : next.history.delivered = peer.history.delivered)
  (hClaimed : next.history.claimed = peer.history.claimed)
  (hTasks : next.tasks = peer.tasks ++ [stage])
  (hStage : DeliveryStage isPoint peer.deliveryView stage) (hCarry : carried stage = none) :
  DeliveryHolds isPoint next := by
  have hUse : claimsInUse next = claimsInUse peer := by
    unfold claimsInUse
    rw [hDeliv, hTasks, filterMap_append,
      filterMap_cons_none hCarry, filterMap_nil, append_nil]
  refine ⟨hGone.indexed hHold.indexed, ?_, ?_, ?_,
    hHold.kept.letsGo hGone hClaimed (congrArg DeliveryView.created hView), ?_, ?_⟩
  · rw [hView]
    exact hHold.view
  · rw [hView, hTasks]
    intro other hOther
    rcases mem_append.mp hOther with hOld | hNew
    · exact hHold.stages other hOld
    · rw [mem_singleton.mp hNew]
      exact hStage
  · rw [hView, hDeliv]
    exact hHold.delivered
  · rw [hUse]
    exact hHold.once
  · rw [hUse, hClaimed]
    exact hHold.claimed

theorem DeliveryHolds.deliver {now : Nat}
  (hStep : Peer.deliver isPoint peer message now = some after) : DeliveryHolds isPoint after := by
  unfold Peer.deliver at hStep
  split at hStep
  · rename_i hValid
    have hCheck : DeliveryStage isPoint peer.deliveryView (.nonceCheck message) := hValid
    split at hStep
    · have hGone :=
        letsGo_claimInitialRequestNonce peer.sessionManager
          message.identityKey (message.initialNonce.getD []) now
      rcases hPair : peer.sessionManager.claimInitialRequestNonce message.identityKey
            (message.initialNonce.getD []) now with
        ⟨claimed, manager⟩
      rw [hPair] at hGone hStep
      have hObjects : manager.objects = peer.sessionManager.objects := hGone.objects
      rw [← Option.some.inj hStep]
      refine hHold.addTask hGone ?_ rfl rfl rfl ?_ ?_
      · unfold Peer.deliveryView
        simp only [hObjects]
      · split
        · trivial
        · trivial
      · split
        · rfl
        · rfl
    · rw [← Option.some.inj hStep]
      exact hHold.addTask (SessionManager.LetsGo.refl _) rfl rfl rfl rfl hCheck rfl
  · cases hStep

theorem DeliveryHolds.afterRequestClaimed (hTask : peer.tasks[task]? = some old)
  (hStep : peer.afterRequestClaimed task message answer = some after) :
  DeliveryHolds isPoint after := by
  unfold Peer.afterRequestClaimed at hStep
  split at hStep
  · rw [← Option.some.inj hStep]
    exact hHold.reject hTask _
  · split at hStep
    · rename_i hNew
      rw [← Option.some.inj hStep]
      exact hHold.afterNewSession hNew _ _ _ _ peer.history.initiated hTask (fun _ => trivial) rfl
    · cases hStep

theorem DeliveryHolds.withSent (hTask : peer.tasks[task]? = some old)
  (sent : List SentMessage) (hStage : DeliveryStage isPoint peer.deliveryView stage)
  (hCarry : carried stage = none) : DeliveryHolds isPoint
    { peer with
      tasks := peer.tasks.set task stage
      history := { peer.history with sent } } :=
  hHold.quiet (SessionManager.LetsGo.refl _) rfl rfl rfl hTask rfl hStage (Or.inl hCarry)

theorem DeliveryHolds.afterRequestAdded (hTask : peer.tasks[task]? = some old)
  (message : AuthMessage) (session : JsText) (answer : Answer) :
  DeliveryHolds isPoint (peer.afterRequestAdded task message session answer) := by
  unfold Peer.afterRequestAdded
  split
  · exact hHold.withSent hTask _ trivial rfl
  · exact hHold.reject hTask _

theorem DeliveryHolds.afterNonceCheck (hTask : peer.tasks[task]? = some (.nonceCheck message))
  (answer : Answer) : DeliveryHolds isPoint (peer.afterNonceCheck task message answer) := by
  have hValid : assertValidAuthMessage isPoint message =
      true :=
    hHold.stages _ (mem_of_getElem? hTask)
  unfold Peer.afterNonceCheck
  split
  · apply hHold.afterGetSession hTask
    · trivial
    · intro found _ _
      exact hValid
    · intro found
      cases found with
      | none => exact .inl rfl
      | some found => exact .inl rfl
  · exact hHold.reject hTask _

/- The session that passed the check may be the sender's. -/
theorem DeliveryHolds.afterLookup {found : JsText}
  (hTask : peer.tasks[task]? = some (.lookup message found))
  (hStep : peer.afterLookup task message found = some after) : DeliveryHolds isPoint after := by
  have hValid : assertValidAuthMessage isPoint message =
      true :=
    hHold.stages _ (mem_of_getElem? hTask)
  unfold Peer.afterLookup at hStep
  split at hStep
  · cases hStep
  · rename_i object hObj
    have hIdent : peer.deliveryView.identity found = object.peerIdentityKey :=
      DeliveryView.identity_of_objects hObj
    split at hStep
    · rw [← Option.some.inj hStep]
      exact hHold.reject hTask _
    · rename_i hMatches
      rcases identity_of_matchesSession hMatches with ⟨hResp, hOther⟩
      have hNamed : object.peerIdentityKey = some message.identityKey →
            peer.deliveryView.Named isPoint found := by
        intro hSender
        rw [← hIdent] at hSender
        exact ⟨message.identityKey, hSender, identityKey_of_valid hValid⟩
      have hStage : DeliveryStage isPoint peer.deliveryView (.verifying message found) := by
        constructor
        · exact hValid
        · change (peer.sessionManager.objects found).isSome = true
          rw [hObj]
          rfl
        · by_cases hType : message.messageType = .initialResponse
          · rw [hIdent]
            exact (hResp hType).imp id hNamed
          · exact .inr (hNamed (hOther hType))
        · intro hType
          exact hNamed (hOther hType)
      rw [← Option.some.inj hStep]
      exact hHold.setStage hTask hStage (Or.inl rfl)

theorem DeliveryHolds.afterClaimed (hTask : peer.tasks[task]? = some (.claimed message session))
  (hHeld : message.messageType = .initialResponse → session ∈ peer.sessionManager.sessionNonces)
  (hStep : peer.afterClaimed task message session answer = some after) :
  DeliveryHolds isPoint after := by
  rcases hHold.stages _ (mem_of_getElem? hTask) with ⟨hAddressed, hSigned⟩
  have hMark : ∀ next, DeliveryNext isPoint peer.deliveryView session .markAuthenticated next →
        (carried (.updating session .markAuthenticated .queued next) = none ∨
          carried (.updating session .markAuthenticated .queued next) =
            carried (.claimed message session)) →
          DeliveryHolds isPoint (peer.setPhase task session .markAuthenticated next .queued) := by
    intro next hNext hCarry
    have hStage :
        DeliveryStage isPoint peer.deliveryView (.updating session .markAuthenticated .queued
          next) :=
      ⟨nofun, trivial, hNext⟩
    exact hHold.setStage hTask hStage hCarry
  unfold Peer.afterClaimed at hStep
  cases hType : message.messageType with
  | initialRequest =>
    rw [hType] at hStep
    cases hStep
  | certificateRequest =>
    rw [hType] at hStep
    rw [← Option.some.inj hStep]
    exact hMark _ trivial (Or.inl rfl)
  | certificateResponse =>
    have hNamed := hAddressed.other (by rw [hType]; nofun)
    rw [hType] at hStep
    rw [← Option.some.inj hStep]
    exact hMark _ ⟨hAddressed.object, hNamed⟩ (Or.inl rfl)
  | general =>
    have hNamed := hAddressed.other (by rw [hType]; nofun)
    have hVouched : Vouched isPoint peer.deliveryView message session :=
      ⟨hAddressed.valid, hType, hAddressed.object, hNamed, hSigned⟩
    rw [hType] at hStep
    rw [← Option.some.inj hStep]
    refine hMark _ hVouched (Or.inr ?_)
    unfold carried
    simp only [if_pos hType]
  | initialResponse =>
    rw [hType] at hStep
    simp only at hStep
    split at hStep
    · cases hStep
    · rename_i object hObj
      rw [← Option.some.inj hStep]
      exact hHold.accept hTask hAddressed (hHeld hType) hObj _ answer

theorem DeliveryHolds.afterAccepted (hTask : peer.tasks[task]? = some (.accepted message session))
  (hStep : peer.afterAccepted task message session = some after) : DeliveryHolds isPoint after := by
  have hAcc :
      (peer.deliveryView.objects session).isSome = true ∧ peer.deliveryView.Named isPoint session :=
    hHold.stages _ (mem_of_getElem? hTask)
  have hCompleting :
    DeliveryStage isPoint peer.deliveryView (.completing message session) := trivial
  have hUpdating :
      DeliveryStage isPoint peer.deliveryView (.updating session (.validateInitial message) .queued
        (.initial message session)) :=
    ⟨fun _ => hAcc, trivial, rfl, rfl⟩
  unfold Peer.afterAccepted at hStep
  split at hStep
  · cases hStep
  · split at hStep
    · rw [← Option.some.inj hStep]
      exact hHold.setStage hTask hCompleting (Or.inl rfl)
    · rw [← Option.some.inj hStep]
      exact hHold.setStage hTask hUpdating (Or.inl rfl)

theorem DeliveryHolds.afterCompleting (hTask : peer.tasks[task]? = some old)
  (message : AuthMessage) (session : JsText) :
  DeliveryHolds isPoint (peer.afterCompleting task message session) := by
  have hReleased : DeliveryHolds isPoint
        { peer with
          tasks := peer.tasks.map (Peer.releaseResponse session) } := by
    apply hHold.mapTasks
    · intro stage
      cases stage <;> rfl
    · intro stage hStage
      cases stage with
      | awaitingResponse call other released => trivial
      | _ => exact hStage
  have hMapped : (peer.tasks.map (Peer.releaseResponse session))[task]? =
        some (Peer.releaseResponse session old) := by
    rw [getElem?_map, hTask]
    rfl
  refine hReleased.quiet (SessionManager.LetsGo.refl _) rfl rfl rfl hMapped rfl ?_ (Or.inl ?_)
  · split
    · trivial
    · split
      · trivial
      · trivial
  · split
    · rfl
    · split
      · rfl
      · rfl

end

-- Local calls

section

variable (hHold : DeliveryHolds isPoint peer) (hTask : peer.tasks[task]? = some old)

include hHold hTask

theorem DeliveryHolds.getAuthenticatedSession (call : Call)
  (now : Nat) : DeliveryHolds isPoint (peer.getAuthenticatedSession task call now) := by
  have hCreating : DeliveryStage isPoint peer.deliveryView (.creating call) := trivial
  unfold Peer.getAuthenticatedSession
  split
  · exact hHold.setStage hTask hCreating (Or.inl rfl)
  · apply hHold.afterGetSession hTask
    · trivial
    · intro found _ _
      trivial
    · intro found
      exact .inl rfl

theorem DeliveryHolds.afterAnswering (message : AuthMessage) (answer : Answer) :
  DeliveryHolds isPoint (peer.afterAnswering task message answer) := by
  unfold Peer.afterAnswering
  split
  · exact hHold.reject hTask _
  · split
    · exact hHold.finish hTask
    · split
      · exact hHold.finish hTask
      · exact hHold.getAuthenticatedSession hTask _ _

theorem DeliveryHolds.afterCalling (call : Call)
  (found : Option JsText) : DeliveryHolds isPoint (peer.afterCalling task call found) := by
  have hCreating : DeliveryStage isPoint peer.deliveryView (.creating call) := trivial
  have hReady : ∀ session, DeliveryStage isPoint peer.deliveryView
    (.ready call session) := fun _ => trivial
  unfold Peer.afterCalling
  split
  · exact hHold.setStage hTask hCreating (Or.inl rfl)
  · split
    · exact hHold.setStage hTask (hReady _) (Or.inl rfl)
    · exact hHold.setStage hTask hCreating (Or.inl rfl)

end

variable {call : Call}

section

variable (hHold : DeliveryHolds isPoint peer) (hTask : peer.tasks[task]? = some old)

include hHold hTask

theorem DeliveryHolds.afterCreating
  (hStep : peer.afterCreating task call answer = some after) : DeliveryHolds isPoint after := by
  unfold Peer.afterCreating at hStep
  split at hStep
  · rw [← Option.some.inj hStep]
    exact hHold.reject hTask _
  · split at hStep
    · rename_i hNew
      rw [← Option.some.inj hStep]
      exact hHold.afterNewSession hNew _ _ _ _ _ hTask (fun _ => trivial) rfl
    · cases hStep

theorem DeliveryHolds.afterHandshakeAdded (call : Call) (session : JsText) (answer : Answer) :
  DeliveryHolds isPoint (peer.afterHandshakeAdded task call session answer) := by
  unfold Peer.afterHandshakeAdded
  split
  · exact hHold.withSent hTask _ trivial rfl
  · exact hHold.reject hTask _

theorem DeliveryHolds.afterAwaitingResponse {released : Bool}
  (hStep : peer.afterAwaitingResponse task call session released answer = some after) :
  DeliveryHolds isPoint after := by
  unfold Peer.afterAwaitingResponse at hStep
  split at hStep
  · rw [← Option.some.inj hStep]
    apply hHold.afterGetSession hTask
    · trivial
    · intro found _ _
      trivial
    · intro found
      cases found with
      | none => exact .inl rfl
      | some found => exact .inl rfl
  · split at hStep
    · rw [← Option.some.inj hStep]
      apply hHold.afterGetSession hTask
      · trivial
      · intro found _ _
        trivial
      · intro found
        exact .inl rfl
    · cases hStep

theorem DeliveryHolds.afterHandshakeAnswered (call : Call) (found : Option JsText) :
  DeliveryHolds isPoint (peer.afterHandshakeAnswered task call found) := by
  have hReady : ∀ session, DeliveryStage isPoint peer.deliveryView
    (.ready call session) := fun _ => trivial
  unfold Peer.afterHandshakeAnswered
  split
  · exact hHold.reject hTask _
  · split
    · exact hHold.setStage hTask (hReady _) (Or.inl rfl)
    · exact hHold.reject hTask _

theorem DeliveryHolds.afterFailing (found : JsText)
  (answer : Answer) : DeliveryHolds isPoint (peer.afterFailing task found answer) := by
  have hGone := SessionManager.letsGo_removeSession peer.sessionManager found
  have hRejected : DeliveryStage isPoint peer.deliveryView (.rejected answer.error) := trivial
  refine hHold.quiet hGone ?_ rfl rfl hTask rfl hRejected (Or.inl rfl)
  unfold Peer.afterFailing Peer.deliveryView
  simp only [hGone.objects]

theorem DeliveryHolds.afterReady
  (hStep : Peer.afterReady isPoint peer task call session answer = some after) :
  DeliveryHolds isPoint after := by
  have hSigning : ∀ counterparty, DeliveryStage isPoint peer.deliveryView
        (.signing call session answer.nonce counterparty) :=
    fun _ => trivial
  unfold Peer.afterReady at hStep
  split at hStep
  · cases hStep
  · split at hStep
    · rw [← Option.some.inj hStep]
      exact hHold.finish hTask
    · rw [← Option.some.inj hStep]
      exact hHold.reject hTask _
    · split at hStep
      · split at hStep
        · rw [← Option.some.inj hStep]
          exact hHold.setStage hTask (hSigning _) (Or.inl rfl)
        · cases hStep
      · rw [← Option.some.inj hStep]
        exact hHold.reject hTask _

theorem DeliveryHolds.afterSigning {requestNonce : JsText} {counterparty : Option JsText}
  (hStep : peer.afterSigning task call session requestNonce counterparty answer = some after) :
  DeliveryHolds isPoint after := by
  unfold Peer.afterSigning at hStep
  split at hStep
  · cases hStep
  · rename_i object hObj
    split at hStep
    · have hNone := presented_changeBeforeSending call.purpose requestNonce
      have hUpdating : DeliveryStage isPoint peer.deliveryView (.updating session
              (Peer.changeBeforeSending call.purpose requestNonce) .queued
              (.send call session counterparty (peer.outbound call.purpose object
                requestNonce answer.signature))) := by
        refine ⟨?_, trivial, trivial⟩
        intro hPresented
        rw [hNone] at hPresented
        cases hPresented
      rw [← Option.some.inj hStep]
      exact hHold.setStage hTask hUpdating (Or.inl rfl)
    · rw [← Option.some.inj hStep]
      exact hHold.reject hTask _

end

-- Runs

/-
  A signature is accepted only if the sender made it for this key and these bytes.  The signature
  of an initial response names a session of the key that it was made for.
-/
def hasIdealSignature (peer : Peer) : PeerEvent → Bool
| .resume task answer =>
  match peer.tasks[task]? with
  | some (.verifying message session) =>
    !answer.valid ||
      peer.history.signatures.any fun signature =>
        signature.signer == message.identityKey &&
          signature.keyID == signingKeyID session message &&
          signature.data == signedData session message
  | _ => true
| .signed signature =>
  signature.messageType != .initialResponse || assertCanonicalBase64 signature.nonce 48
| _ => true

def keepsSession (peer : Peer) : PeerEvent → Bool
| .resume task _ =>
  match peer.tasks[task]? with
  | some (.claimed message session) =>
    message.messageType != .initialResponse || peer.sessionManager.sessionNonces.contains session
  | some (.updating _ _ (.changed found _) _) => peer.sessionManager.sessionNonces.contains found
  | _ => true
| _ => true

structure Relies (peer : Peer) (answer : Answer) (stage : Stage) : Prop where
  signed : ∀ message session, stage = .verifying message session →
      answer.valid = true → SignedBySender peer.deliveryView message session
  response : ∀ message session, stage = .claimed message session →
      message.messageType = .initialResponse → session ∈ peer.sessionManager.sessionNonces
  held : ∀ session change found validated next, stage =
          .updating session change (.changed found validated) next →
        found ∈ peer.sessionManager.sessionNonces

theorem relies_of_conditions (hTask : peer.tasks[task]? = some stage)
  (hIdeal : hasIdealSignature peer (.resume task answer) = true)
  (hKeeps : keepsSession peer (.resume task answer) = true) : Relies peer answer stage := by
  constructor
  · rintro message session rfl hValid
    unfold hasIdealSignature at hIdeal
    simp only [hTask, hValid, Bool.not_true, Bool.false_or, List.any_eq_true, Bool.and_eq_true,
      beq_iff_eq] at hIdeal
    rcases hIdeal with ⟨signature, hMem, ⟨hSigner, hKeyID⟩, hData⟩
    exact ⟨signature, hMem, hSigner, hKeyID, hData⟩
  · rintro message session rfl hType
    unfold keepsSession at hKeeps
    simp only [hTask, hType, bne_self_eq_false, Bool.false_or, contains_iff_mem] at hKeeps
    exact hKeeps
  · rintro session change found validated next rfl
    unfold keepsSession at hKeeps
    simp only [hTask, contains_iff_mem] at hKeeps
    exact hKeeps

theorem DeliveryHolds.resume
  (hHold : DeliveryHolds isPoint peer) (hTask : peer.tasks[task]? = some stage)
  (hRelies : Relies peer answer stage)
  (hStep : peer.resume isPoint task answer stage = some after) : DeliveryHolds isPoint after := by
  cases stage with
  | requestClaimed message => exact hHold.afterRequestClaimed hTask hStep
  | requestAdded message session =>
    rw [← Option.some.inj hStep]
    exact hHold.afterRequestAdded hTask message session answer
  | nonceCheck message =>
    rw [← Option.some.inj hStep]
    exact hHold.afterNonceCheck hTask answer
  | lookup message found => exact hHold.afterLookup hTask hStep
  | verifying message session =>
    rw [← Option.some.inj hStep]
    exact hHold.afterVerifying hTask (hRelies.signed message session rfl)
  | claimed message session =>
    exact hHold.afterClaimed hTask (hRelies.response message session rfl) hStep
  | accepted message session => exact hHold.afterAccepted hTask hStep
  | updating session change phase next =>
    refine hHold.afterUpdating hTask ?_ hStep
    rintro found validated rfl
    exact hRelies.held session change found validated next rfl
  | completing message session =>
    rw [← Option.some.inj hStep]
    exact hHold.afterCompleting hTask message session
  | answering message =>
    rw [← Option.some.inj hStep]
    exact hHold.afterAnswering hTask message answer
  | current message session found => exact hHold.afterCurrent hTask hStep
  | awaitingCertificates message session released =>
    exact hHold.afterAwaitingCertificates hTask hStep
  | calling call found =>
    rw [← Option.some.inj hStep]
    exact hHold.afterCalling hTask call found
  | creating call => exact hHold.afterCreating hTask hStep
  | handshakeAdded call session =>
    rw [← Option.some.inj hStep]
    exact hHold.afterHandshakeAdded hTask call session answer
  | awaitingResponse call session released => exact hHold.afterAwaitingResponse hTask hStep
  | handshakeAnswered call session found =>
    rw [← Option.some.inj hStep]
    exact hHold.afterHandshakeAnswered hTask call found
  | failing found =>
    rw [← Option.some.inj hStep]
    exact hHold.afterFailing hTask found answer
  | ready call session => exact hHold.afterReady hTask hStep
  | signing call session requestNonce counterparty => exact hHold.afterSigning hTask hStep
  | finished => cases hStep
  | rejected error => cases hStep

/- A signature more changes nothing that was known. -/
theorem DeliveryHolds.signed (hHold : DeliveryHolds isPoint peer) {signature : Signature} (hIdeal :
    signature.messageType = .initialResponse → assertCanonicalBase64 signature.nonce 48 = true) :
  DeliveryHolds isPoint
    { peer with
      history := { peer.history with
        signatures := peer.history.signatures ++ [signature] } } := by
  have hExt : peer.deliveryView.Extends isPoint
        { peer.deliveryView with
          signatures := peer.history.signatures ++ [signature] } :=
    { DeliveryView.Extends.refl isPoint peer.deliveryView with
      signatures := fun h => mem_append_left _ h }
  refine ⟨hHold.indexed, ?_, ?_, ?_, hHold.kept, hHold.once, hHold.claimed⟩
  · refine ⟨fun h => (hHold.view.objects h).extends hExt,
        hHold.view.created, hHold.view.validated, ?_⟩
    intro other hMem
    rcases mem_append.mp hMem with hOld | hNew
    · exact hHold.view.signatures hOld
    · rw [mem_singleton.mp hNew]
      exact hIdeal
  · intro stage hMem
    exact (hHold.stages stage hMem).extends hHold.nonces hExt
  · intro delivered hMem
    exact (hHold.delivered delivered hMem).extends hExt

theorem DeliveryHolds.step
  {peer : Peer} (hHold : DeliveryHolds isPoint peer) {event : PeerEvent} {after : Peer}
  (hStep : Peer.step isPoint peer event = some after)
  (hIdeal : hasIdealSignature peer event = true) (hKeeps : keepsSession peer event = true) :
  DeliveryHolds isPoint after := by
  cases event with
  | deliver message now => exact hHold.deliver hStep
  | call purpose identityKey now =>
    have hFin : DeliveryStage isPoint peer.deliveryView .finished := trivial
    simp only [Peer.step] at hStep
    split at hStep
    · rw [← Option.some.inj hStep]
      have hAdded : DeliveryHolds isPoint
            { peer with
              tasks := peer.tasks ++ [Stage.finished] } :=
        hHold.addTask (SessionManager.LetsGo.refl _) rfl rfl rfl rfl hFin rfl
      have hTask : (peer.tasks ++ [Stage.finished])[peer.tasks.length]? = some .finished :=
        getElem?_concat_length
      exact hAdded.getAuthenticatedSession hTask _ _
    · cases hStep
  | resume task answer =>
    rcases bind_eq_some_iff.mp hStep with ⟨stage, hTask, hResume⟩
    exact hHold.resume hTask (relies_of_conditions hTask hIdeal hKeeps) hResume
  | signed signature =>
    rw [← Option.some.inj hStep]
    apply hHold.signed
    intro hType
    unfold hasIdealSignature at hIdeal
    simp only [hType, bne_self_eq_false, Bool.false_or] at hIdeal
    exact hIdeal

theorem deliveryHolds_create (isPoint : JsText → Bool) (identityPublicKey : JsText)
  (certificatesToRequest : RequestedCertificateSet) (options : SessionManagerOptions)
  (autoPersist : Bool) : DeliveryHolds isPoint (Peer.create identityPublicKey certificatesToRequest
      options autoPersist) where
  indexed := ⟨fun hMem => absurd hMem not_mem_nil,
      fun hSome => absurd hSome (some_ne_none _).symm,
      fun hSome => absurd hSome (some_ne_none _).symm⟩
  view := ⟨fun hSome => absurd hSome (some_ne_none _).symm,
      fun hMem => absurd hMem not_mem_nil,
      fun hMem => absurd hMem not_mem_nil,
      fun hMem => absurd hMem not_mem_nil⟩
  stages := fun _ hMem => absurd hMem not_mem_nil
  delivered := fun _ hMem => absurd hMem not_mem_nil
  kept := fun _ hMem => absurd hMem not_mem_nil
  once := nodup_nil
  claimed := fun _ hMem => absurd hMem not_mem_nil

/-
  The sender signed the payload for the session, as a general message or as one about
  certificates, and the certificates that the peer requires were validated for the session.
-/
structure IsSigned (peer : Peer) (delivered : Delivered) : Prop where
  signed :
    ∃ signature ∈ peer.history.signatures, signature.signer = delivered.sender ∧ signature.keyID =
          keyID delivered.nonce delivered.session ∧
        signature.data = delivered.payload ∧ signature.messageType ≠ .initialResponse
  validated :
    peer.certificatesToRequest.certifiers ≠ [] → delivered.session ∈ peer.history.validated

theorem ne_of_canonical {first second : JsText} (hFst : assertCanonicalBase64 first 32 = true)
  (hSnd : assertCanonicalBase64 second 48 = true) : first ≠ second := by
  rintro rfl
  rcases base64_of_assertCanonicalBase64 hFst with ⟨bytes, hBytes, hShort⟩
  rcases base64_of_assertCanonicalBase64 hSnd with ⟨other, hOther, hLong⟩
  rw [hBytes] at hOther
  rw [Option.some.inj hOther, hLong] at hShort
  cases hShort

theorem space_notMem_of_canonical {size : Nat} (hNonce : assertCanonicalBase64 nonce size = true) :
  space ∉ nonce := by
  rcases base64_of_assertCanonicalBase64 hNonce with ⟨bytes, hBytes, -⟩
  exact space_notMem_of_base64 hBytes

theorem DeliveryHolds.isSigned (hHold : DeliveryHolds isPoint peer) {delivered : Delivered}
  (hMem : delivered ∈ peer.history.delivered) : IsSigned peer delivered := by
  have hDeliv := hHold.delivered delivered hMem
  rcases hDeliv.signed with ⟨signature, hSig, hSigner, hKeyID, hData⟩
  refine ⟨⟨signature, hSig, hSigner, hKeyID, hData, ?_⟩, hDeliv.released⟩
  intro hType
  have hLong := hHold.view.signatures hSig hType
  have hSame :=
    (keyID_injective (space_notMem_of_canonical hLong) (space_notMem_of_canonical hDeliv.nonce)
      hKeyID).1
  exact ne_of_canonical hDeliv.nonce hLong hSame.symm

theorem DeliveryHolds.nodup_keyID (hHold : DeliveryHolds isPoint peer) :
  (peer.history.delivered.map fun delivered =>
    keyID delivered.nonce delivered.session).Nodup := by
  have hClaims : (peer.history.delivered.map Delivered.claim).Nodup :=
    (nodup_append.mp hHold.once).1
  apply List.Nodup.map_on _ hClaims.of_map
  intro first hFst second hSnd hSame
  have hBoth := keyID_injective (space_notMem_of_canonical (hHold.delivered first hFst).nonce)
    (space_notMem_of_canonical (hHold.delivered second hSnd).nonce) hSame
  exact inj_on_of_nodup_map hClaims hFst hSnd (Prod.ext hBoth.2 hBoth.1)

/-
  In every run with ideal signatures in which no update puts back a session that the store let go,
  the listeners were called once for each signature, and with what was signed.
-/
theorem general_delivery (isPoint : JsText → Bool) (identityPublicKey : JsText)
  (certificatesToRequest : RequestedCertificateSet) (options : SessionManagerOptions)
  (autoPersist : Bool) (events : List PeerEvent) {last : Peer}
  (hRun : Peer.runs isPoint events (Peer.create identityPublicKey certificatesToRequest
          options autoPersist) =
      some last)
  (hGood :
    EventRun.Along (Peer.step isPoint) (fun peer event _ =>
        hasIdealSignature peer event = true ∧ keepsSession peer event = true)
      (Peer.create identityPublicKey certificatesToRequest options autoPersist)
      events) :
  (last.history.delivered.map fun delivered => keyID delivered.nonce delivered.session).Nodup ∧
    ∀ delivered ∈ last.history.delivered, IsSigned last delivered := by
  have hHolds : DeliveryHolds isPoint last :=
    EventRun.inv_of_along (fun _ _ _ hBefore hStep hGood => hBefore.step hStep hGood.1 hGood.2)
      events
      (deliveryHolds_create isPoint identityPublicKey certificatesToRequest options autoPersist)
      hRun hGood
  exact ⟨hHolds.nodup_keyID, fun _ hMember => hHolds.isSigned hMember⟩

def signedRun (messageType : MessageType) (payload : List UInt8) : List PeerEvent :=
  [.deliver
      { messageType := .initialRequest
        identityKey := otherExampleKey
        initialNonce := some (exampleNonce 65) } 0,
    .resume 0 { nonce := exampleNonce 66 }, .resume 0 {}, .signed
      { signer := otherExampleKey
        messageType
        nonce := exampleRequestNonce
        yourNonce := exampleNonce 66
        data := payload },
    .deliver
      { messageType := .general
        identityKey := otherExampleKey
        nonce := some exampleRequestNonce
        yourNonce := some (exampleNonce 66)
        payload := some payload
        signature := some [1] } 0] ++
  resumed 1 9

theorem general_delivery_signed :
  ∃ last, Peer.runs (fun _ => true) (signedRun .general [7]) examplePeer = some last ∧
      last.history.delivered.length = 1 ∧
      ∀ delivered ∈ last.history.delivered, IsSigned last delivered := by
  have hSome : (Peer.runs (fun _ => true) (signedRun .general [7]) examplePeer).map
          (fun last => last.history.delivered.length) =
        some 1 := rfl
  rcases Option.map_eq_some_iff.mp hSome with ⟨last, hRun, hCount⟩
  have hGood :
      EventRun.Along (Peer.step fun _ => true) (fun peer event _ =>
          hasIdealSignature peer event = true ∧ keepsSession peer event = true)
        examplePeer (signedRun .general [7]) :=
    of_decide_eq_true rfl
  exact ⟨last, hRun, hCount, (general_delivery (fun _ => true) exampleKey ⟨[], []⟩ {}
        true (signedRun .general [7]) hRun hGood).2⟩

/-
  The only signature of the sender is that of a request for
  certificates, and its text is delivered to the listeners.
-/
theorem relabelled_request_delivered :
  (Peer.runs (fun _ => true) (signedRun .certificateRequest (requestData ⟨[], []⟩))
        examplePeer).map
      (fun last =>
        (last.history.delivered.map fun delivered => (delivered.sender, delivered.payload),
          last.history.signatures.map (·.messageType))) =
    some ([(otherExampleKey, requestData ⟨[], []⟩)], [.certificateRequest]) ∧
    EventRun.Along (Peer.step fun _ => true) (fun peer event _ =>
        hasIdealSignature peer event = true ∧ keepsSession peer event = true)
      examplePeer
      (signedRun .certificateRequest (requestData ⟨[], []⟩)) :=
  ⟨rfl, of_decide_eq_true rfl⟩

end TsStack.Auth
