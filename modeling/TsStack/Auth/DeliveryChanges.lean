import TsStack.Auth.DeliveryFacts
import TsStack.Auth.PeerSteps

/-
  What is known of claimed messages while sessions change.

  A new session has a nonce of its own; a change keeps the
  policy of the session and its nonce; and an update of a
  session that the store still holds keeps its claims.
-/

-- Claims

open List Option

namespace TsStack.Auth

open Peer Function

variable {isPoint : JsText → Bool} {peer : Peer} {task : Nat}

theorem ClaimsKept.admits
  {next : Peer} (hKept : ClaimsKept peer) {session : PeerSession} {outcome : Option SessionError}
  (hAdmits : peer.sessionManager.Admits session (outcome, next.sessionManager))
  (hHeld : session.sessionNonce ∈ peer.history.created →
      session.sessionNonce ∈ peer.sessionManager.sessionNonces)
  (hClaimed : next.history.claimed = peer.history.claimed)
  (hCreated : ∀ {nonce}, nonce ∈ peer.history.created → nonce ∈ next.history.created) :
  ClaimsKept next := by
  intro claim hClaim
  rw [hClaimed] at hClaim
  rcases hKept claim hClaim with ⟨hNonce, hConsumed⟩
  refine ⟨hCreated hNonce, ?_⟩
  intro hAfter
  have hPre : claim.1 ∈ peer.sessionManager.sessionNonces := by
    rcases hAdmits.held hAfter with hOld | hOwn
    · exact hOld
    · rw [hOwn] at hNonce ⊢
      exact hHeld hNonce
  have hSame := hAdmits.consumed hPre hAfter
  simp only at hSame
  rw [hSame]
  exact hConsumed hPre

theorem tasks_afterAdding
  (peer : Peer) (task : Nat) (outcome : Option SessionError × SessionManager) (stage : Stage) :
  ∃ reached, (peer.afterAdding task outcome stage).tasks = peer.tasks.set task reached ∧
      (reached = stage ∨ ∃ error, reached = .rejected error) := by
  unfold afterAdding
  cases outcome.1 with
  | none => exact ⟨stage, rfl, .inl rfl⟩
  | some e => exact ⟨_, rfl, .inr ⟨e.message, rfl⟩⟩

variable {object : PeerSession}

variable {session : JsText}

theorem DeliveryView.ObjectHolds.extends
  {before after : DeliveryView} (hObj : before.ObjectHolds session object)
  (hExt : before.Extends isPoint after) : after.ObjectHolds session object where
  created := hExt.created hObj.created
  policy := by
    rw [hExt.policy]
    exact hObj.policy
  required := by
    rw [hExt.policy]
    exact hObj.required
  validated := fun hReq hValid =>
    (hObj.validated hReq hValid).imp hExt.validated
      fun ⟨nonce, hIdent, hMem⟩ => ⟨nonce, hIdent, hExt.validated hMem⟩

variable {view : DeliveryView}

theorem DeliveryView.isSome_of_identity
  {identityKey : JsText} (hIdent : view.identity session = some identityKey) :
  (view.objects session).isSome = true := by
  rcases bind_eq_some_iff.mp hIdent with ⟨object, hObj, -⟩
  rw [hObj]
  rfl

-- New sessions

def DeliveryView.withNonce
  (view : DeliveryView) (nonce : JsText) (object : Option PeerSession) : DeliveryView :=
  { view with
    objects := Function.update view.objects nonce object
    created := view.created ++ [nonce] }

variable {nonce : JsText}

theorem DeliveryView.objects_withNonce
  (hNew : view.objects nonce = none) (object : Option PeerSession)
  (hSome : (view.objects session).isSome = true) :
  (view.withNonce nonce object).objects session = view.objects session := by
  have hNe : session ≠ nonce := by
    rintro rfl
    rw [hNew] at hSome
    cases hSome
  exact update_of_ne hNe object view.objects

theorem DeliveryView.identity_withNonce
  (hNew : view.objects nonce = none) (object : Option PeerSession)
  (hSome : (view.objects session).isSome = true) :
  (view.withNonce nonce object).identity session = view.identity session := by
  unfold DeliveryView.identity
  rw [DeliveryView.objects_withNonce hNew object hSome]

theorem DeliveryView.extends_withNonce
  (isPoint : JsText → Bool) (hNew : view.objects nonce = none) (object : Option PeerSession) :
  view.Extends isPoint (view.withNonce nonce object) where
  policy := rfl
  objects := fun hSome => by
    rw [DeliveryView.objects_withNonce hNew object hSome]
    exact hSome
  named := fun ⟨identityKey, hHas, hValid⟩ => by
    refine ⟨identityKey, ?_, hValid⟩
    rw [DeliveryView.identity_withNonce hNew object (DeliveryView.isSome_of_identity hHas)]
    exact hHas
  indexed := fun hIdent _ => by
    rw [DeliveryView.identity_withNonce hNew object (DeliveryView.isSome_of_identity hIdent)]
    exact hIdent
  nameless := fun hSome hNone => by
    rw [DeliveryView.identity_withNonce hNew object hSome]
    exact .inl hNone
  created := fun hMem => mem_append_left _ hMem
  validated := id
  signatures := id

theorem DeliveryView.Holds.withNonce
  (hHold : view.Holds isPoint) (hCanon : assertCanonicalBase64 nonce 48 = true)
  (hNew : view.objects nonce = none) {object : Option PeerSession} (hObj :
    ∀ session, object = some session → (view.withNonce nonce object).ObjectHolds nonce session) :
  (view.withNonce nonce object).Holds isPoint := by
  have hExt := DeliveryView.extends_withNonce isPoint hNew object
  constructor
  · intro session found hFound
    by_cases hOwn : session = nonce
    · change update view.objects nonce object session = some found at hFound
      rw [hOwn, update_self] at hFound
      rw [hOwn]
      exact hObj found hFound
    · change update view.objects nonce object session = some found at hFound
      rw [update_of_ne hOwn] at hFound
      exact (hHold.objects hFound).extends hExt
  · intro other hOther
    rcases mem_append.mp hOther with hOld | hOwn
    · exact hHold.created hOld
    · rw [mem_singleton.mp hOwn]
      exact hCanon
  · intro session hMem
    rcases hHold.validated hMem with ⟨hCreated, hNamed⟩
    exact ⟨hExt.created hCreated, hExt.named hNamed⟩
  · exact hHold.signatures

theorem DeliveryHolds.objects_of_new
  (hHold : DeliveryHolds isPoint peer) (hNew : nonce ∉ peer.history.created) :
  peer.deliveryView.objects nonce = none := by
  cases hObj : peer.deliveryView.objects nonce with
  | none => rfl
  | some object => exact absurd (hHold.view.objects hObj).created hNew

theorem objectHolds_newSession
  {peerNonce peerIdentityKey : Option JsText} {date : Nat} (nonce : JsText) :
  (peer.deliveryView.withNonce nonce (some
      (peer.newSession nonce peerNonce peerIdentityKey date))).ObjectHolds nonce
      (peer.newSession nonce peerNonce peerIdentityKey date) where
  created := mem_append_right _ mem_cons_self
  policy := rfl
  required := rfl
  validated := by
    intro hReq hValid
    unfold newSession at hReq hValid
    simp only at hReq hValid
    rw [hReq] at hValid
    cases hValid

variable {old : Stage}

theorem DeliveryHolds.afterNewSession
  (hHold : DeliveryHolds isPoint peer) (hNew : peer.isNewNonce nonce = true)
  (peerNonce peerIdentityKey : Option JsText) (date now : Nat) (initiated : List JsText)
  {stage : Stage} (hTask : peer.tasks[task]? = some old)
  (hStage : ∀ view, DeliveryStage isPoint view stage) (hCarry : carried stage = none) :
  DeliveryHolds isPoint (({ peer with
      history := { peer.history with
        created := peer.history.created ++ [nonce]
        initiated } } : Peer).afterAdding task
      (peer.sessionManager.addSession (peer.newSession nonce peerNonce peerIdentityKey date) now)
      stage) := by
  rcases isNewNonce_iff.mp hNew with ⟨hCanon, hAbsent⟩
  have hNone := hHold.objects_of_new hAbsent
  have hAdds := SessionManager.admits_addSession peer.sessionManager
    (peer.newSession nonce peerNonce peerIdentityKey date) now
  have hIdx := hAdds.indexed hHold.indexed (by
    change ∀ old, peer.deliveryView.objects nonce = some old → _
    rw [hNone]
    nofun)
  have hKept : ∀ tasks : List Stage, ClaimsKept
        { peer with
          sessionManager := (peer.sessionManager.addSession
            (peer.newSession nonce peerNonce peerIdentityKey date) now).2
          tasks
          history := { peer.history with
            created := peer.history.created ++ [nonce]
            initiated } } :=
    fun _ =>
      hHold.kept.admits hAdds (fun h => absurd h hAbsent) rfl fun h => mem_append_left _ h
  cases hOut :
    (peer.sessionManager.addSession (peer.newSession nonce peerNonce peerIdentityKey date)
      now).1 with
  | none =>
    have hObjects := (hAdds.admitted hOut).1
    refine hHold.grow hIdx (peer.deliveryView.withNonce nonce (some
          (peer.newSession nonce peerNonce peerIdentityKey date)))
      ?_ (DeliveryView.extends_withNonce isPoint hNone _)
      (hHold.view.withNonce hCanon hNone ?_) (hKept _) rfl rfl hTask ?_ (hStage _)
      (Or.inl hCarry)
    · unfold afterAdding deliveryView DeliveryView.withNonce
      simp only [hObjects]
      rfl
    · intro session hSess
      rw [← some.inj hSess]
      exact objectHolds_newSession nonce
    · unfold afterAdding
      simp only [hOut]
  | some e =>
    have hObjects := hAdds.refused (by rw [hOut]; rfl)
    have hRejected : DeliveryStage isPoint (peer.deliveryView.withNonce nonce none)
      (.rejected e.message) := trivial
    refine hHold.grow hIdx (peer.deliveryView.withNonce nonce none)
      ?_ (DeliveryView.extends_withNonce isPoint hNone _)
      (hHold.view.withNonce hCanon hNone ?_) (hKept _) rfl rfl hTask ?_ hRejected
      (Or.inl rfl)
    · have hSame :
          update peer.sessionManager.objects nonce none = peer.sessionManager.objects := by
        rw [← hNone]
        exact update_eq_self nonce _
      unfold afterAdding deliveryView DeliveryView.withNonce
      simp only [hObjects, hSame]
    · intro session hSess
      cases hSess
    · unfold afterAdding
      simp only [hOut]

-- Changes of a session

def DeliveryView.withChange
  (view : DeliveryView) (session : JsText) (change : PeerSession → PeerSession)
  (validated : List JsText) : DeliveryView :=
  { view with
    objects := Function.update view.objects session ((view.objects session).map change)
    validated }

variable {validated : List JsText} {change : PeerSession → PeerSession}

theorem DeliveryView.isSome_withChange {other : JsText}
  (hSome : (view.objects other).isSome = true) :
  ((view.withChange session change validated).objects other).isSome = true := by
  unfold DeliveryView.withChange
  by_cases hOwn : other = session
  · simp only [hOwn, update_self]
    rw [hOwn] at hSome
    rw [isSome_map]
    exact hSome
  · simp only [update_of_ne hOwn]
    exact hSome

theorem DeliveryView.objects_withChange {other : JsText} {found : PeerSession}
  (hFound : (view.withChange session change validated).objects other = some found) :
  view.objects other = some found ∨ other = session ∧
      ∃ object, view.objects session = some object ∧ found = change object := by
  unfold DeliveryView.withChange at hFound
  by_cases hOwn : other = session
  · simp only [hOwn, update_self] at hFound
    rcases map_eq_some_iff.mp hFound with ⟨object, hObj, hSame⟩
    exact .inr ⟨hOwn, object, hObj, hSame.symm⟩
  · simp only [update_of_ne hOwn] at hFound
    exact .inl hFound

theorem DeliveryView.identity_withChange
  (hChange : ∀ object : PeerSession, (change object).peerIdentityKey = object.peerIdentityKey)
  (validated : List JsText) (other : JsText) :
  (view.withChange session change validated).identity other = view.identity other := by
  unfold DeliveryView.identity DeliveryView.withChange
  by_cases hOwn : other = session
  · simp only [hOwn, update_self]
    cases view.objects session with
    | none => rfl
    | some object => rw [map_some, bind_some, bind_some, hChange]
  · simp only [update_of_ne hOwn]

theorem DeliveryView.extends_withChange
  (isPoint : JsText → Bool) (view : DeliveryView) (session : JsText)
  (change : PeerSession → PeerSession)
  (hChange : ∀ object : PeerSession, (change object).peerIdentityKey = object.peerIdentityKey)
  (hValidated : ∀ {nonce}, nonce ∈ view.validated → nonce ∈ validated) :
  view.Extends isPoint (view.withChange session change validated) where
  policy := rfl
  objects := DeliveryView.isSome_withChange
  named := fun ⟨identityKey, hHas, hValid⟩ => by
    refine ⟨identityKey, ?_, hValid⟩
    rw [DeliveryView.identity_withChange hChange]
    exact hHas
  indexed := fun hIdent _ => by
    rw [DeliveryView.identity_withChange hChange]
    exact hIdent
  nameless := fun _ hNone => by
    rw [DeliveryView.identity_withChange hChange]
    exact .inl hNone
  created := id
  validated := hValidated
  signatures := id

theorem DeliveryView.Holds.withChange
  (hHold : view.Holds isPoint) {change : PeerSession → PeerSession}
  (hExt : view.Extends isPoint (view.withChange session change validated))
  (hObj : ∀ object, view.objects session = some object → (view.withChange session change
        validated).ObjectHolds session (change object))
  (hValid : ∀ other ∈ validated, other ∈ view.validated ∨
        other ∈ view.created ∧ view.Named isPoint other) :
  (view.withChange session change validated).Holds
    isPoint := by
  constructor
  · intro other found hFound
    rcases DeliveryView.objects_withChange hFound with hOld | ⟨rfl, object, hOld, rfl⟩
    · exact (hHold.objects hOld).extends hExt
    · exact hObj object hOld
  · exact hHold.created
  · intro other hMem
    rcases hValid other hMem with hOld | hNew
    · rcases hHold.validated hOld with ⟨hCreated, hNamed⟩
      exact ⟨hCreated, hExt.named hNamed⟩
    · exact ⟨hNew.1, hExt.named hNew.2⟩
  · exact hHold.signatures

theorem DeliveryHolds.afterChange {next : Peer} (hHold : DeliveryHolds isPoint peer)
  (hObj : peer.sessionManager.objects session = some object)
  (hIdent : ∀ object : PeerSession, (change object).peerIdentityKey = object.peerIdentityKey)
  (hNonce : ∀ object : PeerSession, (change object).sessionNonce = object.sessionNonce)
  (hValid : ∀ {nonce}, nonce ∈ peer.history.validated → nonce ∈ validated) (hChanged :
    (peer.deliveryView.withChange session change validated).ObjectHolds session (change object))
  (hGood : ∀ other ∈ validated, other ∈ peer.history.validated ∨
        other ∈ peer.history.created ∧ peer.deliveryView.Named isPoint other)
  (hManager : next.sessionManager = peer.sessionManager.mutate session change)
  (hView : next.deliveryView = peer.deliveryView.withChange session change validated)
  (hDeliv : next.history.delivered = peer.history.delivered)
  (hClaimed : next.history.claimed = peer.history.claimed) {stage : Stage}
  (hTask : peer.tasks[task]? = some old) (hTasks : next.tasks = peer.tasks.set task stage)
  (hStage : DeliveryStage isPoint (peer.deliveryView.withChange session change validated) stage)
  (hCarry : carried stage = none ∨ carried stage = carried old) : DeliveryHolds isPoint next := by
  have hExt :=
    DeliveryView.extends_withChange isPoint peer.deliveryView session change hIdent hValid
  have hCreated : next.history.created = peer.history.created := congrArg DeliveryView.created hView
  refine hHold.grow ?_ (peer.deliveryView.withChange session change validated) hView hExt
    (hHold.view.withChange hExt ?_ hGood) ?_ hDeliv hClaimed hTask hTasks hStage hCarry
  · rw [hManager]
    apply hHold.indexed.mutate hObj (hNonce object)
    intro key hKey
    rw [hIdent]
    exact hKey
  · intro other hOther
    have hSame := hObj.symm.trans hOther
    rw [← some.inj hSame]
    exact hChanged
  · intro claim hClaim
    rw [hClaimed] at hClaim
    rw [hCreated, hManager]
    exact hHold.kept claim hClaim

theorem policy_apply (change : SessionChange) (date : Nat) (session : PeerSession) :
  (change.apply date session).certificatePolicy = session.certificatePolicy ∧
    (change.apply date session).certificatesRequired = session.certificatesRequired ∧
    (change.apply date session).certificatesValidated =
      session.certificatesValidated := by
  cases change <;> exact ⟨rfl, rfl, rfl⟩

theorem DeliveryView.ObjectHolds.congr
  {other : PeerSession} (hObj : view.ObjectHolds session object)
  (hPolicy : other.certificatePolicy = object.certificatePolicy)
  (hReq : other.certificatesRequired = object.certificatesRequired)
  (hValid : other.certificatesValidated = object.certificatesValidated)
  (hIdent : other.peerIdentityKey = object.peerIdentityKey) : view.ObjectHolds session other where
  created := hObj.created
  policy := hPolicy.trans hObj.policy
  required := hReq.trans hObj.required
  validated := by
    rw [hReq, hValid, hIdent]
    exact hObj.validated

theorem carried_updating
  (session : JsText) (change : SessionChange) (phase other : Phase) (next : Continuation) :
  carried (.updating session change phase next) =
    carried (.updating session change other next) := by
  cases next <;> rfl

-- Updates of a session

variable {session : JsText} {change : SessionChange} {next : Continuation} {answer : Answer}
variable {after : Peer} {found : JsText}

theorem DeliveryHolds.afterHeld (hHold : DeliveryHolds isPoint peer)
  (hTask : peer.tasks[task]? = some (.updating session change (.held found) next))
  (hStep : peer.afterHeld task session change next found answer = some after) :
  DeliveryHolds isPoint after := by
  rcases hHold.stages _ (mem_of_getElem? hTask) with ⟨hSess, hFound, hNext⟩
  have hValidating : ∀ requested policy matchesHandshake,
      (∀ message, change = .validateInitial message →
        matchesHandshake = true) →
        DeliveryHolds isPoint (peer.setPhase task session change next
          (.validating found requested policy matchesHandshake)) := by
    intro requested policy matchesHandshake hInit
    have hStage : DeliveryStage isPoint peer.deliveryView
          (.updating session change (.validating found requested policy matchesHandshake) next) :=
      ⟨hSess, ⟨hFound, hInit⟩, hNext⟩
    exact hHold.setStage hTask hStage (Or.inr (carried_updating _ _ _ _ _))
  have hPlain : ∀ object, peer.sessionManager.objects found = some object →
        change.presented = none → DeliveryHolds isPoint (({ peer with
          sessionManager := peer.sessionManager.mutate found (change.apply answer.date) } :
          Peer).setPhase task session change next
          (.changed found object.certificatesValidated)) := by
    intro object hObj hNone
    rcases policy_apply change answer.date object with ⟨hPolicy, hReq, hValid⟩
    have hExt :=
      DeliveryView.extends_withChange isPoint peer.deliveryView found (change.apply answer.date)
        (peerIdentityKey_apply change answer.date) fun h => h
    have hOut : OutcomeHolds (peer.deliveryView.withChange found (change.apply answer.date)
            peer.deliveryView.validated)
          session change object.certificatesValidated := by
      constructor
      · intro hPresented
        rw [hNone] at hPresented
        cases hPresented
      · rintro message rfl
        cases hNone
    refine hHold.afterChange hObj (peerIdentityKey_apply change answer.date)
      (sessionNonce_apply change answer.date) (fun h => h)
      ?_ (fun _ => .inl) rfl rfl rfl rfl hTask rfl ⟨?_, hOut, hNext.extends hExt⟩
      (Or.inr (carried_updating _ _ _ _ _))
    · exact ((hHold.view.objects hObj).extends hExt).congr hPolicy hReq hValid
        (peerIdentityKey_apply change answer.date object)
    · intro hPresented
      rw [hNone] at hPresented
      cases hPresented
  unfold Peer.afterHeld at hStep
  split at hStep
  · cases hStep
  · rename_i object hObj
    split at hStep
    · rw [← some.inj hStep]
      exact hValidating _ _ _ fun _ _ => rfl
    · split at hStep
      · rw [← some.inj hStep]
        exact hHold.reject hTask _
      · rw [← some.inj hStep]
        exact hValidating _ _ _ nofun
    · rename_i hInit hResp
      rw [← some.inj hStep]
      apply hPlain object hObj
      cases change with
      | validateInitial message => exact absurd rfl (hInit message)
      | matchResponse message => exact absurd rfl (hResp message)
      | _ => rfl

def withVerdict
  (validated : List JsText) (session : JsText) (matchesHandshake : Bool) : List JsText :=
  if matchesHandshake then validated ++ [session]
  else validated

variable {matchesHandshake : Bool}

theorem mem_withVerdict {other : JsText} :
  other ∈ withVerdict validated session matchesHandshake ↔ other ∈ validated ∨
      matchesHandshake = true ∧ other = session := by
  unfold withVerdict
  cases matchesHandshake with
  | true =>
    rw [if_pos rfl, mem_append, mem_singleton]
    exact or_congr_right ⟨fun h => ⟨rfl, h⟩, And.right⟩
  | false =>
    rw [if_neg Bool.false_ne_true]
    exact ⟨.inl, fun h => h.resolve_right nofun⟩

theorem DeliveryView.ObjectHolds.withVerdict (hObj : view.ObjectHolds found object)
  (hFound : found = session ∨ object.peerIdentityKey = some session) (requested : Option JsText)
  (matchesHandshake : Bool) (date : Nat) :
  (view.withChange found (afterValidation requested matchesHandshake date)
    (Auth.withVerdict view.validated session matchesHandshake)).ObjectHolds found
    (afterValidation requested matchesHandshake date object) where
  created := hObj.created
  policy := hObj.policy
  required := hObj.required
  validated := by
    intro hReq hValid
    change (matchesHandshake || object.certificatesValidated) = true at hValid
    change found ∈ Auth.withVerdict view.validated session matchesHandshake ∨
      ∃ nonce, object.peerIdentityKey = some nonce ∧ nonce ∈ Auth.withVerdict view.validated session
        matchesHandshake
    rw [Bool.or_eq_true] at hValid
    rcases hValid with hNow | hPre
    · have hMem : session ∈ Auth.withVerdict view.validated session
            matchesHandshake :=
        mem_withVerdict.mpr (Or.inr ⟨hNow, rfl⟩)
      rcases hFound with rfl | hIdent
      · exact .inl hMem
      · exact .inr ⟨session, hIdent, hMem⟩
    · refine (hObj.validated hReq hPre).imp ?_ ?_
      · exact fun h => mem_withVerdict.mpr (Or.inl h)
      · rintro ⟨nonce, hIdent, hMem⟩
        exact ⟨nonce, hIdent, mem_withVerdict.mpr (Or.inl hMem)⟩

section

variable (hHold : DeliveryHolds isPoint peer)

include hHold

/- What is known once certificates were found valid. -/
theorem DeliveryHolds.withVerdict {requested : Option JsText} {policy : RequestedCertificateSet}
  (hTask : peer.tasks[task]? = some (.updating session change (.validating found requested policy
          matchesHandshake) next))
  (hPresented : change.presented.isSome = true)
  (hObj : peer.sessionManager.objects found = some object) (date : Nat) :
  DeliveryHolds isPoint (({ peer with
      sessionManager := peer.sessionManager.mutate found
          (afterValidation requested matchesHandshake date)
      history := { peer.history with
        validated := Auth.withVerdict peer.history.validated session
            matchesHandshake } } : Peer).setPhase task
      session change next
      (.changed found (matchesHandshake || object.certificatesValidated))) := by
  rcases hHold.stages _ (mem_of_getElem? hTask) with ⟨hSess, ⟨hFound, hInit⟩, hNext⟩
  rcases hSess hPresented with ⟨hSome, hNamed⟩
  have hIdent : peer.deliveryView.identity found = object.peerIdentityKey :=
    DeliveryView.identity_of_objects hObj
  have hBy : found = session ∨ peer.deliveryView.identity found = some session :=
    (hFound hPresented).imp id And.left
  have hKeeps : ∀ object : PeerSession,
    (afterValidation requested matchesHandshake date object).peerIdentityKey =
      object.peerIdentityKey := fun _ => rfl
  have hMore : ∀ {nonce}, nonce ∈ peer.deliveryView.validated →
        nonce ∈ Auth.withVerdict peer.deliveryView.validated session matchesHandshake :=
    fun h => mem_withVerdict.mpr (Or.inl h)
  have hExt := DeliveryView.extends_withChange isPoint peer.deliveryView found
    (afterValidation requested matchesHandshake date) hKeeps hMore
  have hChanged := (hHold.view.objects hObj).withVerdict
    (by rw [← hIdent]; exact hBy) requested
    matchesHandshake date
  have hOut : OutcomeHolds (peer.deliveryView.withChange found
          (afterValidation requested matchesHandshake date)
          (Auth.withVerdict peer.deliveryView.validated session matchesHandshake))
        session change (matchesHandshake || object.certificatesValidated) := by
    constructor
    · intro _ hTrue
      rw [Bool.or_eq_true] at hTrue
      rcases hTrue with hNow | hPre
      · intro _
        exact mem_withVerdict.mpr (Or.inr ⟨hNow, rfl⟩)
      · exact (released_of_found hHold.view hSome hNamed hBy
          hObj fun _ => hPre).extends hExt
    · intro message hIs
      rw [hInit message hIs]
      rfl
  refine hHold.afterChange hObj hKeeps (fun _ => rfl)
    hMore hChanged ?_ rfl rfl rfl rfl hTask rfl
    ⟨?_, hOut, hNext.extends hExt⟩
    (Or.inr (carried_updating _ _ _ _ _))
  · intro other hOther
    rcases mem_withVerdict.mp hOther with hOld | ⟨-, rfl⟩
    · exact .inl hOld
    · exact .inr ⟨hHold.nonces hSome, hNamed⟩
  · intro _
    exact ⟨hExt.objects hSome, hExt.named hNamed⟩

/-
  Certificates are validated for the session found, in the
  name of the session that the message is for.
-/
theorem DeliveryHolds.afterValidating {requested : Option JsText} {policy : RequestedCertificateSet}
  (hTask : peer.tasks[task]? = some (.updating session change (.validating found requested policy
          matchesHandshake) next))
  (hStep :
    peer.afterValidating task session change next found requested policy matchesHandshake answer =
      some after) :
  DeliveryHolds isPoint after := by
  unfold Peer.afterValidating at hStep
  split at hStep
  · rename_i object message hObj hMsg
    split at hStep
    · split at hStep
      · have hPresented : change.presented.isSome = true := by
          rw [hMsg]
          rfl
        rw [← some.inj hStep]
        exact hHold.withVerdict hTask hPresented hObj answer.date
      · cases hStep
    · rw [← some.inj hStep]
      exact hHold.reject hTask _
  · cases hStep

theorem DeliveryHolds.afterChanged {validated : Bool}
  (hTask : peer.tasks[task]? = some (.updating session change (.changed found validated) next))
  (hHeld : found ∈ peer.sessionManager.sessionNonces)
  (hStep : peer.afterChanged task session change next found validated answer = some after) :
  DeliveryHolds isPoint after := by
  rcases hHold.stages _ (mem_of_getElem? hTask) with ⟨hSess, hPhase, hNext⟩
  have hUpdated :
      DeliveryStage isPoint peer.deliveryView (.updating session change (.updated validated)
        next) :=
    ⟨hSess, hPhase, hNext⟩
  unfold Peer.afterChanged at hStep
  split at hStep
  · cases hStep
  · rename_i object hFound
    have hName := hHold.indexed.named hFound
    have hObj : peer.sessionManager.objects object.sessionNonce = some object := by
      rw [hName]
      exact hFound
    have hAdmits := SessionManager.admits_updateSession peer.sessionManager object answer.now
    have hIdx := indexed_updateSession hHold.indexed hObj answer.now
    have hView : ∀ stage, (peer.afterAdding task
            (peer.sessionManager.updateSession object answer.now) stage).deliveryView =
          peer.deliveryView := by
      intro stage
      unfold afterAdding deliveryView
      simp only [objects_updateSession hObj]
    have hKept : ∀ stage, ClaimsKept (peer.afterAdding task
            (peer.sessionManager.updateSession object answer.now) stage) :=
      fun _ => hHold.kept.admits hAdmits (fun _ => by rw [hName]; exact hHeld) rfl fun h => h
    rw [← some.inj hStep]
    rcases tasks_afterAdding peer task (peer.sessionManager.updateSession object answer.now)
        (.updating session change (.updated validated) next) with
      ⟨reached, hTasks, hReached⟩
    refine hHold.grow hIdx peer.deliveryView (hView _)
      (DeliveryView.Extends.refl isPoint _) hHold.view (hKept _) rfl rfl hTask hTasks ?_ ?_
    · rcases hReached with rfl | ⟨error, rfl⟩
      · exact hUpdated
      · trivial
    · rcases hReached with rfl | ⟨error, rfl⟩
      · exact .inr (carried_updating _ _ _ _ _)
      · exact .inl rfl

theorem DeliveryHolds.mapTasks {release : Stage → Stage}
  (hCarry : ∀ stage, carried (release stage) = carried stage)
  (hStage : ∀ stage, DeliveryStage isPoint peer.deliveryView stage →
      DeliveryStage isPoint peer.deliveryView (release stage)) :
  DeliveryHolds isPoint { peer with tasks := peer.tasks.map release } := by
  have hSame : claimsInUse { peer with tasks := peer.tasks.map release } = claimsInUse peer := by
    have hCompose : carried ∘ release = carried := funext hCarry
    unfold claimsInUse
    rw [filterMap_map, hCompose]
  refine ⟨hHold.indexed, hHold.view, ?_, hHold.delivered, hHold.kept, ?_, ?_⟩
  · intro stage hMem
    rcases List.mem_map.mp hMem with ⟨old, hOld, rfl⟩
    exact hStage old (hHold.stages old hOld)
  · rw [hSame]
    exact hHold.once
  · rw [hSame]
    exact hHold.claimed

theorem DeliveryHolds.resolveCertificateValidation (hReleased : peer.deliveryView.Released session) :
  DeliveryHolds isPoint (peer.resolveCertificateValidation session) := by
  apply hHold.mapTasks
  · intro stage
    cases stage <;> rfl
  · intro stage hStage
    cases stage with
    | awaitingCertificates message other released =>
      refine ⟨hStage.1, ?_⟩
      intro hTrue
      rw [Bool.or_eq_true, beq_iff_eq] at hTrue
      rcases hTrue with hPre | rfl
      · exact hStage.2 hPre
      · exact hReleased
    | _ => exact hStage

end

theorem getElem?_releaseCertificates (session : JsText) (hTask : peer.tasks[task]? = some old) :
  (peer.resolveCertificateValidation session).tasks[task]? =
    some (releaseCertificates session old) := by
  unfold resolveCertificateValidation
  rw [getElem?_map, hTask]
  rfl

theorem DeliveryHolds.afterUpdated (hHold : DeliveryHolds isPoint peer) {validated : Bool}
  (hTask : peer.tasks[task]? = some (.updating session change (.updated validated) next))
  (answer : Answer) : DeliveryHolds isPoint (peer.afterUpdated task validated answer next) := by
  rcases hHold.stages _ (mem_of_getElem? hTask) with ⟨hSess, hOut, hNext⟩
  cases next with
  | initial message other =>
    rcases hNext with ⟨rfl, rfl⟩
    have hStage : DeliveryStage isPoint (peer.resolveCertificateValidation other).deliveryView
      (.completing message other) := trivial
    exact (hHold.resolveCertificateValidation (hOut.released rfl
        (hOut.initial message rfl))).setStage
      (getElem?_releaseCertificates other hTask) hStage (Or.inl rfl)
  | request message =>
    have hStage : DeliveryStage isPoint peer.deliveryView (.answering message) := trivial
    simp only [Peer.afterUpdated]
    split
    · exact hHold.finish hTask
    · split
      · exact hHold.finish hTask
      · exact hHold.setStage hTask hStage (Or.inl rfl)
  | response message other =>
    have hStage : DeliveryStage isPoint peer.deliveryView
          (.updating other (.matchResponse message) .queued (.matched other)) :=
      ⟨fun _ => hNext, trivial, rfl, rfl⟩
    simp only [Peer.afterUpdated]
    split
    · exact hHold.finish hTask
    · exact hHold.setStage hTask hStage (Or.inl rfl)
  | matched other =>
    rcases hNext with ⟨rfl, hPresented⟩
    simp only [Peer.afterUpdated]
    split
    · rename_i hTrue
      exact (hHold.resolveCertificateValidation (hOut.released hPresented hTrue)).finish
        (getElem?_releaseCertificates other hTask)
    · exact hHold.finish hTask
  | general message other =>
    have hVouched : Vouched isPoint peer.deliveryView message other := hNext
    simp only [Peer.afterUpdated]
    apply hHold.afterGetSession hTask
    · trivial
    · intro found _ hFrom
      exact ⟨hVouched, hFrom⟩
    · intro found
      cases found with
      | none => exact .inl rfl
      | some found => exact .inr rfl
  | send call other counterparty message =>
    have hFin : DeliveryStage isPoint peer.deliveryView .finished := trivial
    have hForget : ∀ requestNonce, DeliveryStage isPoint peer.deliveryView
          (.updating other (.forgetRequest requestNonce) .queued .giveUp) :=
      fun _ => ⟨nofun, trivial, trivial⟩
    simp only [Peer.afterUpdated]
    split
    · exact hHold.quiet (SessionManager.LetsGo.refl _) rfl rfl rfl hTask rfl hFin (Or.inl rfl)
    · split
      · exact hHold.setStage hTask (hForget _) (Or.inl rfl)
      · exact hHold.reject hTask _
  | giveUp => exact hHold.reject hTask _

theorem DeliveryHolds.afterUpdating (hHold : DeliveryHolds isPoint peer) {phase : Phase}
  (hTask : peer.tasks[task]? = some (.updating session change phase next))
  (hHeld : ∀ found validated, phase = .changed found validated →
        found ∈ peer.sessionManager.sessionNonces)
  (hStep : peer.afterUpdating task session change phase next answer = some after) :
  DeliveryHolds isPoint after := by
  cases phase with
  | queued =>
    rcases hHold.stages _ (mem_of_getElem? hTask) with ⟨hSess, -, hNext⟩
    rw [← some.inj hStep]
    apply hHold.afterGetSession hTask
    · trivial
    · intro found _ hFrom
      refine ⟨hSess, ?_, hNext⟩
      intro hPresented
      apply hFrom.imp id
      intro hIdent
      exact ⟨hIdent, hHold.nonces (hSess hPresented).1⟩
    · intro found
      cases found with
      | none => exact .inl rfl
      | some found => exact .inr (carried_updating _ _ _ _ _)
  | held found => exact hHold.afterHeld hTask hStep
  | validating found requested policy matchesHandshake => exact hHold.afterValidating hTask hStep
  | changed found validated => exact hHold.afterChanged hTask (hHeld found validated rfl) hStep
  | updated validated =>
    rw [← some.inj hStep]
    exact hHold.afterUpdated hTask answer

-- Accepted responses

variable {message : AuthMessage}

theorem DeliveryView.identity_accept
  (hSome : (view.objects session).isSome = true) (message : AuthMessage) (date : Nat)
  (other : JsText) :
  (view.withChange session (acceptResponse message date) view.validated).identity other =
    if other = session then some message.identityKey
    else view.identity other := by
  rcases isSome_iff_exists.mp hSome with ⟨object, hObj⟩
  unfold DeliveryView.identity DeliveryView.withChange
  by_cases hOwn : other = session
  · rw [if_pos hOwn, hOwn]
    simp only [update_self, hObj]
    rfl
  · rw [if_neg hOwn]
    simp only [update_of_ne hOwn]

theorem DeliveryView.extends_accept
  (hHold : view.Holds isPoint) (hAddressed : Addressed isPoint view message session) (date : Nat) :
  view.Extends isPoint (view.withChange session (acceptResponse message date)
      view.validated) := by
  have hIdent := DeliveryView.identity_accept hAddressed.object message date
  have hNamed : (view.withChange session (acceptResponse message date)
        view.validated).Named isPoint session := by
    refine ⟨message.identityKey, ?_, identityKey_of_valid hAddressed.valid⟩
    rw [hIdent, if_pos rfl]
  constructor
  · rfl
  · exact DeliveryView.isSome_withChange
  · rintro other ⟨identityKey, hHas, hValid⟩
    by_cases hOwn : other = session
    · rw [hOwn]
      exact hNamed
    · refine ⟨identityKey, ?_, hValid⟩
      rw [hIdent, if_neg hOwn]
      exact hHas
  · intro other nonce hHas hCreated
    rw [hIdent]
    by_cases hOwn : other = session
    · rw [hOwn] at hHas
      rcases hAddressed.response with hNone | hKnown
      · rw [hNone] at hHas
        cases hHas
      · rcases hKnown with ⟨identityKey, hKey, hValid⟩
        rw [hHas] at hKey
        exact absurd (some.inj hKey).symm
          (ne_of_identityKey hValid (hHold.created hCreated))
    · rw [if_neg hOwn]
      exact hHas
  · intro other _ hNone
    by_cases hOwn : other = session
    · rw [hOwn]
      exact .inr hNamed
    · rw [hIdent, if_neg hOwn]
      exact .inl hNone
  · exact id
  · exact id
  · exact id

theorem DeliveryView.ObjectHolds.accept
  (hObj : view.ObjectHolds session object) (message : AuthMessage) (date : Nat) :
  (view.withChange session (acceptResponse message date) view.validated).ObjectHolds session
    (acceptResponse message date object) where
  created := hObj.created
  policy := hObj.policy
  required := by
    change decide (object.certificatePolicy.certifiers ≠ []) = decide (view.policy.certifiers ≠ [])
    rw [hObj.policy]
  validated := by
    intro hReq hValid
    unfold acceptResponse at hReq hValid
    simp only at hReq hValid
    rw [hReq] at hValid
    cases hValid

theorem DeliveryHolds.accept
  (hHold : DeliveryHolds isPoint peer) (hTask : peer.tasks[task]? = some old)
  (hAddressed : Addressed isPoint peer.deliveryView message session)
  (hHeld : session ∈ peer.sessionManager.sessionNonces)
  (hObj : peer.sessionManager.objects session = some object)
  (accepted : List (JsText × JsText)) (answer : Answer) : DeliveryHolds isPoint (({ peer with
      history := { peer.history with accepted } } :
      Peer).afterAdding task
      ((peer.sessionManager.mutate session (acceptResponse message answer.date)).updateSession
        (acceptResponse message answer.date object) answer.now)
      (.accepted message session)) := by
  have hName := hHold.indexed.named hObj
  have hNonce : ∀ object : PeerSession, (acceptResponse message answer.date object).sessionNonce =
    object.sessionNonce := fun _ => rfl
  have hExt := DeliveryView.extends_accept hHold.view hAddressed answer.date
  have hKnown : (peer.sessionManager.mutate session (acceptResponse message answer.date)).objects
        (acceptResponse message answer.date object).sessionNonce =
        some (acceptResponse message answer.date object) := by
    change update peer.sessionManager.objects session _ object.sessionNonce = _
    rw [hName, update_self, hObj]
    rfl
  have hAdmits := SessionManager.admits_updateSession (peer.sessionManager.mutate session
      (acceptResponse message answer.date))
    (acceptResponse message answer.date object) answer.now
  have hMutated : ClaimsKept
        { peer with
          sessionManager := peer.sessionManager.mutate session
            (acceptResponse message answer.date) } :=
    hHold.kept
  have hOwn : (acceptResponse message answer.date object).sessionNonce ∈
        peer.sessionManager.sessionNonces := by
    change object.sessionNonce ∈ _
    rw [hName]
    exact hHeld
  rcases tasks_afterAdding
      { peer with
        history := { peer.history with accepted } } task
      ((peer.sessionManager.mutate session (acceptResponse message answer.date)).updateSession
        (acceptResponse message answer.date object) answer.now)
      (.accepted message session) with
    ⟨reached, hTasks, hReached⟩
  have hNamed : (peer.deliveryView.withChange session (acceptResponse message answer.date)
        peer.deliveryView.validated).Named isPoint
        session := by
    refine ⟨message.identityKey, ?_, identityKey_of_valid hAddressed.valid⟩
    rw [DeliveryView.identity_accept hAddressed.object, if_pos rfl]
  refine hHold.grow (indexed_updateSession_mutate hHold.indexed hHeld hNonce hObj answer.now)
    (peer.deliveryView.withChange session (acceptResponse message answer.date)
      peer.deliveryView.validated)
    ?_ hExt (hHold.view.withChange hExt ?_ fun _ => .inl)
    (hMutated.admits hAdmits (fun _ => hOwn) rfl fun h => h)
    rfl rfl hTask hTasks ?_ ?_
  · unfold afterAdding deliveryView
    simp only [objects_updateSession hKnown]
    rfl
  · intro other hOther
    exact (hHold.view.objects hOther).accept message answer.date
  · rcases hReached with rfl | ⟨error, rfl⟩
    · exact ⟨hExt.objects hAddressed.object, hNamed⟩
    · trivial
  · rcases hReached with rfl | ⟨error, rfl⟩
    · exact .inl rfl
    · exact .inl rfl

end TsStack.Auth
