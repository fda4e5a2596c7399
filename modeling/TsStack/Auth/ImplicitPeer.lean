import TsStack.Auth.PeerInvariant
import TsStack.Auth.PeerSteps
import TsStack.Lib.EventRun

/-
  The implicit destination of a peer.

  An initial response is meant for a session that this peer
  created to initiate a handshake, and for one that was not
  answered yet.  The handler checks neither.  In a run in
  which every accepted response meets both, only an answer to
  a handshake of this peer changes the peer that messages
  without a destination go to.
-/

-- New sessions

open List Option

namespace TsStack.Auth

open Peer Function

variable {isPoint : JsText → Bool} {peer : Peer} {task : Nat} {nonce : JsText}

theorem PeerHolds.objects_of_new
  (hHold : PeerHolds isPoint peer) (hNew : nonce ∉ peer.history.created) :
  peer.sessionManager.objects nonce = none := by
  cases hObj : peer.sessionManager.objects nonce with
  | none => rfl
  | some object => exact absurd (hHold.view.objects hObj) hNew

def View.withNonce
  (view : View) (nonce : JsText) (object : Option PeerSession) (initiated : List JsText) : View :=
  { view with
    objects := Function.update view.objects nonce object
    created := view.created ++ [nonce]
    initiated }

variable {initiated : List JsText}

theorem View.extends_withNonce
  (view : View) (hNew : view.objects nonce = none) (object : Option PeerSession)
  (hInitiated : ∀ other ∈ view.initiated, other ∈ initiated) :
  view.Extends (view.withNonce nonce object initiated) := by
  have hOther : ∀ {session found}, view.objects session = some found →
        (view.withNonce nonce object initiated).objects session = some found := by
    intro session found hFound
    have hNe : session ≠ nonce := by
      rintro rfl
      rw [hNew] at hFound
      cases hFound
    change update view.objects nonce object session = some found
    rw [update_of_ne hNe]
    exact hFound
  have hIdent : ∀ {session}, (view.objects session).isSome = true →
        (view.withNonce nonce object initiated).identity session = view.identity session := by
    intro session hSome
    rcases isSome_iff_exists.mp hSome with ⟨found, hFound⟩
    unfold View.identity
    rw [hOther hFound, hFound]
  constructor
  · rfl
  · intro session found hFound
    rw [hOther hFound]
    rfl
  · intro session identityKey hKnown
    rcases bind_eq_some_iff.mp hKnown with ⟨found, hFound, -⟩
    rw [hIdent (by rw [hFound]; rfl)]
    exact hKnown
  · intro session hSome hNone
    rw [hIdent hSome]
    exact .inl hNone
  · intro other hOther
    exact mem_append_left _ hOther
  · exact fun h => hInitiated _ h
  · exact id
  · exact ⟨[], (append_nil _).symm⟩

variable {view : View}

theorem View.Holds.withNonce
  (hHold : view.Holds isPoint) (hCanon : assertCanonicalBase64 nonce 48 = true)
  (hNew : view.objects nonce = none) {object : Option PeerSession}
  (hObj : ∀ session, object = some session → session.isAuthenticated = false)
  (hInitiated : ∀ other ∈ view.initiated, other ∈ initiated) :
  (view.withNonce nonce object initiated).Holds isPoint := by
  have hExt := View.extends_withNonce view hNew object hInitiated
  constructor
  · intro session found hFound
    by_cases hOwn : session = nonce
    · rw [hOwn]
      exact mem_append_right _ mem_cons_self
    · change update view.objects nonce object session = some found at hFound
      rw [update_of_ne hOwn] at hFound
      exact mem_append_left _ (hHold.objects hFound)
  · intro other hOther
    rcases mem_append.mp hOther with hOld | hOwn
    · exact hHold.created hOld
    · rw [mem_singleton.mp hOwn]
      exact hCanon
  · intro session found hFound hTrue
    change update view.objects nonce object session = some found at hFound
    by_cases hOwn : session = nonce
    · rw [hOwn, update_self] at hFound
      rw [hObj found hFound] at hTrue
      cases hTrue
    · rw [update_of_ne hOwn] at hFound
      exact hHold.authenticated hFound hTrue
  · intro entry hEntry
    rcases hHold.accepted hEntry with ⟨hOwn, hIdent, hValid⟩
    exact ⟨hExt.initiated hOwn, hExt.identity hIdent, hValid⟩
  · exact hHold.once
  · exact hHold.completed

theorem PeerHolds.grow
  {next : Peer} (hHold : PeerHolds isPoint peer) (view : View) (task : Nat) (stage : Stage)
  (hIdx : next.sessionManager.Indexed) (hView : next.view = view)
  (hExt : peer.view.Extends view) (hKeeps : view.Holds isPoint)
  (hLast : next.lastInteractedWithPeer = lastCompleted next.history.completed)
  (hSent : next.history.sent = peer.history.sent)
  (hTasks : next.tasks = peer.tasks.set task stage) (hStage : StageHolds isPoint view stage) :
  PeerHolds isPoint next := by
  subst hView
  constructor
  · exact hIdx
  · exact hKeeps
  · exact hLast
  · rw [hSent]
    intro sent hMem
    exact (hHold.sent sent hMem).extends hExt
  · rw [hTasks]
    exact forall_mem_set (fun stage hMem => (hHold.stages stage hMem).extends hExt)
      hStage task

variable {stage : Stage}

theorem PeerHolds.afterNewSession
  (hHold : PeerHolds isPoint peer) (hNew : peer.isNewNonce nonce = true) {session : PeerSession}
  (hName : session.sessionNonce = nonce) (hFresh : session.isAuthenticated = false)
  (hInitiated : ∀ other ∈ peer.history.initiated, other ∈ initiated) {now : Nat}
  (hStage : StageHolds isPoint (peer.view.withNonce nonce (some session) initiated) stage) :
  PeerHolds isPoint (({ peer with
      history := { peer.history with
        created := peer.history.created ++ [nonce]
        initiated } } : Peer).afterAdding task
      (peer.sessionManager.addSession session now)
      stage) := by
  rcases isNewNonce_iff.mp hNew with ⟨hCanon, hAbsent⟩
  have hNone := hHold.objects_of_new hAbsent
  have hAdds := SessionManager.admits_addSession peer.sessionManager session now
  have hIdx := hAdds.indexed hHold.indexed (by
    rw [hName, hNone]
    nofun)
  cases hOut : (peer.sessionManager.addSession session now).1 with
  | none =>
    rcases hAdds.admitted hOut with ⟨hObjects, -⟩
    rw [hName] at hObjects
    refine hHold.grow (peer.view.withNonce nonce (some session) initiated) task stage hIdx ?_
      (View.extends_withNonce peer.view hNone (some session) hInitiated)
      (hHold.view.withNonce hCanon hNone (fun other hOther => by
          rw [← some.inj hOther]
          exact hFresh)
        hInitiated)
      hHold.last rfl ?_ hStage
    · unfold afterAdding Peer.view View.withNonce
      simp only [hObjects]
    · unfold afterAdding
      simp only [hOut]
  | some e =>
    have hObjects := hAdds.refused (by rw [hOut]; rfl)
    have hNoObj : ∀ other : PeerSession, none = some other →
      other.isAuthenticated = false := nofun
    refine hHold.grow (peer.view.withNonce nonce none initiated)
      task (.rejected e.message) hIdx ?_
      (View.extends_withNonce peer.view hNone none hInitiated)
      (hHold.view.withNonce hCanon hNone hNoObj hInitiated) hHold.last rfl ?_ trivial
    · have hSame :
          update peer.sessionManager.objects nonce none = peer.sessionManager.objects := by
        rw [← hNone]
        exact update_eq_self nonce _
      unfold afterAdding Peer.view View.withNonce
      simp only [hObjects, hSame]
    · unfold afterAdding
      simp only [hOut]

-- Changes of a session

def View.withChange (view : View) (session : JsText) (change : PeerSession → PeerSession) : View :=
  { view with
    objects := Function.update view.objects session ((view.objects session).map change) }

variable {change : PeerSession → PeerSession}

theorem View.identity_withChange
  (hChange : ∀ object : PeerSession, (change object).peerIdentityKey = object.peerIdentityKey)
  (session other : JsText) :
  (view.withChange session change).identity other = view.identity other := by
  unfold View.identity View.withChange
  by_cases hOwn : other = session
  · simp only [hOwn, update_self]
    cases view.objects session with
    | none => rfl
    | some object => rw [map_some, bind_some, bind_some, hChange]
  · simp only [update_of_ne hOwn]

variable {session : JsText}

theorem View.isSome_withChange {other : JsText} (hSome : (view.objects other).isSome = true) :
  ((view.withChange session change).objects other).isSome = true := by
  unfold View.withChange
  by_cases hOwn : other = session
  · simp only [hOwn, update_self]
    rw [hOwn] at hSome
    rw [isSome_map]
    exact hSome
  · simp only [update_of_ne hOwn]
    exact hSome

theorem View.extends_withChange (view : View) {change : PeerSession → PeerSession}
  (hChange : ∀ object : PeerSession, (change object).peerIdentityKey = object.peerIdentityKey)
  (session : JsText) : view.Extends (view.withChange session change) where
  autoPersist := rfl
  objects := fun hObj => View.isSome_withChange (by rw [hObj]; rfl)
  identity := fun hKnown => by
    rw [View.identity_withChange hChange]
    exact hKnown
  nameless := fun _ hNone => by
    rw [View.identity_withChange hChange]
    exact .inl hNone
  created := id
  initiated := id
  accepted := id
  completed := ⟨[], (append_nil _).symm⟩

theorem View.Holds.withChange (hHold : view.Holds isPoint) {change : PeerSession → PeerSession}
  (hChange : ∀ object : PeerSession, (change object).peerIdentityKey = object.peerIdentityKey)
  (hMark : ∀ object, view.objects session = some object →
      (change object).isAuthenticated = true → object.isAuthenticated = true ∨
          object.peerIdentityKey.isSome = true) :
  (view.withChange session change).Holds isPoint := by
  have hObj : ∀ {other found}, (view.withChange session change).objects other = some found →
        ∃ object, view.objects other = some object ∧ (found = object ∨
          other = session ∧ found = change object) := by
    intro other found hFound
    unfold View.withChange at hFound
    by_cases hOwn : other = session
    · simp only [hOwn, update_self] at hFound
      rcases map_eq_some_iff.mp hFound with ⟨object, hObj, hSame⟩
      rw [hOwn]
      exact ⟨object, hObj, .inr ⟨rfl, hSame.symm⟩⟩
    · simp only [update_of_ne hOwn] at hFound
      exact ⟨found, hFound, .inl rfl⟩
  constructor
  · intro other found hFound
    rcases hObj hFound with ⟨object, hOld, -⟩
    exact hHold.objects hOld
  · exact hHold.created
  · intro other found hFound hTrue
    rcases hObj hFound with ⟨object, hOld, rfl | ⟨rfl, rfl⟩⟩
    · exact hHold.authenticated hOld hTrue
    · rw [hChange]
      exact (hMark object hOld hTrue).elim (hHold.authenticated hOld) id
  · intro entry hEntry
    rw [View.identity_withChange hChange]
    exact hHold.accepted hEntry
  · exact hHold.once
  · exact hHold.completed

theorem PeerHolds.afterChange
  {next : Peer} (hHold : PeerHolds isPoint peer) {change : PeerSession → PeerSession}
  (hIdent : ∀ object : PeerSession, (change object).peerIdentityKey = object.peerIdentityKey)
  (hNonce : ∀ object : PeerSession, (change object).sessionNonce = object.sessionNonce)
  {object : PeerSession} (hObj : peer.sessionManager.objects session = some object)
  (hMark : (change object).isAuthenticated = true → object.isAuthenticated = true ∨
        object.peerIdentityKey.isSome = true)
  (hManager : next.sessionManager = peer.sessionManager.mutate session change)
  (hView : next.view = peer.view.withChange session change)
  (hLast : next.lastInteractedWithPeer = peer.lastInteractedWithPeer)
  (hSent : next.history.sent = peer.history.sent) (hTasks : next.tasks = peer.tasks.set task stage)
  (hStage : StageHolds isPoint peer.view stage) : PeerHolds isPoint next := by
  have hExt := View.extends_withChange peer.view hIdent session
  have hCompleted : next.history.completed = peer.history.completed := congrArg View.completed hView
  refine hHold.grow (peer.view.withChange session change) task stage ?_ hView hExt
    (hHold.view.withChange hIdent ?_) ?_ hSent hTasks (hStage.extends hExt)
  · rw [hManager]
    apply hHold.indexed.mutate hObj (hNonce object)
    intro key hKey
    rw [hIdent]
    exact hKey
  · intro other hOther
    have hSame := hObj.symm.trans hOther
    rw [← some.inj hSame]
    exact hMark
  · rw [hLast, hCompleted]
    exact hHold.last

variable
    {found : JsText} {change : SessionChange} {next : Continuation} {answer : Answer} {after : Peer}

section

variable (hHold : PeerHolds isPoint peer)

include hHold

theorem PeerHolds.afterHeld (hFound : FoundHolds peer.view change found)
  (hNext : ContinuationHolds isPoint peer.view next)
  (hStep : peer.afterHeld task session change next found answer = some after) :
  PeerHolds isPoint after := by
  have hValidating : ∀ requested policy matchesHandshake,
      StageHolds isPoint peer.view (.updating session change (.validating found requested policy
        matchesHandshake) next) :=
    fun _ _ _ => ⟨trivial, hNext⟩
  have hPlain : ∀ object, peer.sessionManager.objects found = some object →
        PeerHolds isPoint (({ peer with
          sessionManager := peer.sessionManager.mutate found
            (change.apply answer.date) } : Peer).setPhase
          task session change next
          (.changed found object.certificatesValidated)) := by
    intro object hObj
    refine hHold.afterChange (peerIdentityKey_apply change answer.date)
      (sessionNonce_apply change answer.date) hObj ?_ rfl
      rfl rfl rfl rfl ⟨trivial, hNext⟩
    intro hTrue
    apply (isAuthenticated_apply hTrue).imp id
    intro hMark
    have hSome := hFound hMark
    unfold View.identity at hSome
    change ((peer.sessionManager.objects found).bind (·.peerIdentityKey)).isSome = true at hSome
    rw [hObj] at hSome
    exact hSome
  unfold Peer.afterHeld at hStep
  split at hStep
  · cases hStep
  · rename_i object hObj
    split at hStep
    · rw [← some.inj hStep]
      exact hHold.setStage (hValidating _ _ _) task
    · split at hStep
      · rw [← some.inj hStep]
        exact hHold.reject task _
      · rw [← some.inj hStep]
        exact hHold.setStage (hValidating _ _ _) task
    · rw [← some.inj hStep]
      exact hPlain object hObj

theorem PeerHolds.afterValidating {requested : Option JsText} {policy : RequestedCertificateSet}
  {matchesHandshake : Bool} (hNext : ContinuationHolds isPoint peer.view next) (hStep :
    peer.afterValidating task session change next found requested policy matchesHandshake answer =
      some after) :
  PeerHolds isPoint after := by
  have hIdent : ∀ object : PeerSession,
    (afterValidation requested matchesHandshake answer.date object).peerIdentityKey =
      object.peerIdentityKey := fun _ => rfl
  unfold Peer.afterValidating at hStep
  split at hStep
  · rename_i object message hObj hMsg
    split at hStep
    · split at hStep
      · rw [← some.inj hStep]
        exact hHold.afterChange hIdent (fun _ => rfl) hObj Or.inl rfl rfl rfl rfl rfl
          ⟨trivial, hNext⟩
      · cases hStep
    · rw [← some.inj hStep]
      exact hHold.reject task _
  · cases hStep

theorem PeerHolds.afterChanged {validated : Bool} (hNext : ContinuationHolds isPoint peer.view next)
  (hStep : peer.afterChanged task session change next found validated answer = some after) :
  PeerHolds isPoint after := by
  unfold Peer.afterChanged at hStep
  split at hStep
  · cases hStep
  · rename_i object hFound
    have hObj : peer.sessionManager.objects object.sessionNonce = some object := by
      rw [hHold.indexed.named hFound]
      exact hFound
    rw [← some.inj hStep]
    refine hHold.quiet (indexed_updateSession hHold.indexed hObj answer.now) ?_ rfl rfl
      (forall_mem_set hHold.stages ?_ task)
    · unfold afterAdding Peer.view
      simp only [objects_updateSession hObj]
    · split
      · trivial
      · exact ⟨trivial, hNext⟩

end

-- Handshakes

def View.withAccepted
  (view : View) (session : JsText) (message : AuthMessage) (date : Nat) : View :=
  { view.withChange session (acceptResponse message date) with
    accepted := view.accepted ++ [(session, message.identityKey)] }

theorem View.identity_withAccepted
  (hObj : (view.objects session).isSome = true) (message : AuthMessage) (date : Nat)
  (other : JsText) : (view.withAccepted session message date).identity other =
    if other = session then some message.identityKey
    else view.identity other := by
  rcases isSome_iff_exists.mp hObj with ⟨object, hObj⟩
  unfold View.identity View.withAccepted View.withChange
  by_cases hOwn : other = session
  · rw [if_pos hOwn, hOwn]
    simp only [update_self, hObj]
    rfl
  · rw [if_neg hOwn]
    simp only [update_of_ne hOwn]

variable {message : AuthMessage}

theorem View.extends_withAccepted (hObj : (view.objects session).isSome = true)
  (hFits : view.identity session = none ∨ view.identity session = some message.identityKey)
  (date : Nat) : view.Extends (view.withAccepted session message date) where
  autoPersist := rfl
  objects := fun hOther => View.isSome_withChange (by rw [hOther]; rfl)
  identity := by
    intro other identityKey hKnown
    rw [View.identity_withAccepted hObj]
    by_cases hOwn : other = session
    · rw [if_pos hOwn]
      rw [hOwn] at hKnown
      rcases hFits with hNone | hSame
      · rw [hNone] at hKnown
        cases hKnown
      · rw [← hSame]
        exact hKnown
    · rw [if_neg hOwn]
      exact hKnown
  nameless := by
    intro other _ hNone
    rw [View.identity_withAccepted hObj]
    by_cases hOwn : other = session
    · right
      unfold View.Answered View.withAccepted
      rw [map_append, hOwn]
      exact mem_append_right _ mem_cons_self
    · rw [if_neg hOwn]
      exact .inl hNone
  created := id
  initiated := id
  accepted := fun h => mem_append_left _ h
  completed := ⟨[], (append_nil _).symm⟩

theorem View.Holds.withAccepted
  (hHold : view.Holds isPoint) (hFor : MessageFor isPoint view message session)
  (hFits : view.identity session = none ∨ view.identity session = some message.identityKey)
  (hOwn : session ∈ view.initiated) (hNew : ¬ view.Answered session) (date : Nat) :
  (view.withAccepted session message date).Holds isPoint := by
  have hExt := View.extends_withAccepted hFor.object hFits date
  have hChanged : ∀ {other found},
      (view.withAccepted session message date).objects other = some found →
        (view.objects other).isSome = true ∧
          (view.objects other = some found ∨ found.peerIdentityKey = some message.identityKey) := by
    intro other found hFound
    unfold View.withAccepted View.withChange at hFound
    by_cases hSame : other = session
    · simp only [hSame, update_self] at hFound
      rcases map_eq_some_iff.mp hFound with ⟨object, hObj, rfl⟩
      rw [hSame, hObj]
      exact ⟨rfl, .inr rfl⟩
    · simp only [update_of_ne hSame] at hFound
      rw [hFound]
      exact ⟨rfl, .inl rfl⟩
  constructor
  · intro other found hFound
    rcases isSome_iff_exists.mp (hChanged hFound).1 with ⟨object, hObj⟩
    exact hHold.objects hObj
  · exact hHold.created
  · intro other found hFound hTrue
    rcases (hChanged hFound).2 with hOld | hIdent
    · exact hHold.authenticated hOld hTrue
    · rw [hIdent]
      rfl
  · intro entry hEntry
    rcases mem_append.mp hEntry with hOld | hLast
    · rcases hHold.accepted hOld with ⟨hInitiated, hIdent, hValid⟩
      exact ⟨hInitiated, hExt.identity hIdent, hValid⟩
    · rw [mem_singleton.mp hLast]
      refine ⟨hOwn, ?_, hFor.sender⟩
      rw [View.identity_withAccepted hFor.object, if_pos rfl]
  · unfold View.withAccepted
    rw [map_append]
    apply nodup_append.mpr
    refine ⟨hHold.once, nodup_singleton _, ?_⟩
    rintro other hOther last hLast rfl
    rw [map_cons, map_nil, mem_singleton] at hLast
    rw [hLast] at hOther
    exact hNew hOther
  · intro entry hEntry
    exact mem_append_left _ (hHold.completed hEntry)

theorem PeerHolds.afterClaimed
  (hHold : PeerHolds isPoint peer) (hFor : MessageFor isPoint peer.view message session)
  (hOwn : message.messageType = .initialResponse →
      session ∈ peer.history.initiated ∧ ¬ peer.view.Answered session)
  (hStep : peer.afterClaimed task message session answer = some after) :
  PeerHolds isPoint after := by
  have hMark : ∀ next, message.messageType ≠ .initialResponse →
        ContinuationHolds isPoint peer.view next → PeerHolds isPoint
          (peer.setPhase task session .markAuthenticated next .queued) := by
    intro next hType hNext
    have hStage : StageHolds isPoint peer.view (.updating session .markAuthenticated .queued
            next) :=
      ⟨fun _ => hFor.other hType, hNext⟩
    exact hHold.setStage hStage task
  unfold Peer.afterClaimed at hStep
  cases hType : message.messageType with
  | initialRequest =>
    rw [hType] at hStep
    cases hStep
  | certificateRequest =>
    rw [hType] at hStep
    rw [← some.inj hStep]
    refine hMark _ ?_ hFor.sender
    rw [hType]
    nofun
  | certificateResponse =>
    rw [hType] at hStep
    rw [← some.inj hStep]
    refine hMark _ ?_ trivial
    rw [hType]
    nofun
  | general =>
    rw [hType] at hStep
    rw [← some.inj hStep]
    refine hMark _ ?_ trivial
    rw [hType]
    nofun
  | initialResponse =>
    rw [hType] at hStep
    simp only at hStep
    rcases hOwn hType with ⟨hInitiated, hNew⟩
    have hFits : peer.view.identity session = none ∨ peer.view.identity session =
            some message.identityKey := by
      rcases hFor.response hType with hNone | hSame | hOld
      · exact .inl hNone
      · exact .inr hSame
      · exact absurd hOld hNew
    split at hStep
    · cases hStep
    · rename_i object hObj
      have hName := hHold.indexed.named hObj
      have hIdx : (peer.sessionManager.mutate session (acceptResponse message
              answer.date)).Indexed := by
        refine hHold.indexed.mutate hObj rfl ?_
        intro key hKey
        have hKnown : peer.view.identity session = some key := by
          unfold View.identity
          change (peer.sessionManager.objects session).bind _ = _
          rw [hObj]
          exact hKey
        rcases hFits with hNone | hSame
        · rw [hNone] at hKnown
          cases hKnown
        · rw [hSame] at hKnown
          exact hKnown
      have hKnown :
          (peer.sessionManager.mutate session (acceptResponse message answer.date)).objects
            (acceptResponse message answer.date object).sessionNonce =
            some (acceptResponse message answer.date object) := by
        change update peer.sessionManager.objects session _ object.sessionNonce = _
        rw [hName, update_self, hObj]
        rfl
      rw [← some.inj hStep]
      refine hHold.grow (peer.view.withAccepted session message answer.date) task _
        (indexed_updateSession hIdx hKnown answer.now) ?_
        (View.extends_withAccepted hFor.object hFits answer.date)
        (hHold.view.withAccepted hFor hFits hInitiated hNew answer.date) hHold.last rfl rfl ?_
      · unfold afterAdding Peer.view
        simp only [objects_updateSession hKnown]
        rfl
      · split
        · trivial
        · exact ⟨hFor.sender, mem_append_right _ mem_cons_self⟩

def View.withCompleted (view : View) (entry : JsText × JsText) : View :=
  { view with completed := view.completed ++ [entry] }

theorem View.extends_withCompleted (view : View) (entry : JsText × JsText) :
  view.Extends (view.withCompleted entry) where
  autoPersist := rfl
  objects := fun hObj => by
    change (view.objects _).isSome = true
    rw [hObj]
    rfl
  identity := id
  nameless := fun _ => .inl
  created := id
  initiated := id
  accepted := id
  completed := ⟨[entry], rfl⟩

variable {identityKey : JsText}

/- A released task knows that its handshake is complete. -/
theorem StageHolds.releaseResponse
  (hDone : (session, identityKey) ∈ view.completed) (hStage : StageHolds isPoint view stage) :
  StageHolds isPoint view (Peer.releaseResponse session stage) := by
  cases stage with
  | awaitingResponse call other released =>
    rcases hStage with ⟨hCall, hOwn, hReleased⟩
    refine ⟨hCall, hOwn, ?_⟩
    intro hTrue
    rw [Bool.or_eq_true, beq_iff_eq] at hTrue
    rcases hTrue with hBefore | rfl
    · exact hReleased hBefore
    · exact ⟨identityKey, hDone⟩
  | _ => exact hStage

theorem PeerHolds.afterCompleting (hHold : PeerHolds isPoint peer)
  (hSender : assertAuthIdentityKey isPoint message.identityKey = true)
  (hAcc : (session, message.identityKey) ∈ peer.history.accepted) :
  PeerHolds isPoint (peer.afterCompleting task message session) := by
  have hView : (peer.afterCompleting task message session).view =
    peer.view.withCompleted (session, message.identityKey) := rfl
  have hExt := View.extends_withCompleted peer.view (session, message.identityKey)
  have hDone : (session, message.identityKey) ∈ (peer.view.withCompleted
          (session, message.identityKey)).completed :=
    mem_append_right _ mem_cons_self
  constructor
  · exact hHold.indexed
  · rw [hView]
    refine ⟨hHold.view.objects, hHold.view.created,
      hHold.view.authenticated, hHold.view.accepted, hHold.view.once, ?_⟩
    intro entry hEntry
    rcases mem_append.mp hEntry with hOld | hLast
    · exact hHold.view.completed hOld
    · rw [mem_singleton.mp hLast]
      exact hAcc
  · change some message.identityKey = lastCompleted (peer.history.completed ++
        [(session, message.identityKey)])
    unfold lastCompleted
    rw [getLast?_append]
    rfl
  · rw [hView]
    intro sent hMem
    exact (hHold.sent sent hMem).extends hExt
  · rw [hView]
    apply forall_mem_set
    · intro stage hMem
      rcases List.mem_map.mp hMem with ⟨old, hOld, rfl⟩
      exact ((hHold.stages old hOld).extends hExt).releaseResponse hDone
    · split
      · trivial
      · split
        · trivial
        · exact hSender

-- Calls

theorem PeerHolds.withSent (hHold : PeerHolds isPoint peer) {sent : SentMessage}
  (hSent : SentHolds isPoint peer.view sent) (hStage : StageHolds isPoint peer.view stage)
  (task : Nat) : PeerHolds isPoint
    { peer with
      tasks := peer.tasks.set task stage
      history := { peer.history with
        sent := peer.history.sent ++ [sent] } } := by
  refine ⟨hHold.indexed, hHold.view, hHold.last, ?_, forall_mem_set hHold.stages hStage task⟩
  intro other hOther
  rcases mem_append.mp hOther with hOld | hLast
  · exact hHold.sent other hOld
  · rw [mem_singleton.mp hLast]
    exact hSent

theorem PeerHolds.valid_last
  (hHold : PeerHolds isPoint peer) (hLast : peer.lastInteractedWithPeer = some identityKey) :
  assertAuthIdentityKey isPoint identityKey = true := by
  rw [hHold.last] at hLast
  rcases map_eq_some_iff.mp hLast with ⟨entry, hEntry, rfl⟩
  have hMem := mem_of_getLast? hEntry
  exact (hHold.view.accepted (hHold.view.completed hMem)).2.2

variable {call : Call}

section

variable (hHold : PeerHolds isPoint peer)

include hHold

theorem implicitIdentity_eq (hBefore : call.completedBefore = peer.history.completed.length) :
  implicitIdentity peer.view call = peer.implicitTarget call.identityKey := by
  unfold implicitIdentity implicitTarget
  cases call.identityKey with
  | some identityKey => rfl
  | none =>
    simp only
    change (if peer.autoPersistLastSession = true then
      lastCompleted (peer.history.completed.take _) else none) = _
    rw [hBefore, take_length, hHold.last]

theorem PeerHolds.getAuthenticatedSession (hCall : CallHolds isPoint peer.view call) (now : Nat) :
  PeerHolds isPoint (peer.getAuthenticatedSession task call now) := by
  unfold Peer.getAuthenticatedSession
  cases hTgt : call.target with
  | none =>
    have hStage : StageHolds isPoint peer.view (.creating call) := hCall
    exact hHold.setStage hStage task
  | some target =>
    have hSome : call.target.isSome = true := by
      rw [hTgt]
      rfl
    apply hHold.afterGetSession
    · exact ⟨hCall, hSome, nofun⟩
    · intro session object hObj hFrom
      refine ⟨hCall, hSome, ?_⟩
      intro other identityKey hOther hIs hValid
      rw [← some.inj hOther]
      rw [hTgt] at hIs
      rw [← some.inj hIs] at hValid ⊢
      rcases hFrom with hSame | hIdent
      · rw [hSame] at hObj
        exact absurd rfl (ne_of_identityKey hValid
          (hHold.view.created (hHold.view.objects hObj)))
      · exact hIdent

theorem PeerHolds.beginCall (purpose : Purpose) (identityKey : Option JsText)
  (now : Nat) : PeerHolds isPoint (peer.beginCall task purpose identityKey now) := by
  have hKnown : ∀ {target}, identityKey = none → peer.callTarget purpose identityKey = some target →
          assertAuthIdentityKey isPoint target = true := by
    intro target hNone hTgt
    rw [hNone] at hTgt
    have hImplicit : peer.implicitTarget none = some target := by
      unfold callTarget at hTgt
      split at hTgt
      · cases hTgt
      · exact hTgt
    unfold implicitTarget at hImplicit
    simp only at hImplicit
    split at hImplicit
    · exact hHold.valid_last hImplicit
    · cases hImplicit
  unfold Peer.beginCall
  apply hHold.getAuthenticatedSession
  constructor
  · exact Nat.le_refl _
  · intro hPurpose
    rw [implicitIdentity_eq hHold rfl]
    change peer.callTarget purpose identityKey = peer.implicitTarget identityKey
    unfold callTarget
    split
    · exact absurd rfl hPurpose
    · rfl
  · intro target hNone hTgt
    exact hKnown hNone hTgt

theorem PeerHolds.afterCalling {found : Option JsText}
  (hStage : StageHolds isPoint peer.view (.calling call found)) :
  PeerHolds isPoint (peer.afterCalling task call found) := by
  rcases hStage with ⟨hCall, hTgt, hFound⟩
  have hCreating : StageHolds isPoint peer.view (.creating call) := hCall
  unfold Peer.afterCalling
  split
  · exact hHold.setStage hCreating task
  · rename_i session hSess
    rcases bind_eq_some_iff.mp hSess with ⟨other, hOther, hObj⟩
    have hName := hHold.indexed.named hObj
    split
    · rename_i hAuth
      have hIdent : peer.view.identity other =
            session.peerIdentityKey := by
        unfold View.identity
        change (peer.sessionManager.objects other).bind _ = _
        rw [hObj]
        rfl
      have hReady : StageHolds isPoint peer.view (.ready call session.sessionNonce) := by
        rw [hName]
        refine ⟨hCall, ?_, ?_⟩
        · rw [hIdent]
          exact hHold.view.authenticated hObj hAuth
        · intro identityKey hHas hValid
          constructor
          · intro target hIs hTgtValid
            have hSame := hFound other target hOther hIs hTgtValid
            rw [hHas] at hSame
            exact some.inj hSame
          · intro hNone
            rw [hNone] at hTgt
            cases hTgt
      exact hHold.setStage hReady task
    · exact hHold.setStage hCreating task

theorem PeerHolds.afterCreating (hCall : CallHolds isPoint peer.view call)
  (hStep : peer.afterCreating task call answer = some after) : PeerHolds isPoint after := by
  unfold Peer.afterCreating at hStep
  split at hStep
  · rw [← some.inj hStep]
    exact hHold.reject task _
  · split at hStep
    · rename_i hNew
      have hInitiated :
          ∀ other ∈ peer.history.initiated, other ∈ peer.history.initiated ++ [answer.nonce] :=
        fun _ h => mem_append_left _ h
      have hNone := hHold.objects_of_new (isNewNonce_iff.mp hNew).2
      have hExt := View.extends_withNonce peer.view hNone (some
          (peer.newSession answer.nonce none call.target answer.date))
        hInitiated
      have hKept := hCall.extends hExt
      rw [← some.inj hStep]
      apply hHold.afterNewSession hNew rfl rfl hInitiated
      refine ⟨⟨hKept.before, hKept.target, hKept.valid⟩, rfl, ?_, ?_⟩
      · unfold View.withNonce
        simp only [update_self]
        rfl
      · intro identityKey hTgt
        unfold View.identity View.withNonce
        simp only [update_self]
        exact hTgt
    · cases hStep

theorem PeerHolds.afterHandshakeAdded (answer : Answer) (hCall : CallHolds isPoint peer.view call)
  (hOwn : OwnSession isPoint peer.view call session) :
  PeerHolds isPoint (peer.afterHandshakeAdded task call session answer) := by
  unfold Peer.afterHandshakeAdded
  split
  · apply hHold.withSent
    · intro other _ hType
      exact absurd rfl hType
    · exact ⟨hCall, hOwn, nofun⟩
  · exact hHold.reject task _

theorem PeerHolds.afterAwaitingResponse {released : Bool}
  (hStage : StageHolds isPoint peer.view (.awaitingResponse call session released))
  (hStep : peer.afterAwaitingResponse task call session released answer = some after) :
  PeerHolds isPoint after := by
  rcases hStage with ⟨hCall, hOwn, hReleased⟩
  unfold Peer.afterAwaitingResponse at hStep
  split at hStep
  · rw [← some.inj hStep]
    apply hHold.afterGetSession
    · trivial
    · intro other object hObj hFrom
      trivial
  · split at hStep
    · rename_i hTrue
      rw [← some.inj hStep]
      apply hHold.afterGetSession
      · exact ⟨hCall, hOwn, hReleased hTrue, nofun⟩
      · intro other object hObj hFrom
        refine ⟨hCall, hOwn, hReleased hTrue, ?_⟩
        intro found hFound
        rw [← some.inj hFound]
        exact hFrom
    · cases hStep

theorem PeerHolds.reaches_own {other : JsText} (hOwn : OwnSession isPoint peer.view call session)
  (hDone : ∃ identityKey, (session, identityKey) ∈ peer.view.completed)
  (hOther : other = session ∨ peer.view.identity other = some session)
  (hIdent : peer.view.identity other = some identityKey)
  (hValid : assertAuthIdentityKey isPoint identityKey = true) :
  Reaches isPoint peer.view call identityKey := by
  rcases hDone with ⟨answered, hDone⟩
  rcases hHold.view.accepted (hHold.view.completed hDone) with ⟨-, hAnswered, -⟩
  rcases hOther with rfl | hNamed
  · rw [hIdent] at hAnswered
    have hSame : identityKey = answered := some.inj hAnswered
    rw [← hSame] at hDone
    constructor
    · intro target hTgt _
      have hTaken := hOwn.identity target hTgt
      rw [hIdent] at hTaken
      exact some.inj hTaken
    · intro _
      exact ⟨other, hOwn.initiated, hDone⟩
  · rw [hIdent] at hNamed
    rcases isSome_iff_exists.mp hOwn.object with ⟨object, hObj⟩
    exact absurd (some.inj hNamed) (ne_of_identityKey hValid
      (hHold.view.created (hHold.view.objects hObj)))

theorem PeerHolds.afterHandshakeAnswered {found : Option JsText}
  (hStage : StageHolds isPoint peer.view (.handshakeAnswered call session found)) :
  PeerHolds isPoint (peer.afterHandshakeAnswered task call found) := by
  rcases hStage with ⟨hCall, hOwn, hDone, hFound⟩
  unfold Peer.afterHandshakeAnswered
  split
  · exact hHold.reject task _
  · rename_i object hSess
    rcases bind_eq_some_iff.mp hSess with ⟨other, hOther, hObj⟩
    have hName := hHold.indexed.named hObj
    split
    · rename_i hAuth
      have hReady : StageHolds isPoint peer.view (.ready call object.sessionNonce) := by
        rw [hName]
        refine ⟨hCall, ?_, ?_⟩
        · unfold View.identity
          change ((peer.sessionManager.objects other).bind _).isSome = true
          rw [hObj]
          exact hHold.view.authenticated hObj hAuth
        · intro identityKey hIdent hValid
          exact hHold.reaches_own hOwn hDone (hFound other hOther) hIdent hValid
      exact hHold.setStage hReady task
    · exact hHold.reject task _

theorem PeerHolds.afterReady (hStage : StageHolds isPoint peer.view (.ready call session))
  (hStep : Peer.afterReady isPoint peer task call session answer = some after) :
  PeerHolds isPoint after := by
  rcases hStage with ⟨hCall, -, hReaches⟩
  unfold Peer.afterReady at hStep
  split at hStep
  · cases hStep
  · rename_i object hObj
    have hIdent : peer.view.identity session =
          object.peerIdentityKey := by
      unfold View.identity
      change (peer.sessionManager.objects session).bind _ = _
      rw [hObj]
      rfl
    split at hStep
    · have hFin : StageHolds isPoint peer.view .finished := trivial
      rw [← some.inj hStep]
      exact hHold.setStage hFin task
    · rw [← some.inj hStep]
      exact hHold.reject task _
    · split at hStep
      · split at hStep
        · rename_i hMay
          rw [← some.inj hStep]
          rw [Bool.and_eq_true] at hMay
          unfold isCounterparty at hMay
          cases hKey : object.peerIdentityKey with
          | none =>
            rw [hKey] at hMay
            cases hMay.2
          | some identityKey =>
            rw [hKey] at hMay hIdent
            have hSigning : StageHolds isPoint peer.view
                  (.signing call session answer.nonce (some identityKey)) :=
              ⟨hCall, identityKey, rfl, hReaches identityKey hIdent hMay.2⟩
            exact hHold.setStage hSigning task
        · cases hStep
      · rw [← some.inj hStep]
        exact hHold.reject task _

theorem PeerHolds.afterSigning {requestNonce : JsText} {counterparty : Option JsText}
  (hStage : StageHolds isPoint peer.view (.signing call session requestNonce counterparty))
  (hStep : peer.afterSigning task call session requestNonce counterparty answer = some after) :
  PeerHolds isPoint after := by
  unfold Peer.afterSigning at hStep
  split at hStep
  · cases hStep
  · rename_i object hObj
    split at hStep
    · have hUpdating : StageHolds isPoint peer.view (.updating session
              (changeBeforeSending call.purpose requestNonce) .queued
              (.send call session counterparty (peer.outbound call.purpose object
                requestNonce answer.signature))) :=
        ⟨fun hMark => absurd hMark (changeBeforeSending_ne _ _), hStage⟩
      rw [← some.inj hStep]
      exact hHold.setStage hUpdating task
    · rw [← some.inj hStep]
      exact hHold.reject task _

end

-- Messages

theorem StageHolds.releaseCertificates (hStage : StageHolds isPoint view stage) :
  StageHolds isPoint view (Peer.releaseCertificates session stage) := by
  cases stage with
  | awaitingCertificates message other released => trivial
  | _ => exact hStage

section

variable (hHold : PeerHolds isPoint peer)

include hHold

theorem PeerHolds.resolveCertificateValidation (session : JsText) :
  PeerHolds isPoint (peer.resolveCertificateValidation session) := by
  refine hHold.quiet hHold.indexed rfl rfl rfl ?_
  intro stage hMem
  rcases List.mem_map.mp hMem with ⟨old, hOld, rfl⟩
  exact (hHold.stages old hOld).releaseCertificates

theorem PeerHolds.afterUpdated {validated : Bool} (answer : Answer)
  (hNext : ContinuationHolds isPoint peer.view next) :
  PeerHolds isPoint (peer.afterUpdated task validated answer next) := by
  have hFin : StageHolds isPoint peer.view .finished := trivial
  cases next with
  | initial message session =>
    have hStage : StageHolds isPoint peer.view (.completing message session) := hNext
    exact (hHold.resolveCertificateValidation session).setStage hStage task
  | request message =>
    have hStage : StageHolds isPoint peer.view (.answering message) := hNext
    simp only [Peer.afterUpdated]
    split
    · exact hHold.setStage hFin task
    · split
      · exact hHold.setStage hFin task
      · exact hHold.setStage hStage task
  | response message session =>
    have hStage : StageHolds isPoint peer.view (.updating session (.matchResponse message)
            .queued (.matched session)) :=
      ⟨nofun, trivial⟩
    simp only [Peer.afterUpdated]
    split
    · exact hHold.setStage hFin task
    · exact hHold.setStage hStage task
  | matched session =>
    simp only [Peer.afterUpdated]
    split
    · exact (hHold.resolveCertificateValidation session).setStage hFin task
    · exact hHold.setStage hFin task
  | general message session =>
    simp only [Peer.afterUpdated]
    apply hHold.afterGetSession
    · trivial
    · intro other object hObj hFrom
      trivial
  | send call session counterparty message =>
    have hForget : ∀ requestNonce, StageHolds isPoint peer.view
          (.updating session (.forgetRequest requestNonce) .queued .giveUp) :=
      fun _ => ⟨nofun, trivial⟩
    simp only [Peer.afterUpdated]
    split
    · apply hHold.withSent
      · intro other hOther _
        rw [← some.inj hOther]
        exact hNext
      · trivial
    · split
      · exact hHold.setStage (hForget _) task
      · exact hHold.reject task _
  | giveUp => exact hHold.reject task _

theorem PeerHolds.afterQueued (hFound : FoundHolds peer.view change session)
  (hNext : ContinuationHolds isPoint peer.view next) (now : Nat) :
  PeerHolds isPoint (peer.afterGetSession task session now fun found =>
      match found with
      | none => .rejected (SessionError.notFound session).message
      | some found => .updating session change (.held found) next) := by
  apply hHold.afterGetSession
  · trivial
  · intro other object hObj hFrom
    refine ⟨?_, hNext⟩
    intro hMark
    rcases hFrom with rfl | hIdent
    · exact hFound hMark
    · rw [hIdent]
      rfl

theorem PeerHolds.afterUpdating {phase : Phase}
  (hStage : StageHolds isPoint peer.view (.updating session change phase next))
  (hStep : peer.afterUpdating task session change phase next answer = some after) :
  PeerHolds isPoint after := by
  rcases hStage with ⟨hPhase, hNext⟩
  cases phase with
  | queued =>
    rw [← some.inj hStep]
    exact hHold.afterQueued hPhase hNext answer.now
  | held found => exact hHold.afterHeld hPhase hNext hStep
  | validating found requested policy matchesHandshake => exact hHold.afterValidating hNext hStep
  | changed found validated => exact hHold.afterChanged hNext hStep
  | updated validated =>
    rw [← some.inj hStep]
    exact hHold.afterUpdated answer hNext

theorem PeerHolds.addTask (hStage : StageHolds isPoint peer.view stage) :
  ∀ other ∈ peer.tasks ++ [stage], StageHolds isPoint peer.view other := by
  intro other hOther
  rcases mem_append.mp hOther with hOld | hNew
  · exact hHold.stages other hOld
  · rw [mem_singleton.mp hNew]
    exact hStage

theorem PeerHolds.deliver {now : Nat}
  (hStep : Peer.deliver isPoint peer message now = some after) : PeerHolds isPoint after := by
  unfold Peer.deliver at hStep
  split at hStep
  · rename_i hValid
    have hSender := identityKey_of_valid hValid
    have hCheck : StageHolds isPoint peer.view (.nonceCheck message) := hSender
    split at hStep
    · have hClaim :=
        letsGo_claimInitialRequestNonce peer.sessionManager
          message.identityKey (message.initialNonce.getD []) now
      rcases hPair : peer.sessionManager.claimInitialRequestNonce message.identityKey
            (message.initialNonce.getD []) now with
        ⟨claimed, manager⟩
      rw [hPair] at hClaim hStep
      have hObjects : manager.objects = peer.sessionManager.objects := hClaim.objects
      rw [← some.inj hStep]
      refine hHold.quiet (hClaim.indexed hHold.indexed) ?_ rfl rfl (hHold.addTask ?_)
      · unfold Peer.view
        simp only [hObjects]
      · split
        · exact hSender
        · trivial
    · rw [← some.inj hStep]
      exact hHold.quiet hHold.indexed rfl rfl rfl (hHold.addTask hCheck)
  · cases hStep

theorem PeerHolds.afterRequestClaimed
  (hStep : peer.afterRequestClaimed task message answer = some after) :
  PeerHolds isPoint after := by
  unfold Peer.afterRequestClaimed at hStep
  split at hStep
  · rw [← some.inj hStep]
    exact hHold.reject task _
  · split at hStep
    · rename_i hNew
      rw [← some.inj hStep]
      exact hHold.afterNewSession hNew rfl rfl (fun _ h => h) trivial
    · cases hStep

theorem PeerHolds.afterRequestAdded (message : AuthMessage) (session : JsText) (answer : Answer) :
  PeerHolds isPoint (peer.afterRequestAdded task message session answer) := by
  unfold Peer.afterRequestAdded
  split
  · apply hHold.withSent
    · nofun
    · trivial
  · exact hHold.reject task _

theorem PeerHolds.afterNonceCheck (answer : Answer)
  (hSender : assertAuthIdentityKey isPoint message.identityKey = true) :
  PeerHolds isPoint (peer.afterNonceCheck task message answer) := by
  unfold Peer.afterNonceCheck
  split
  · apply hHold.afterGetSession
    · trivial
    · intro session object hObj hFrom
      refine ⟨hSender, ?_⟩
      change (peer.sessionManager.objects session).isSome = true
      rw [hObj]
      rfl
  · exact hHold.reject task _

theorem PeerHolds.afterLookup (hSender : assertAuthIdentityKey isPoint message.identityKey = true)
  (hStep : peer.afterLookup task message found = some after) : PeerHolds isPoint after := by
  unfold Peer.afterLookup at hStep
  split at hStep
  · cases hStep
  · rename_i session hObj
    have hIdent : peer.view.identity found = session.peerIdentityKey := by
      unfold View.identity
      change (peer.sessionManager.objects found).bind _ = _
      rw [hObj]
      rfl
    split at hStep
    · rw [← some.inj hStep]
      exact hHold.reject task _
    · rename_i hMatches
      rcases identity_of_matchesSession hMatches with ⟨hResp, hOther⟩
      have hStage : StageHolds isPoint peer.view (.verifying message found) := by
        constructor
        · exact hSender
        · change (peer.sessionManager.objects found).isSome = true
          rw [hObj]
          rfl
        · intro hType
          rw [hIdent]
          exact (hResp hType).imp id Or.inl
        · intro hType
          rw [hIdent, hOther hType]
          rfl
      rw [← some.inj hStep]
      exact hHold.setStage hStage task

theorem PeerHolds.afterVerifying (answer : Answer)
  (hFor : MessageFor isPoint peer.view message session) :
  PeerHolds isPoint (peer.afterVerifying task message session answer) := by
  unfold Peer.afterVerifying
  split
  · cases hClaim :
        peer.sessionManager.claimMessageNonce session (messageNonce message) answer.now with
    | mk outcome manager =>
      have hKeeps : manager.Indexed ∧ manager.objects = peer.sessionManager.objects := by
        by_cases hTrue : outcome = .ok true
        · rw [hTrue] at hClaim
          have hClaims := SessionManager.claims_of_claimMessageNonce hHold.indexed hClaim
          exact ⟨hClaims.indexed hHold.indexed, hClaims.objects⟩
        · have hGone := SessionManager.letsGo_claimMessageNonce hHold.indexed hClaim hTrue
          exact ⟨hGone.indexed hHold.indexed, hGone.objects⟩
      have hQuiet : ∀ (next : Peer) (stage : Stage), next.sessionManager = manager →
            next.view = ({ peer with
                  sessionManager := manager } : Peer).view →
              next.lastInteractedWithPeer = peer.lastInteractedWithPeer →
                next.history.sent = peer.history.sent → next.tasks = peer.tasks.set task stage →
                  StageHolds isPoint peer.view stage → PeerHolds isPoint next := by
        intro next stage hManager hView hLast hSent hTasks hStage
        refine hHold.quiet ?_ ?_ hLast hSent ?_
        · rw [hManager]
          exact hKeeps.1
        · rw [hView]
          unfold Peer.view
          simp only [hKeeps.2]
        · rw [hTasks]
          exact forall_mem_set hHold.stages hStage task
      have hRejected : ∀ error, StageHolds isPoint peer.view (.rejected error) := fun _ => trivial
      have hClaimed : StageHolds isPoint peer.view (.claimed message session) := hFor
      simp only
      split
      · exact hQuiet _ _ rfl rfl rfl rfl rfl (hRejected _)
      · exact hQuiet _ _ rfl rfl rfl rfl rfl (hRejected _)
      · exact hQuiet _ _ rfl rfl rfl rfl rfl hClaimed
  · exact hHold.reject task _

theorem PeerHolds.afterAccepted (hStage : StageHolds isPoint peer.view (.accepted message session))
  (hStep : peer.afterAccepted task message session = some after) : PeerHolds isPoint after := by
  have hCompleting : StageHolds isPoint peer.view (.completing message session) := hStage
  have hUpdating :
      StageHolds isPoint peer.view (.updating session (.validateInitial message) .queued
        (.initial message session)) :=
    ⟨nofun, hStage⟩
  unfold Peer.afterAccepted at hStep
  split at hStep
  · cases hStep
  · split at hStep
    · rw [← some.inj hStep]
      exact hHold.setStage hCompleting task
    · rw [← some.inj hStep]
      exact hHold.setStage hUpdating task

theorem PeerHolds.afterAnswering (message : AuthMessage) (answer : Answer) :
  PeerHolds isPoint (peer.afterAnswering task message answer) := by
  have hFin : StageHolds isPoint peer.view .finished := trivial
  unfold Peer.afterAnswering
  split
  · exact hHold.reject task _
  · split
    · exact hHold.setStage hFin task
    · split
      · exact hHold.setStage hFin task
      · exact hHold.beginCall _ _ _

theorem PeerHolds.dispatch (message : AuthMessage) (session : JsText) :
  PeerHolds isPoint (peer.dispatch task message session) := by
  have hFin : StageHolds isPoint peer.view .finished := trivial
  exact hHold.quiet hHold.indexed rfl rfl rfl (forall_mem_set hHold.stages hFin task)

theorem PeerHolds.afterCurrent (hStep : peer.afterCurrent task message session found = some after) :
  PeerHolds isPoint after := by
  have hWaiting : StageHolds isPoint peer.view (.awaitingCertificates message session false) :=
    trivial
  unfold Peer.afterCurrent at hStep
  split at hStep
  · cases hStep
  · split at hStep
    · rw [← some.inj hStep]
      exact hHold.setStage hWaiting task
    · rw [← some.inj hStep]
      exact hHold.dispatch message session

theorem PeerHolds.afterAwaitingCertificates {released : Bool}
  (hStep : peer.afterAwaitingCertificates task message session released answer = some after) :
  PeerHolds isPoint after := by
  unfold Peer.afterAwaitingCertificates at hStep
  split at hStep
  · rw [← some.inj hStep]
    exact hHold.dispatch message session
  · split at hStep
    · cases hStep
    · rw [← some.inj hStep]
      exact hHold.reject task _

theorem PeerHolds.afterFailing (found : JsText) (answer : Answer) :
  PeerHolds isPoint (peer.afterFailing task found answer) := by
  have hGone := SessionManager.letsGo_removeSession peer.sessionManager found
  have hRejected : StageHolds isPoint peer.view (.rejected answer.error) := trivial
  refine hHold.quiet (hGone.indexed hHold.indexed) ?_ rfl rfl
    (forall_mem_set hHold.stages hRejected task)
  unfold Peer.afterFailing Peer.view
  simp only [hGone.objects]

end

-- Runs

/-
  A response that is about to be accepted names a session that this peer created to initiate a
  handshake, and that was not answered yet.
-/
def answersOwnHandshake (peer : Peer) : PeerEvent → Bool
| .resume task _ =>
  match peer.tasks[task]? with
  | some (.claimed message session) =>
    message.messageType != .initialResponse || (peer.history.initiated.contains session &&
        !(peer.history.accepted.map Prod.fst).contains session)
  | _ => true
| _ => true

theorem PeerHolds.resume
  (hHold : PeerHolds isPoint peer) (hStage : StageHolds isPoint peer.view stage) (hOwn :
    ∀ message session, stage = .claimed message session → message.messageType = .initialResponse →
          session ∈ peer.history.initiated ∧ ¬ peer.view.Answered session)
  (hStep : peer.resume isPoint task answer stage = some after) : PeerHolds isPoint after := by
  cases stage with
  | requestClaimed message => exact hHold.afterRequestClaimed hStep
  | requestAdded message session =>
    rw [← some.inj hStep]
    exact hHold.afterRequestAdded message session answer
  | nonceCheck message =>
    rw [← some.inj hStep]
    exact hHold.afterNonceCheck answer hStage
  | lookup message found => exact hHold.afterLookup hStage.1 hStep
  | verifying message session =>
    rw [← some.inj hStep]
    exact hHold.afterVerifying answer hStage
  | claimed message session => exact hHold.afterClaimed hStage (hOwn message session rfl) hStep
  | accepted message session => exact hHold.afterAccepted hStage hStep
  | updating session change phase next => exact hHold.afterUpdating hStage hStep
  | completing message session =>
    rw [← some.inj hStep]
    exact hHold.afterCompleting hStage.1 hStage.2
  | answering message =>
    rw [← some.inj hStep]
    exact hHold.afterAnswering message answer
  | current message session found => exact hHold.afterCurrent hStep
  | awaitingCertificates message session released => exact hHold.afterAwaitingCertificates hStep
  | calling call found =>
    rw [← some.inj hStep]
    exact hHold.afterCalling hStage
  | creating call => exact hHold.afterCreating hStage hStep
  | handshakeAdded call session =>
    rw [← some.inj hStep]
    exact hHold.afterHandshakeAdded answer hStage.1 hStage.2
  | awaitingResponse call session released => exact hHold.afterAwaitingResponse hStage hStep
  | handshakeAnswered call session found =>
    rw [← some.inj hStep]
    exact hHold.afterHandshakeAnswered hStage
  | failing found =>
    rw [← some.inj hStep]
    exact hHold.afterFailing found answer
  | ready call session => exact hHold.afterReady hStage hStep
  | signing call session requestNonce counterparty => exact hHold.afterSigning hStage hStep
  | finished => cases hStep
  | rejected error => cases hStep

theorem PeerHolds.step
  {peer : Peer} (hHold : PeerHolds isPoint peer) {event : PeerEvent} {after : Peer}
  (hStep : Peer.step isPoint peer event = some after)
  (hOwn : answersOwnHandshake peer event = true) : PeerHolds isPoint after := by
  cases event with
  | deliver message now => exact hHold.deliver hStep
  | call purpose identityKey now =>
    have hFin : StageHolds isPoint peer.view .finished := trivial
    simp only [Peer.step] at hStep
    split at hStep
    · rw [← some.inj hStep]
      have hAdded : PeerHolds isPoint
            { peer with
              tasks := peer.tasks ++ [Stage.finished] } :=
        hHold.quiet hHold.indexed rfl rfl rfl (hHold.addTask hFin)
      exact hAdded.beginCall _ _ _
    · cases hStep
  | resume task answer =>
    rcases bind_eq_some_iff.mp hStep with ⟨stage, hTask, hResume⟩
    apply hHold.resume (hHold.stages stage (mem_of_getElem? hTask)) ?_ hResume
    rintro message session rfl hType
    unfold answersOwnHandshake at hOwn
    simp only [hTask, hType, bne_self_eq_false, Bool.false_or, Bool.and_eq_true,
      contains_iff_mem, Bool.not_eq_true'] at hOwn
    refine ⟨hOwn.1, ?_⟩
    intro hAnswered
    have hContains : (peer.history.accepted.map Prod.fst).contains session = true :=
      contains_iff_mem.mpr hAnswered
    rw [hOwn.2] at hContains
    cases hContains
  | signed signature =>
    rw [← some.inj hStep]
    exact hHold.quiet hHold.indexed rfl rfl rfl hHold.stages

theorem peerHolds_create (isPoint : JsText → Bool) (identityPublicKey : JsText)
  (certificatesToRequest : RequestedCertificateSet) (options : SessionManagerOptions)
  (autoPersist : Bool) : PeerHolds isPoint (create identityPublicKey certificatesToRequest
      options autoPersist) where
  indexed := ⟨fun hMem => absurd hMem not_mem_nil,
      fun hSome => absurd hSome (some_ne_none _).symm,
      fun hSome => absurd hSome (some_ne_none _).symm⟩
  view := ⟨fun hSome => absurd hSome (some_ne_none _).symm,
      fun hMem => absurd hMem not_mem_nil,
      fun hSome => absurd hSome (some_ne_none _).symm,
      fun hMem => absurd hMem not_mem_nil, nodup_nil,
      fun hMem => absurd hMem not_mem_nil⟩
  last := rfl
  sent := fun _ hMem => absurd hMem not_mem_nil
  stages := fun _ hMem => absurd hMem not_mem_nil

/- The identity that messages without a destination go to. -/
def implicitDestination
  (autoPersist : Bool) (completed : List (JsText × JsText)) (call : Call) : Option JsText :=
  if autoPersist then lastCompleted (completed.take call.completedBefore)
  else none

/-
  A message for a call that passed no identity went to the peer of the last handshake that was
  completed before the call; where there is none, to the peer that completed the handshake which
  the call initiated.
-/
def GoesToLatest (autoPersist : Bool) (history : History) (sent : SentMessage) : Prop :=
  ∀ call, sent.call = some call → sent.message.messageType ≠ .initialRequest →
        call.purpose ≠ .session → call.identityKey = none →
            ∃ identityKey, sent.counterparty = some identityKey ∧
                (∀ latest, implicitDestination autoPersist history.completed call = some latest →
                    identityKey = latest) ∧
                (implicitDestination autoPersist history.completed call = none →
                  ∃ session, call.initiated = some session ∧
                      (session, identityKey) ∈ history.completed)

theorem PeerHolds.goesToLatest
  (hHold : PeerHolds isPoint peer) {sent : SentMessage} (hMem : sent ∈ peer.history.sent) :
  GoesToLatest peer.autoPersistLastSession peer.history
    sent := by
  intro call hCall hType hPurpose hNone
  rcases hHold.sent sent hMem call hCall hType with ⟨hHeld, identityKey, hSome, hReaches⟩
  have hTgt : call.target = implicitDestination peer.autoPersistLastSession
          peer.history.completed call := by
    rw [hHeld.target hPurpose]
    unfold implicitIdentity
    rw [hNone]
    rfl
  refine ⟨identityKey, hSome, ?_, ?_⟩
  · intro latest hLatest
    rw [← hTgt] at hLatest
    exact hReaches.target latest hLatest (hHeld.valid latest hNone hLatest)
  · intro hAbsent
    rw [← hTgt] at hAbsent
    exact hReaches.own hAbsent

/-
  In every run in which the responses that are accepted answer handshakes of this peer, each for
  the first time, only they choose the implicit destination.
-/
theorem implicit_destination (isPoint : JsText → Bool) (identityPublicKey : JsText)
  (certificatesToRequest : RequestedCertificateSet) (options : SessionManagerOptions)
  (autoPersist : Bool) (events : List PeerEvent) {last : Peer}
  (hRun : Peer.runs isPoint events (Peer.create identityPublicKey certificatesToRequest
          options autoPersist) =
      some last)
  (hOwn :
    EventRun.Along (Peer.step isPoint) (fun peer event _ => answersOwnHandshake peer event = true)
      (Peer.create identityPublicKey certificatesToRequest options autoPersist)
      events) :
  last.lastInteractedWithPeer = lastCompleted last.history.completed ∧
    (∀ entry ∈ last.history.completed, entry ∈ last.history.accepted) ∧
    (∀ entry ∈ last.history.accepted, entry.1 ∈ last.history.initiated) ∧
    (last.history.accepted.map Prod.fst).Nodup ∧
    ∀ sent ∈ last.history.sent, GoesToLatest last.autoPersistLastSession last.history
        sent := by
  have hHolds : PeerHolds isPoint last :=
    EventRun.inv_of_along (fun _ _ _ hBefore hStep hGood => hBefore.step hStep hGood)
      events
      (peerHolds_create isPoint identityPublicKey certificatesToRequest options autoPersist)
      hRun hOwn
  exact ⟨hHolds.last,
      fun _ hEntry => hHolds.view.completed hEntry, fun _ hEntry => (hHolds.view.accepted hEntry).1,
      hHolds.view.once, fun _ hSent => hHolds.goesToLatest hSent⟩

/- A message to the implicit peer, once it has a session. -/
def sentByTask (task : Nat) : List PeerEvent :=
  .resume task { nonce := exampleRequestNonce } :: resumed task 5

def answeredRun : List PeerEvent :=
  [.call (.general [7]) none 0, .resume 0 { nonce := exampleNonce 66 }, .resume 0 {},
    .deliver (exampleResponse (exampleNonce 66)) 0] ++
  resumed 1 6 ++ resumed 0 2 ++ sentByTask 0

theorem implicit_destination_answered :
  ∃ last, Peer.runs (fun _ => true) answeredRun examplePeer = some last ∧
      last.history.sent.length = 2 ∧
      last.lastInteractedWithPeer = some otherExampleKey ∧
      ∀ sent ∈ last.history.sent, GoesToLatest last.autoPersistLastSession last.history sent := by
  have hSome :
      (Peer.runs (fun _ => true) answeredRun examplePeer).map (fun last =>
            (last.history.sent.length, last.lastInteractedWithPeer)) =
        some (2, some otherExampleKey) := rfl
  rcases Option.map_eq_some_iff.mp hSome with ⟨last, hRun, hLast⟩
  rcases Prod.mk.inj hLast with ⟨hCount, hImplicit⟩
  have hOwn :
      EventRun.Along (Peer.step fun _ => true) (fun peer event _ =>
          answersOwnHandshake peer event = true)
        examplePeer answeredRun :=
    of_decide_eq_true rfl
  exact ⟨last, hRun, hCount, hImplicit, (implicit_destination (fun _ => true) exampleKey
        ⟨[], []⟩ {} true answeredRun hRun hOwn).2.2.2.2⟩

/-
  A key that asked this peer for a handshake answers the session of its own request, and the next
  message without a destination goes to it.
-/
def responderRun : List PeerEvent :=
  [.deliver
      { messageType := .initialRequest
        identityKey := otherExampleKey
        initialNonce := some (exampleNonce 65) } 0,
    .resume 0 { nonce := exampleNonce 66 }, .resume 0 {},
    .deliver (exampleResponse (exampleNonce 66)) 0] ++
  resumed 1 6 ++ [.call (.general [7]) none 0] ++
  resumed 2 1 ++ sentByTask 2

theorem responder_session_accepted :
  (Peer.runs (fun _ => true) responderRun examplePeer).map (fun last =>
        (last.history.initiated, last.history.accepted, last.lastInteractedWithPeer,
          last.history.sent.getLast?.map (·.counterparty))) =
    some ([], [(exampleNonce 66, otherExampleKey)], some otherExampleKey,
        some (some otherExampleKey)) := rfl

end TsStack.Auth
