import TsStack.Auth.AuthMessage

/-
  The sessions that a peer keeps in memory.

  A session object is shared by reference between the store
  and the handlers that found it, so `objects` keeps every
  object that was made, also after the store lets it go.  The
  store finds a session by its nonce, or by the identity that
  it was indexed under, and forgets the nonces claimed in a
  session together with the session.
-/

-- Sessions

open List Option

namespace TsStack.Auth

open Function

structure PeerSession where
  isAuthenticated : Bool
  sessionNonce : JsText
  peerNonce : Option JsText
  peerIdentityKey : Option JsText
  lastUpdate : Nat
  certificatesRequired : Bool
  certificatesValidated : Bool
  certificatePolicy : RequestedCertificateSet
  pendingCertificateRequests : List (JsText × RequestedCertificateSet) := []
deriving DecidableEq

def isAuthorizationReady (session : PeerSession) : Bool :=
  session.isAuthenticated && (!session.certificatesRequired || session.certificatesValidated)

inductive SessionError where
| alreadyExpired
| capacityExhausted
| notFound (nonce : JsText)
| nonceCapacityExhausted
deriving DecidableEq

def SessionError.message : SessionError → JsText
| .alreadyExpired => Json.text "Cannot add an already-expired BRC-103 session."
| .capacityExhausted =>
  Json.text ("BRC-103 session capacity exhausted; authenticated " ++ "sessions were preserved")
| .notFound nonce => Json.text "Session not found for nonce: " ++ nonce
| .nonceCapacityExhausted => Json.text "BRC-103 session message nonce capacity exhausted"

structure InitialClaim where
  identityKey : JsText
  initialNonce : JsText
  claimedAt : Nat
deriving DecidableEq

structure SessionManagerOptions where
  maxSessions : Nat := 10000
  maxSessionIdleMs : Nat := 1800000
  maxMessageNoncesPerSession : Nat := 100000
  maxInitialRequestNonces : Nat := 100000
  maxInitialRequestNoncesPerIdentity : Nat := 256
deriving DecidableEq

structure SessionManager extends SessionManagerOptions where
  objects : JsText → Option PeerSession := fun _ => none
  sessionNonces : List JsText := []
  identityKeyToNonces : JsText → List JsText := fun _ => []
  sessionNonceToIdentityKey : JsText → Option JsText := fun _ => none
  consumedMessageNonces : JsText → List JsText := fun _ => []
  consumedInitialRequestNonces : List InitialClaim := []

-- Operations

namespace SessionManager

variable (manager : SessionManager)

def held (nonce : JsText) : Option PeerSession :=
  if manager.sessionNonces.contains nonce then manager.objects nonce
  else none

variable (session : PeerSession)

def isExpired (now : Nat) : Bool :=
  decide (session.lastUpdate + manager.maxSessionIdleMs ≤ now)

def mutate (nonce : JsText)
  (change : PeerSession → PeerSession) : SessionManager :=
  { manager with
    objects := Function.update manager.objects nonce ((manager.objects nonce).map change) }

def removeSessionIndexes (nonce : JsText) : SessionManager :=
  match manager.sessionNonceToIdentityKey nonce with
  | none => manager
  | some identityKey =>
    { manager with
      sessionNonceToIdentityKey := Function.update manager.sessionNonceToIdentityKey nonce none
      identityKeyToNonces := Function.update manager.identityKeyToNonces identityKey
          ((manager.identityKeyToNonces identityKey).filter (· != nonce)) }

def removeSession (nonce : JsText) : SessionManager :=
  let unindexed :=
    if manager.sessionNonces.contains nonce then manager.removeSessionIndexes nonce
    else manager
  { unindexed with
    sessionNonces := unindexed.sessionNonces.filter (· != nonce)
    consumedMessageNonces := Function.update unindexed.consumedMessageNonces nonce [] }

def pruneSessions (now : Nat) :
  List JsText → SessionManager → SessionManager
| [], manager => manager
| nonce :: rest, manager =>
  match manager.objects nonce with
  | none => pruneSessions now rest manager
  | some session =>
    if manager.isExpired session now then pruneSessions now rest (manager.removeSession nonce)
    else pruneSessions now rest manager

def pruneExpiredInitialRequestNonces (now : Nat) : SessionManager :=
  { manager with
    consumedInitialRequestNonces :=
      manager.consumedInitialRequestNonces.filter fun claim =>
        !decide (claim.claimedAt + manager.maxSessionIdleMs ≤ now) }

def pruneExpiredSessions (now : Nat) : SessionManager :=
  (pruneSessions now manager.sessionNonces manager).pruneExpiredInitialRequestNonces now

def leastRecent : List PeerSession → Option PeerSession
| [] => none
| session :: rest =>
  match leastRecent rest with
  | none => some session
  | some oldest =>
    if oldest.lastUpdate < session.lastUpdate then some oldest
    else some session

def evictLeastRecentlyUsedSession :
  Except SessionError SessionManager :=
  match leastRecent ((manager.sessionNonces.filterMap manager.objects).filter
        (!·.isAuthenticated)) with
  | none => .error .capacityExhausted
  | some oldest => .ok (manager.removeSession oldest.sessionNonce)

def withNonce (nonces : List JsText) (nonce : JsText) : List JsText :=
  if nonces.contains nonce then nonces
  else nonces ++ [nonce]

def insert : SessionManager :=
  let nonce := session.sessionNonce
  let holding := {
    manager with
    objects := Function.update manager.objects nonce (some session)
    sessionNonces := withNonce manager.sessionNonces nonce }
  match session.peerIdentityKey with
  | none => holding
  | some identityKey =>
    { holding with
      identityKeyToNonces := Function.update holding.identityKeyToNonces identityKey
          (withNonce (holding.identityKeyToNonces identityKey) nonce)
      sessionNonceToIdentityKey := Function.update holding.sessionNonceToIdentityKey
          nonce (some identityKey) }

def makeRoom (now : Nat) :
  Option SessionError × SessionManager :=
  let pruned :=
    if manager.maxSessions ≤ manager.sessionNonces.length then manager.pruneExpiredSessions now
    else manager
  if pruned.maxSessions ≤ pruned.sessionNonces.length then
    match pruned.evictLeastRecentlyUsedSession with
    | .error e => (some e, pruned)
    | .ok evicted => (none, evicted)
  else (none, pruned)

def addSession (now : Nat) :
  Option SessionError × SessionManager :=
  if manager.isExpired session now then (some .alreadyExpired, manager)
  else if manager.sessionNonces.contains session.sessionNonce then
    (none, (manager.removeSessionIndexes session.sessionNonce).insert session)
  else
    match manager.makeRoom now with
    | (some e, room) => (some e, room)
    | (none, room) => (none, room.insert session)

def updateSession (now : Nat) :
  Option SessionError × SessionManager :=
  if manager.sessionNonces.contains session.sessionNonce then
    (manager.removeSessionIndexes session.sessionNonce).addSession session now
  else manager.addSession session now

def isPreferred (session best : PeerSession) : Bool :=
  (session.isAuthenticated && !best.isAuthenticated) ||
    (session.isAuthenticated == best.isAuthenticated && isAuthorizationReady session &&
      !isAuthorizationReady best) ||
    (session.isAuthenticated == best.isAuthenticated &&
      isAuthorizationReady session == isAuthorizationReady best &&
      decide (best.lastUpdate < session.lastUpdate))

def dropFromIndex (identityKey nonce : JsText) : SessionManager :=
  { manager with
    identityKeyToNonces := Function.update manager.identityKeyToNonces identityKey
        ((manager.identityKeyToNonces identityKey).filter (· != nonce)) }

def selectSession (now : Nat) (identityKey : JsText) :
  List JsText → Option PeerSession → SessionManager → Option PeerSession × SessionManager
| [], best, manager => (best, manager)
| nonce :: rest, best, manager =>
  match manager.held nonce with
  | none => selectSession now identityKey rest best (manager.dropFromIndex identityKey nonce)
  | some session =>
    if manager.isExpired session now then
      selectSession now identityKey rest best (manager.removeSession nonce)
    else
      match best with
      | none => selectSession now identityKey rest (some session) manager
      | some best =>
        if isPreferred session best then selectSession now identityKey rest (some session) manager
        else selectSession now identityKey rest (some best) manager

def getSession (identifier : JsText) (now : Nat) :
  Option PeerSession × SessionManager :=
  match manager.held identifier with
  | none => selectSession now identifier (manager.identityKeyToNonces identifier) none manager
  | some direct =>
    if manager.isExpired direct now then
      let removed := manager.removeSession identifier
      selectSession now identifier (removed.identityKeyToNonces identifier) none removed
    else (some direct, manager)

def claimMessageNonce (sessionNonce messageNonce : JsText) (now : Nat) :
  Except SessionError Bool × SessionManager :=
  match manager.getSession sessionNonce now with
  | (none, looked) => (.error (.notFound sessionNonce), looked)
  | (some session, looked) =>
    if session.sessionNonce ≠ sessionNonce then (.error (.notFound sessionNonce), looked)
    else
      let consumed := looked.consumedMessageNonces sessionNonce
      if consumed.contains messageNonce then (.ok false, looked)
      else if looked.maxMessageNoncesPerSession ≤ consumed.length then
        (.error .nonceCapacityExhausted, looked)
      else
        (.ok true,
          { looked with
            consumedMessageNonces := Function.update looked.consumedMessageNonces
                sessionNonce (consumed ++ [messageNonce]) })

def dropFirst (property : InitialClaim → Bool) :
  List InitialClaim → List InitialClaim
| [] => []
| claim :: rest =>
  if property claim then rest
  else claim :: dropFirst property rest

def claimInitialRequestNonce (identityKey initialNonce : JsText)
  (now : Nat) : Bool × SessionManager :=
  let isSame (claim : InitialClaim) : Bool :=
    claim.identityKey == identityKey && claim.initialNonce == initialNonce
  let claims := manager.consumedInitialRequestNonces
  if claims.any fun claim =>
      isSame claim && decide (now < claim.claimedAt + manager.maxSessionIdleMs) then
    (false, manager)
  else
    let fresh := claims.filter (!isSame ·)
    let own := fresh.filter (·.identityKey == identityKey)
    let bounded :=
      if manager.maxInitialRequestNoncesPerIdentity ≤ own.length then
        dropFirst (·.identityKey == identityKey) fresh
      else fresh
    let kept :=
      if manager.maxInitialRequestNonces ≤ bounded.length then bounded.drop 1
      else bounded
    (true,
      { manager with
        consumedInitialRequestNonces := kept ++ [⟨identityKey, initialNonce, now⟩] })

end SessionManager

-- What the store lets go

structure SessionManager.Indexed (manager : SessionManager) : Prop where
  listed : ∀ {identityKey nonce}, nonce ∈ manager.identityKeyToNonces identityKey →
        manager.sessionNonceToIdentityKey nonce = some identityKey
  identity : ∀ {identityKey nonce}, manager.sessionNonceToIdentityKey nonce = some identityKey →
        (manager.objects nonce).bind (·.peerIdentityKey) = some identityKey
  named : ∀ {nonce session}, manager.objects nonce = some session → session.sessionNonce = nonce

/-
  The objects stay, sessions may be let go, and a session
  that is still held keeps its claimed nonces.
-/
structure SessionManager.LetsGo (before after : SessionManager) : Prop where
  objects : after.objects = before.objects
  held : ∀ {nonce}, nonce ∈ after.sessionNonces → nonce ∈ before.sessionNonces
  consumed : ∀ {nonce}, nonce ∈ after.sessionNonces →
      after.consumedMessageNonces nonce = before.consumedMessageNonces nonce
  indexed : before.Indexed → after.Indexed

namespace SessionManager

variable {manager before middle after : SessionManager} {nonce identityKey identifier : JsText}
variable {session : PeerSession} {now : Nat}

theorem LetsGo.refl (manager : SessionManager) : manager.LetsGo manager where
  objects := rfl
  held := id
  consumed := fun _ => rfl
  indexed := id

theorem LetsGo.trans (hFst : before.LetsGo middle) (hSnd : middle.LetsGo after) :
  before.LetsGo after where
  objects := hSnd.objects.trans hFst.objects
  held := fun hHeld => hFst.held (hSnd.held hHeld)
  consumed := fun hHeld => (hSnd.consumed hHeld).trans (hFst.consumed (hSnd.held hHeld))
  indexed := fun hIdx => hSnd.indexed (hFst.indexed hIdx)

theorem mem_filter_bne {values : List JsText} {value other : JsText} :
  value ∈ values.filter (· != other) ↔ value ∈ values ∧ value ≠ other := by
  rw [mem_filter, bne_iff_ne]

theorem Indexed.removeSessionIndexes (hIdx : manager.Indexed) (nonce : JsText) :
  (manager.removeSessionIndexes nonce).Indexed := by
  unfold SessionManager.removeSessionIndexes
  cases hKey : manager.sessionNonceToIdentityKey nonce with
  | none => exact hIdx
  | some key =>
    constructor
    · intro other member hMem
      change member ∈ update manager.identityKeyToNonces key _ other at hMem
      have hBoth : member ∈ manager.identityKeyToNonces other ∧ member ≠ nonce := by
        by_cases hOther : other = key
        · rw [hOther, update_self, mem_filter_bne] at hMem
          rw [hOther]
          exact hMem
        · rw [update_of_ne hOther] at hMem
          refine ⟨hMem, ?_⟩
          rintro rfl
          have hListed := hIdx.listed hMem
          rw [hKey] at hListed
          exact hOther (some.inj hListed).symm
      change update manager.sessionNonceToIdentityKey nonce none member = _
      rw [update_of_ne hBoth.2]
      exact hIdx.listed hBoth.1
    · intro other member hMem
      change update manager.sessionNonceToIdentityKey nonce none member = _ at hMem
      by_cases hSame : member = nonce
      · rw [hSame, update_self] at hMem
        cases hMem
      · rw [update_of_ne hSame] at hMem
        exact hIdx.identity hMem
    · exact hIdx.named

theorem objects_removeSessionIndexes (manager : SessionManager) (nonce : JsText) :
  (manager.removeSessionIndexes nonce).objects =
    manager.objects := by
  unfold removeSessionIndexes
  split <;> rfl

theorem sessionNonces_removeSessionIndexes (manager : SessionManager) (nonce : JsText) :
  (manager.removeSessionIndexes nonce).sessionNonces =
    manager.sessionNonces := by
  unfold removeSessionIndexes
  split <;> rfl

theorem consumed_removeSessionIndexes (manager : SessionManager) (nonce : JsText) :
  (manager.removeSessionIndexes nonce).consumedMessageNonces =
    manager.consumedMessageNonces := by
  unfold removeSessionIndexes
  split <;> rfl

theorem letsGo_removeSessionIndexes (manager : SessionManager) (nonce : JsText) :
  manager.LetsGo (manager.removeSessionIndexes nonce) where
  objects := objects_removeSessionIndexes manager nonce
  held := fun hHeld => by
    rw [sessionNonces_removeSessionIndexes] at hHeld
    exact hHeld
  consumed := fun _ => by rw [consumed_removeSessionIndexes]
  indexed := fun hIdx => hIdx.removeSessionIndexes nonce

theorem mem_removeSession {member : JsText} : member ∈ (manager.removeSession nonce).sessionNonces ↔
    member ∈ manager.sessionNonces ∧ member ≠ nonce := by
  unfold removeSession
  rw [mem_filter_bne]
  split
  · rw [sessionNonces_removeSessionIndexes]
  · exact Iff.rfl

theorem letsGo_removeSession (manager : SessionManager) (nonce : JsText) :
  manager.LetsGo (manager.removeSession nonce) := by
  have hUnindexed :
      manager.LetsGo (if manager.sessionNonces.contains nonce then
          manager.removeSessionIndexes nonce
        else manager) := by
    split
    · exact letsGo_removeSessionIndexes manager nonce
    · exact LetsGo.refl manager
  constructor
  · exact hUnindexed.objects
  · intro member hMem
    exact (mem_removeSession.mp hMem).1
  · intro member hMem
    rcases mem_removeSession.mp hMem with ⟨hHeld, hNe⟩
    unfold removeSession
    simp only [update_of_ne hNe]
    split
    · rw [consumed_removeSessionIndexes]
    · rfl
  · intro hIdx
    have hKept := hUnindexed.indexed hIdx
    exact ⟨hKept.listed, hKept.identity, hKept.named⟩

theorem letsGo_pruneSessions (now : Nat) (nonces : List JsText) (manager : SessionManager) :
  manager.LetsGo (pruneSessions now nonces manager) := by
  induction nonces generalizing manager with
  | nil => exact LetsGo.refl manager
  | cons nonce rest ih =>
    unfold pruneSessions
    split
    · exact ih manager
    · split
      · exact (letsGo_removeSession manager nonce).trans (ih _)
      · exact ih manager

theorem letsGo_pruneExpiredSessions (manager : SessionManager) (now : Nat) :
  manager.LetsGo (manager.pruneExpiredSessions now) := by
  have hPrune := letsGo_pruneSessions now manager.sessionNonces manager
  constructor
  · exact hPrune.objects
  · exact hPrune.held
  · exact hPrune.consumed
  · intro hIdx
    have hKept := hPrune.indexed hIdx
    exact ⟨hKept.listed, hKept.identity, hKept.named⟩

theorem letsGo_makeRoom (manager : SessionManager) (now : Nat) :
  manager.LetsGo (manager.makeRoom now).2 := by
  have hPrune :
      manager.LetsGo (if manager.maxSessions ≤ manager.sessionNonces.length then
          manager.pruneExpiredSessions now
        else manager) := by
    split
    · exact letsGo_pruneExpiredSessions manager now
    · exact LetsGo.refl manager
  unfold makeRoom
  simp only
  generalize (if manager.maxSessions ≤ manager.sessionNonces.length then
    manager.pruneExpiredSessions now
  else manager) = pruned at hPrune ⊢
  split
  · unfold evictLeastRecentlyUsedSession
    cases leastRecent ((pruned.sessionNonces.filterMap pruned.objects).filter
      (!·.isAuthenticated)) with
    | none => exact hPrune
    | some oldest => exact hPrune.trans (letsGo_removeSession pruned _)
  · exact hPrune

theorem maxSessionIdleMs_removeSession (manager : SessionManager) (nonce : JsText) :
  (manager.removeSession nonce).maxSessionIdleMs =
    manager.maxSessionIdleMs := by
  unfold removeSession removeSessionIndexes
  simp only
  split
  · split <;> rfl
  · rfl

theorem held_eq_some_iff : manager.held nonce = some session ↔ nonce ∈ manager.sessionNonces ∧
      manager.objects nonce = some session := by
  unfold held
  by_cases hHeld : nonce ∈ manager.sessionNonces
  · rw [if_pos (contains_iff_mem.mpr hHeld)]
    exact (and_iff_right hHeld).symm
  · rw [if_neg fun h => hHeld (contains_iff_mem.mp h)]
    exact iff_of_false nofun fun h => hHeld h.1

structure Selectable (manager : SessionManager) (now : Nat) (session : PeerSession) : Prop where
  object : manager.objects session.sessionNonce = some session
  held : session.sessionNonce ∈ manager.sessionNonces
  fresh : manager.isExpired session now = false

theorem Selectable.removeSession {expired : PeerSession} (hSess : manager.Selectable now session)
  (hObj : manager.objects nonce = some expired) (hExpired : manager.isExpired expired now = true) :
  (manager.removeSession nonce).Selectable now session := by
  have hNe : session.sessionNonce ≠ nonce := by
    rintro rfl
    rw [hSess.object] at hObj
    rw [← some.inj hObj, hSess.fresh] at hExpired
    cases hExpired
  constructor
  · rw [(letsGo_removeSession manager nonce).objects]
    exact hSess.object
  · exact mem_removeSession.mpr ⟨hSess.held, hNe⟩
  · unfold isExpired
    rw [maxSessionIdleMs_removeSession]
    exact hSess.fresh

theorem letsGo_dropFromIndex (manager : SessionManager) (identityKey nonce : JsText) :
  manager.LetsGo (manager.dropFromIndex identityKey nonce) where
  objects := rfl
  held := id
  consumed := fun _ => rfl
  indexed := fun hIdx => by
    refine ⟨?_, hIdx.identity, hIdx.named⟩
    intro other member hMem
    unfold dropFromIndex at hMem
    by_cases hOther : other = identityKey
    · simp only [hOther, update_self] at hMem
      rw [mem_filter_bne] at hMem
      rw [hOther]
      exact hIdx.listed hMem.1
    · simp only [update_of_ne hOther] at hMem
      exact hIdx.listed hMem

theorem selectSession_spec
  (now : Nat) (identityKey : JsText) (nonces : List JsText) (best : Option PeerSession)
  (manager : SessionManager) (hNamed :
    ∀ {nonce session}, manager.objects nonce = some session → session.sessionNonce = nonce)
  (hBest : ∀ session, best = some session → manager.Selectable now session) :
  manager.LetsGo (selectSession now identityKey nonces best manager).2 ∧
    ∀ session, (selectSession now identityKey nonces best manager).1 = some session →
        (selectSession now identityKey nonces best manager).2.Selectable now session ∧
          (best = some session ∨ session.sessionNonce ∈ nonces) := by
  induction nonces generalizing best manager with
  | nil =>
    exact ⟨LetsGo.refl manager, fun session hSess => ⟨hBest session hSess, .inl hSess⟩⟩
  | cons nonce rest ih =>
    unfold selectSession
    cases hHeld : manager.held nonce with
    | none =>
      have hDrop := letsGo_dropFromIndex manager identityKey nonce
      simp only
      rcases ih best (manager.dropFromIndex identityKey nonce) hNamed (fun session hSess =>
            let hKept := hBest session hSess
            ⟨hKept.object, hKept.held, hKept.fresh⟩) with
        ⟨hGone, hChoice⟩
      refine ⟨hDrop.trans hGone, ?_⟩
      intro session hSess
      rcases hChoice session hSess with ⟨hKept, hFrom⟩
      exact ⟨hKept, hFrom.imp id (mem_cons_of_mem _)⟩
    | some found =>
      rcases held_eq_some_iff.mp hHeld with ⟨hMem, hObj⟩
      have hName := hNamed hObj
      simp only
      split
      · rename_i hExpired
        have hRem := letsGo_removeSession manager nonce
        rcases ih best (manager.removeSession nonce) (fun h => hNamed (by
              rw [hRem.objects] at h
              exact h))
            (fun session hSess => (hBest session hSess).removeSession hObj hExpired) with
          ⟨hGone, hChoice⟩
        refine ⟨hRem.trans hGone, ?_⟩
        intro session hSess
        rcases hChoice session hSess with ⟨hKept, hFrom⟩
        exact ⟨hKept, hFrom.imp id (mem_cons_of_mem _)⟩
      · rename_i hFresh
        have hFound : manager.Selectable now found := by
          constructor
          · rw [hName]
            exact hObj
          · rw [hName]
            exact hMem
          · exact Bool.eq_false_iff.mpr hFresh
        have hTake :
            ∀ chosen : PeerSession, some found = some chosen → manager.Selectable now chosen := by
          rintro chosen ⟨⟩
          exact hFound
        have hKeepFound : ∀ session, some found = some session ∨ session.sessionNonce ∈ rest →
                session.sessionNonce ∈ nonce :: rest := by
          rintro session (hSame | hRest)
          · rw [← some.inj hSame, hName]
            exact mem_cons_self
          · exact mem_cons_of_mem _ hRest
        cases best with
        | none =>
          rcases ih (some found) manager hNamed hTake with ⟨hGone, hChoice⟩
          refine ⟨hGone, ?_⟩
          intro session hSess
          rcases hChoice session hSess with ⟨hKept, hFrom⟩
          exact ⟨hKept, .inr (hKeepFound session hFrom)⟩
        | some best =>
          simp only
          split
          · rcases ih (some found) manager hNamed hTake with ⟨hGone, hChoice⟩
            refine ⟨hGone, ?_⟩
            intro session hSess
            rcases hChoice session hSess with ⟨hKept, hFrom⟩
            exact ⟨hKept, .inr (hKeepFound session hFrom)⟩
          · rcases ih (some best) manager hNamed hBest with ⟨hGone, hChoice⟩
            refine ⟨hGone, ?_⟩
            intro session hSess
            rcases hChoice session hSess with ⟨hKept, hFrom⟩
            exact ⟨hKept, hFrom.imp id (mem_cons_of_mem _)⟩

theorem letsGo_getSession (hIdx : manager.Indexed) (identifier : JsText) (now : Nat) :
  manager.LetsGo (manager.getSession identifier now).2 := by
  have hSelect : ∀ middle : SessionManager, middle.Indexed → middle.LetsGo
          (selectSession now identifier (middle.identityKeyToNonces identifier) none middle).2 := by
    intro middle hMiddle
    exact (selectSession_spec now identifier _ none middle hMiddle.named nofun).1
  unfold getSession
  split
  · exact hSelect manager hIdx
  · split
    · have hRem := letsGo_removeSession manager identifier
      exact hRem.trans (hSelect _ (hRem.indexed hIdx))
    · exact LetsGo.refl manager

theorem mem_of_getSession
  (hIdx : manager.Indexed) (hFound : (manager.getSession identifier now).1 = some session) :
  manager.objects session.sessionNonce = some session ∧ session.sessionNonce ∈
      (manager.getSession identifier now).2.sessionNonces ∧
    (session.sessionNonce = identifier ∨ session.peerIdentityKey = some identifier) := by
  have hSelect : ∀ middle : SessionManager, manager.LetsGo middle → ∀ chosen,
          (selectSession now identifier (middle.identityKeyToNonces identifier) none
              middle).1 = some chosen →
            manager.objects chosen.sessionNonce = some chosen ∧
              chosen.sessionNonce ∈ (selectSession now identifier
                (middle.identityKeyToNonces identifier) none middle).2.sessionNonces ∧
              chosen.peerIdentityKey = some identifier := by
    intro middle hGone chosen hChosen
    have hMiddle := hGone.indexed hIdx
    rcases selectSession_spec now identifier _ none middle hMiddle.named nofun with ⟨hMore, hChoice⟩
    rcases hChoice chosen hChosen with ⟨hKept, hNone | hListed⟩
    · cases hNone
    · have hObj := hKept.object
      rw [hMore.objects] at hObj
      have hIdent := hMiddle.identity (hMiddle.listed hListed)
      rw [hObj] at hIdent
      rw [hGone.objects] at hObj
      exact ⟨hObj, hKept.held, hIdent⟩
  unfold getSession at hFound ⊢
  split at hFound
  · rcases hSelect manager (LetsGo.refl manager) session hFound with ⟨hObj, hHeld, hIdent⟩
    exact ⟨hObj, hHeld, .inr hIdent⟩
  · rename_i direct hDirect
    split at hFound
    · rename_i hExpired
      rw [if_pos hExpired]
      rcases hSelect _ (letsGo_removeSession manager identifier) session hFound with
        ⟨hObj, hHeld, hIdent⟩
      exact ⟨hObj, hHeld, .inr hIdent⟩
    · rename_i hFresh
      rw [if_neg hFresh]
      rcases held_eq_some_iff.mp hDirect with ⟨hHeld, hObj⟩
      rw [← some.inj hFound, hIdx.named hObj]
      exact ⟨hObj, hHeld, .inl rfl⟩

end SessionManager

-- What the store takes in

/- The outcome of adding a session: the others that are still held keep their claimed nonces. -/
structure SessionManager.Admits (before : SessionManager) (session : PeerSession)
  (after : Option SessionError × SessionManager) :
  Prop where
  refused : after.1.isSome = true → after.2.objects = before.objects
  admitted : after.1 = none → after.2.objects =
          Function.update before.objects session.sessionNonce (some session) ∧
        session.sessionNonce ∈ after.2.sessionNonces
  held : ∀ {nonce}, nonce ∈ after.2.sessionNonces →
      nonce ∈ before.sessionNonces ∨ nonce = session.sessionNonce
  consumed : ∀ {nonce}, nonce ∈ before.sessionNonces →
      nonce ∈ after.2.sessionNonces → after.2.consumedMessageNonces nonce =
          before.consumedMessageNonces nonce
  indexed :
    before.Indexed → (∀ old, before.objects session.sessionNonce = some old → old = session) →
        after.2.Indexed

namespace SessionManager

variable {manager before middle after : SessionManager} {nonce identityKey identifier : JsText}
variable {session : PeerSession} {now : Nat}

theorem mem_withNonce {nonces : List JsText} {member : JsText} :
  member ∈ withNonce nonces nonce ↔ member ∈ nonces ∨ member = nonce := by
  unfold withNonce
  by_cases hMem : nonce ∈ nonces
  · rw [if_pos (contains_iff_mem.mpr hMem)]
    constructor
    · exact .inl
    · rintro (h | rfl)
      · exact h
      · exact hMem
  · rw [if_neg fun h => hMem (contains_iff_mem.mp h), mem_append, mem_singleton]

theorem objects_insert (manager : SessionManager) (session : PeerSession) :
  (manager.insert session).objects =
    update manager.objects session.sessionNonce (some session) := by
  unfold insert
  simp only
  split <;> rfl

theorem sessionNonces_insert (manager : SessionManager) (session : PeerSession) :
  (manager.insert session).sessionNonces = withNonce manager.sessionNonces
      session.sessionNonce := by
  unfold insert
  simp only
  split <;> rfl

theorem consumed_insert (manager : SessionManager) (session : PeerSession) :
  (manager.insert session).consumedMessageNonces =
    manager.consumedMessageNonces := by
  unfold insert
  simp only
  split <;> rfl

theorem Indexed.insert (hIdx : manager.Indexed)
  (hSame : ∀ old, manager.objects session.sessionNonce = some old → old = session) :
  (manager.insert session).Indexed := by
  have hObjects : ∀ {nonce : JsText} {old : PeerSession}, manager.objects nonce = some old →
        update manager.objects session.sessionNonce (some session) nonce = some old := by
    intro nonce old hOld
    by_cases hNonce : nonce = session.sessionNonce
    · rw [hNonce] at hOld ⊢
      rw [update_self, hSame old hOld]
    · rw [update_of_ne hNonce]
      exact hOld
  have hIdent : ∀ {key nonce : JsText}, manager.sessionNonceToIdentityKey nonce = some key →
        (update manager.objects session.sessionNonce
          (some session) nonce).bind (·.peerIdentityKey) = some key := by
    intro key nonce hKey
    rcases bind_eq_some_iff.mp (hIdx.identity hKey) with ⟨old, hOld, hHas⟩
    rw [hObjects hOld]
    exact hHas
  have hNamed : ∀ {nonce : JsText} {found : PeerSession},
      update manager.objects session.sessionNonce (some session) nonce = some found →
        found.sessionNonce = nonce := by
    intro nonce found hFound
    by_cases hNonce : nonce = session.sessionNonce
    · rw [hNonce, update_self] at hFound
      rw [← some.inj hFound, hNonce]
    · rw [update_of_ne hNonce] at hFound
      exact hIdx.named hFound
  unfold SessionManager.insert
  simp only
  cases hKey : session.peerIdentityKey with
  | none => exact ⟨hIdx.listed, hIdent, hNamed⟩
  | some key =>
    refine ⟨?_, ?_, hNamed⟩
    · intro other member hMem
      simp only at hMem ⊢
      by_cases hOwn : member = session.sessionNonce
      · rw [hOwn, update_self]
        by_cases hOther : other = key
        · rw [hOther]
        · rw [update_of_ne hOther] at hMem
          have hListed := hIdx.listed hMem
          have hHas := hIdent hListed
          rw [hOwn, update_self, bind_some, hKey] at hHas
          exact hHas
      · rw [update_of_ne hOwn]
        by_cases hOther : other = key
        · rw [hOther, update_self, mem_withNonce] at hMem
          rw [hOther]
          exact hIdx.listed (hMem.resolve_right hOwn)
        · rw [update_of_ne hOther] at hMem
          exact hIdx.listed hMem
    · intro other member hMem
      simp only at hMem ⊢
      by_cases hOwn : member = session.sessionNonce
      · rw [hOwn, update_self] at hMem ⊢
        rw [bind_some, hKey]
        exact hMem
      · rw [update_of_ne hOwn] at hMem
        exact hIdent hMem

theorem admits_addSession (manager : SessionManager) (session : PeerSession) (now : Nat) :
  manager.Admits session (manager.addSession session now) := by
  have hInsert : ∀ middle : SessionManager, manager.LetsGo middle →
        (session.sessionNonce ∈ middle.sessionNonces ∨
          session.sessionNonce ∉ manager.sessionNonces) →
        manager.Admits session (none, middle.insert session) := by
    intro middle hGone hNonce
    constructor
    · nofun
    · intro _
      rw [objects_insert, sessionNonces_insert, hGone.objects]
      exact ⟨rfl, mem_withNonce.mpr (Or.inr rfl)⟩
    · intro member hMem
      rw [sessionNonces_insert, mem_withNonce] at hMem
      exact hMem.imp hGone.held id
    · intro member hPre hMem
      rw [sessionNonces_insert, mem_withNonce] at hMem
      rw [consumed_insert]
      rcases hMem with hMem | rfl
      · exact hGone.consumed hMem
      · exact hGone.consumed (hNonce.resolve_right fun h => h hPre)
    · intro hIdx hSame
      refine (hGone.indexed hIdx).insert ?_
      rw [hGone.objects]
      exact hSame
  have hRefuse : ∀ (e : SessionError)
      (middle : SessionManager),
      manager.LetsGo middle → manager.Admits session (some e, middle) := by
    intro e middle hGone
    constructor
    · intro _
      exact hGone.objects
    · nofun
    · intro member hMem
      exact .inl (hGone.held hMem)
    · intro member _ hMem
      exact hGone.consumed hMem
    · intro hIdx _
      exact hGone.indexed hIdx
  unfold addSession
  split
  · exact hRefuse _ _ (LetsGo.refl manager)
  · split
    · rename_i hHeld
      apply hInsert _ (letsGo_removeSessionIndexes manager _)
      rw [sessionNonces_removeSessionIndexes]
      exact .inl (contains_iff_mem.mp hHeld)
    · rename_i hNew
      have hRoom := letsGo_makeRoom manager now
      split
      · rename_i e room hMake
        rw [hMake] at hRoom
        exact hRefuse e room hRoom
      · rename_i room hMake
        rw [hMake] at hRoom
        exact hInsert room hRoom (Or.inr fun h => hNew (contains_iff_mem.mpr h))

theorem admits_updateSession (manager : SessionManager) (session : PeerSession) (now : Nat) :
  manager.Admits session (manager.updateSession session now) := by
  unfold updateSession
  split
  · have hAdds := admits_addSession (manager.removeSessionIndexes session.sessionNonce) session now
    have hGone := letsGo_removeSessionIndexes manager session.sessionNonce
    have hNonces := sessionNonces_removeSessionIndexes manager session.sessionNonce
    constructor
    · intro hRefused
      rw [hAdds.refused hRefused, hGone.objects]
    · intro hAdm
      rcases hAdds.admitted hAdm with ⟨hObjects, hHeld⟩
      rw [hObjects, hGone.objects]
      exact ⟨rfl, hHeld⟩
    · intro member hMem
      exact (hAdds.held hMem).imp hGone.held id
    · intro member hPre hMem
      rw [← hNonces] at hPre
      rw [hAdds.consumed hPre hMem, hGone.consumed hPre]
    · intro hIdx hSame
      refine hAdds.indexed (hGone.indexed hIdx) ?_
      rw [hGone.objects]
      exact hSame
  · exact admits_addSession manager session now

structure Claims (before : SessionManager) (sessionNonce messageNonce : JsText)
  (after : SessionManager) : Prop where
  objects : after.objects = before.objects
  held : ∀ {nonce}, nonce ∈ after.sessionNonces → nonce ∈ before.sessionNonces
  isHeld : sessionNonce ∈ after.sessionNonces
  isNew : messageNonce ∉ before.consumedMessageNonces sessionNonce
  claimed : messageNonce ∈ after.consumedMessageNonces sessionNonce
  consumed : ∀ {nonce}, nonce ∈ after.sessionNonces → ∀ other ∈ before.consumedMessageNonces nonce,
        other ∈ after.consumedMessageNonces nonce
  indexed : before.Indexed → after.Indexed

theorem letsGo_claimMessageNonce (hIdx : manager.Indexed) {sessionNonce messageNonce : JsText}
  {outcome : Except SessionError Bool}
  (hClaim : manager.claimMessageNonce sessionNonce messageNonce now = (outcome, after))
  (hRefused : outcome ≠ .ok true) : manager.LetsGo after := by
  have hLooked := letsGo_getSession hIdx sessionNonce now
  unfold claimMessageNonce at hClaim
  split at hClaim
  · rename_i looked hGet
    rw [hGet] at hLooked
    rw [← (Prod.mk.inj hClaim).2]
    exact hLooked
  · rename_i session looked hGet
    rw [hGet] at hLooked
    simp only at hClaim
    split at hClaim
    · rw [← (Prod.mk.inj hClaim).2]
      exact hLooked
    · split at hClaim
      · rw [← (Prod.mk.inj hClaim).2]
        exact hLooked
      · split at hClaim
        · rw [← (Prod.mk.inj hClaim).2]
          exact hLooked
        · exact absurd (Prod.mk.inj hClaim).1.symm hRefused

theorem claims_of_claimMessageNonce (hIdx : manager.Indexed) {sessionNonce messageNonce : JsText}
  (hClaim : manager.claimMessageNonce sessionNonce messageNonce now = (.ok true, after)) :
  manager.Claims sessionNonce messageNonce after := by
  have hLooked := letsGo_getSession hIdx sessionNonce now
  unfold claimMessageNonce at hClaim
  split at hClaim
  · cases (Prod.mk.inj hClaim).1
  · rename_i session looked hGet
    have hRes : (manager.getSession sessionNonce now).1 = some session := by rw [hGet]
    have hFound := mem_of_getSession hIdx hRes
    rw [hGet] at hLooked hFound
    simp only at hClaim hLooked hFound
    split at hClaim
    · cases (Prod.mk.inj hClaim).1
    · rename_i hName
      rw [not_not] at hName
      rw [hName] at hFound
      split at hClaim
      · cases (Prod.mk.inj hClaim).1
      · rename_i hNew
        split at hClaim
        · cases (Prod.mk.inj hClaim).1
        · have hAfter := (Prod.mk.inj hClaim).2
          rw [← hAfter]
          have hHeld := hFound.2.1
          have hSame := hLooked.consumed hHeld
          refine ⟨hLooked.objects, hLooked.held, hHeld, ?_, ?_, ?_, ?_⟩
          · rw [← hSame]
            intro hMem
            exact hNew (contains_iff_mem.mpr hMem)
          · simp only [update_self]
            exact mem_append_right _ mem_cons_self
          · intro nonce hNonce other hOther
            by_cases hOwn : nonce = sessionNonce
            · rw [hOwn] at hOther ⊢
              simp only [update_self]
              rw [hSame]
              exact mem_append_left _ hOther
            · simp only [update_of_ne hOwn]
              rw [hLooked.consumed hNonce]
              exact hOther
          · intro hPre
            have hKept := hLooked.indexed hPre
            exact ⟨hKept.listed, hKept.identity, hKept.named⟩

theorem Indexed.mutate (hIdx : manager.Indexed) {change : PeerSession → PeerSession}
  (hObj : manager.objects nonce = some session)
  (hNonce : (change session).sessionNonce = session.sessionNonce) (hIdent :
    ∀ key, session.peerIdentityKey = some key → (change session).peerIdentityKey = some key) :
  (manager.mutate nonce change).Indexed := by
  unfold SessionManager.mutate
  rw [hObj, map_some]
  refine ⟨hIdx.listed, ?_, ?_⟩
  · intro key member hMem
    have hOld := hIdx.identity hMem
    by_cases hOwn : member = nonce
    · rw [hOwn, hObj] at hOld
      simp only [hOwn, update_self]
      exact hIdent key hOld
    · simp only [update_of_ne hOwn]
      exact hOld
  · intro member found hFound
    by_cases hOwn : member = nonce
    · simp only [hOwn, update_self] at hFound
      rw [← some.inj hFound, hNonce, hOwn]
      exact hIdx.named hObj
    · simp only [update_of_ne hOwn] at hFound
      exact hIdx.named hFound

end SessionManager

end TsStack.Auth
