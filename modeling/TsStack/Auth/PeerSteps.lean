import TsStack.Auth.Peer

/-
  What single steps of a peer do to sessions and messages.

  A change of a session keeps its nonce and its identity; the
  store takes an object that it knows without any other being
  seen; a message that passed the checks names its sender.
-/

-- Sessions

namespace TsStack.Auth

open SessionManager Function

theorem isNewNonce_iff {peer : Peer} {nonce : JsText} :
  peer.isNewNonce nonce = true ↔ assertCanonicalBase64 nonce 48 = true ∧
      nonce ∉ peer.history.created := by
  unfold Peer.isNewNonce
  rw [Bool.and_eq_true, Bool.not_eq_true', ← Bool.not_eq_true, List.contains_iff_mem]

variable
    {manager : SessionManager} {session : PeerSession}

theorem objects_updateSession
  (hObj : manager.objects session.sessionNonce = some session) (now : Nat) :
  (manager.updateSession session now).2.objects =
    manager.objects := by
  have hAdds := admits_updateSession manager session now
  cases hOut : (manager.updateSession session now).1 with
  | none =>
    rw [(hAdds.admitted hOut).1, ← hObj]
    exact update_eq_self _ _
  | some e => exact hAdds.refused (by rw [hOut]; rfl)

theorem indexed_updateSession
  (hIdx : manager.Indexed) (hObj : manager.objects session.sessionNonce = some session)
  (now : Nat) : (manager.updateSession session now).2.Indexed := by
  apply (admits_updateSession manager session now).indexed hIdx
  intro old hOld
  rw [hObj] at hOld
  exact (Option.some.inj hOld).symm

theorem sessionNonce_apply (change : SessionChange) (date : Nat) (session : PeerSession) :
  (change.apply date session).sessionNonce =
    session.sessionNonce := by
  cases change <;> rfl

theorem peerIdentityKey_apply (change : SessionChange) (date : Nat) (session : PeerSession) :
  (change.apply date session).peerIdentityKey =
    session.peerIdentityKey := by
  cases change <;> rfl

/- Only `#markSessionAuthenticated` authenticates. -/
theorem isAuthenticated_apply {change : SessionChange} {date : Nat}
  (hTrue : (change.apply date session).isAuthenticated = true) :
  session.isAuthenticated = true ∨ change = .markAuthenticated := by
  cases change with
  | markAuthenticated => exact .inr rfl
  | touch => exact .inl hTrue
  | validateInitial message => exact .inl hTrue
  | matchResponse message => exact .inl hTrue
  | recordRequest requestNonce policy => exact .inl hTrue
  | forgetRequest requestNonce => exact .inl hTrue

theorem removeSessionIndexes_mutate
  (manager : SessionManager) (nonce : JsText) (change : PeerSession → PeerSession) :
  (manager.mutate nonce change).removeSessionIndexes nonce =
    (manager.removeSessionIndexes nonce).mutate nonce
      change := by
  unfold mutate removeSessionIndexes
  cases manager.sessionNonceToIdentityKey nonce <;> rfl

theorem indexed_mutate_of_none (hIdx : manager.Indexed) {nonce : JsText}
  (hNone : manager.sessionNonceToIdentityKey nonce = none) {change : PeerSession → PeerSession}
  (hNonce : ∀ session : PeerSession, (change session).sessionNonce = session.sessionNonce) :
  (manager.mutate nonce change).Indexed := by
  unfold mutate
  refine ⟨hIdx.listed, ?_, ?_⟩
  · intro key member hMem
    have hOther : member ≠ nonce := by
      rintro rfl
      simp only at hMem
      rw [hNone] at hMem
      cases hMem
    simp only [update_of_ne hOther]
    exact hIdx.identity hMem
  · intro member found hFound
    by_cases hOwn : member = nonce
    · simp only [hOwn, update_self] at hFound
      rcases Option.map_eq_some_iff.mp hFound with ⟨old, hOld, rfl⟩
      rw [hNonce, hOwn]
      exact hIdx.named hOld
    · simp only [update_of_ne hOwn] at hFound
      exact hIdx.named hFound

theorem sessionNonceToIdentityKey_removeSessionIndexes (manager : SessionManager) (nonce : JsText) :
  (manager.removeSessionIndexes nonce).sessionNonceToIdentityKey nonce = none := by
  unfold removeSessionIndexes
  cases hKey : manager.sessionNonceToIdentityKey nonce with
  | none => exact hKey
  | some key =>
    simp only
    exact update_self _ _ _

theorem indexed_updateSession_mutate
  (hIdx : manager.Indexed) {nonce : JsText} (hHeld : nonce ∈ manager.sessionNonces)
  {change : PeerSession → PeerSession}
  (hNonce : ∀ session : PeerSession, (change session).sessionNonce = session.sessionNonce)
  (hObj : manager.objects nonce = some session) (now : Nat) :
  ((manager.mutate nonce change).updateSession (change session) now).2.Indexed := by
  have hName : (change session).sessionNonce = nonce := by
    rw [hNonce]
    exact hIdx.named hObj
  have hContains : (manager.mutate nonce change).sessionNonces.contains nonce = true :=
    List.contains_iff_mem.mpr hHeld
  unfold updateSession
  rw [hName, if_pos hContains, removeSessionIndexes_mutate]
  apply (admits_addSession _ _ now).indexed
  · exact indexed_mutate_of_none (hIdx.removeSessionIndexes nonce)
      (sessionNonceToIdentityKey_removeSessionIndexes manager nonce) hNonce
  · intro old hOld
    rw [hName] at hOld
    unfold mutate at hOld
    simp only [update_self, objects_removeSessionIndexes, hObj,
      Option.map_some] at hOld
    exact (Option.some.inj hOld).symm

theorem letsGo_claimInitialRequestNonce
  (manager : SessionManager) (identityKey initialNonce : JsText) (now : Nat) :
  manager.LetsGo (manager.claimInitialRequestNonce identityKey initialNonce now).2 := by
  unfold claimInitialRequestNonce
  simp only
  split
  · exact ⟨rfl, id, fun _ => rfl, fun hIdx =>
      ⟨hIdx.listed, hIdx.identity, hIdx.named⟩⟩
  · exact ⟨rfl, id, fun _ => rfl, fun hIdx =>
      ⟨hIdx.listed, hIdx.identity, hIdx.named⟩⟩

-- Messages

theorem identityKey_of_valid {isPoint : JsText → Bool} {message : AuthMessage}
  (hValid : assertValidAuthMessage isPoint message = true) :
  assertAuthIdentityKey isPoint message.identityKey =
    true := by
  unfold assertValidAuthMessage at hValid
  simp only [Bool.and_eq_true] at hValid
  exact hValid.1.1.1

/- The session that passed the check may be the sender's. -/
theorem identity_of_matchesSession
  {message : AuthMessage} (hMatches : matchesSession message session = none) :
  (message.messageType = .initialResponse →
      session.peerIdentityKey = none ∨ session.peerIdentityKey = some message.identityKey) ∧
    (message.messageType ≠ .initialResponse →
      session.peerIdentityKey = some message.identityKey) := by
  unfold matchesSession at hMatches
  split at hMatches
  · rename_i hType hNone
    exact ⟨fun _ => .inl hNone, fun h => absurd hType h⟩
  · rename_i identityKey hType hSome
    split at hMatches
    · rename_i hSame
      rw [hSame] at hSome
      exact ⟨fun _ => .inr hSome, fun h => absurd hType h⟩
    · cases hMatches
  · cases hMatches
  · rename_i identityKey hSome hOther
    split at hMatches
    · cases hMatches
    · split at hMatches
      · rename_i hSame
        rw [← hSame] at hSome
        exact ⟨fun _ => .inr hSome, fun _ => hSome⟩
      · cases hMatches

theorem changeBeforeSending_ne (purpose : Purpose) (requestNonce : JsText) :
  Peer.changeBeforeSending purpose requestNonce ≠
    .markAuthenticated := by
  unfold Peer.changeBeforeSending
  split
  · nofun
  · nofun

theorem presented_changeBeforeSending (purpose : Purpose) (requestNonce : JsText) :
  (Peer.changeBeforeSending purpose requestNonce).presented = none := by
  unfold Peer.changeBeforeSending
  split
  · rfl
  · rfl

-- Peers of the examples

/- The compressed keys of two points of the curve. -/
def exampleKey : JsText :=
  Json.text "0279be667ef9dcbbac55a06295ce870b07029bfcdb2dce28d959f2815b16f81798"

def otherExampleKey : JsText :=
  Json.text "02c6047f9441ed7d6d3045406e95c07cd85c778e4b8cef3ca7abac09b95c709ee5"

def exampleNonce (unit : UInt16) : JsText :=
  List.replicate 64 unit

def exampleRequestNonce : JsText :=
  List.replicate 43 65 ++ [padding]

def examplePeer : Peer :=
  Peer.create exampleKey ⟨[], []⟩ {} true

def exampleResponse (session : JsText) : AuthMessage where
  messageType := .initialResponse
  identityKey := otherExampleKey
  initialNonce := some (exampleNonce 67)
  yourNonce := some session
  signature := some [1]

def resumed (task count : Nat) : List PeerEvent :=
  List.replicate count (.resume task {})

end TsStack.Auth
