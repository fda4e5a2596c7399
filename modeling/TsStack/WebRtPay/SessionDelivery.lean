import TsStack.WebRtPay.Handshake

/-
  What a session takes of the raw messages that it is given:
  every one in order, up to the first that it refuses.
-/

-- Messages Up to a Refusal

open List Option

namespace TsStack.WebRtPay

def applicationMessages (isPoint : JsText → Bool) :
  List Json → List WireMessage
| [] => []
| raw :: rest =>
  match applicationMessage isPoint raw with
  | none => []
  | some message => message :: applicationMessages isPoint rest

/- No message is refused. -/
def AllTaken (isPoint : JsText → Bool) (raws : List Json) : Prop :=
  (applicationMessages isPoint raws).length = raws.length

variable {isPoint : JsText → Bool} {raw : Json}

theorem applicationMessages_cons_of_none
  (hMsg : applicationMessage isPoint raw = none) (rest : List Json) :
  applicationMessages isPoint (raw :: rest) = [] := by
  simp only [applicationMessages, hMsg]

theorem applicationMessages_cons_of_some
  {message : WireMessage} (hMsg : applicationMessage isPoint raw = some message)
  (rest : List Json) :
  applicationMessages isPoint (raw :: rest) = message :: applicationMessages isPoint rest := by
  simp only [applicationMessages, hMsg]

theorem length_applicationMessages_le (isPoint : JsText → Bool) (raws : List Json) :
  (applicationMessages isPoint raws).length ≤
    raws.length := by
  induction raws with
  | nil => exact Nat.le_refl 0
  | cons raw rest ih =>
    cases hRaw : applicationMessage isPoint raw with
    | none =>
      rw [applicationMessages_cons_of_none hRaw]
      exact Nat.zero_le _
    | some message =>
      rw [applicationMessages_cons_of_some hRaw]
      exact Nat.succ_le_succ ih

theorem applicationMessages_append
  {raws : List Json} (hAll : AllTaken isPoint raws) (more : List Json) :
  applicationMessages isPoint (raws ++ more) =
    applicationMessages isPoint raws ++ applicationMessages isPoint more := by
  induction raws with
  | nil => rfl
  | cons raw rest ih =>
    unfold AllTaken at hAll ih
    rw [cons_append]
    cases hRaw : applicationMessage isPoint raw with
    | none =>
      rw [applicationMessages_cons_of_none hRaw] at hAll
      cases hAll
    | some message =>
      rw [applicationMessages_cons_of_some hRaw] at hAll ⊢
      rw [applicationMessages_cons_of_some hRaw, cons_append, ih (Nat.succ.inj hAll)]

theorem prefix_applicationMessages (raws more : List Json) :
  applicationMessages isPoint raws <+: applicationMessages isPoint (raws ++ more) := by
  induction raws with
  | nil => exact nil_prefix
  | cons raw rest ih =>
    rw [cons_append]
    cases hRaw : applicationMessage isPoint raw with
    | none =>
      rw [applicationMessages_cons_of_none hRaw]
      exact nil_prefix
    | some message =>
      rw [applicationMessages_cons_of_some hRaw, applicationMessages_cons_of_some hRaw]
      exact cons_prefix_cons.mpr ⟨rfl, ih⟩

-- Sessions That Lose Nothing

/- What listeners were given, are being given or will be. -/
def AuthenticatedPeer.taken (session : AuthenticatedPeer) : List WireMessage :=
  session.emitted.map Prod.fst ++ session.handing ++ session.backlog.getD []

/-
  A session has taken what was pending when it was created, up to a refusal, and what came later
  as long as it has not failed.
-/
structure SessionHolds
  (isPoint : JsText → Bool) (session : AuthenticatedPeer) (pending later : List Json) : Prop where
  kept : session.backlog.isSome = true → session.handing = []
  handedOver : applicationMessages isPoint pending <+: session.taken
  taken : session.taken <+: applicationMessages isPoint (pending ++ later)
  complete : session.failed = false → session.taken.length = (pending ++ later).length

variable {session : AuthenticatedPeer} {pending later : List Json}

theorem SessionHolds.all_taken
  (hHold : SessionHolds isPoint session pending later) (hOpen : session.failed = false) :
  session.taken = applicationMessages isPoint (pending ++ later) ∧
    AllTaken isPoint (pending ++ later) := by
  have hLen := hHold.complete hOpen
  have hBound := length_applicationMessages_le isPoint (pending ++ later)
  have hPre := hHold.taken.length_le
  have hAll : AllTaken isPoint (pending ++ later) := by
    unfold AllTaken
    omega
  refine ⟨hHold.taken.eq_of_length ?_, hAll⟩
  unfold AllTaken at hAll
  omega

theorem SessionHolds.fail (hHold : SessionHolds isPoint session pending later) (raw : Json) :
  SessionHolds isPoint session.fail pending (later ++ [raw]) := by
  constructor
  case kept => exact hHold.kept
  case handedOver => exact hHold.handedOver
  case taken =>
    rw [← append_assoc]
    exact hHold.taken.trans (prefix_applicationMessages _ _)
  case complete =>
    intro hOpen
    cases hOpen

variable {next : AuthenticatedPeer}

section

variable (hHold : SessionHolds isPoint session pending later)

include hHold

theorem SessionHolds.take (hOpen : session.failed = false)
  {message : WireMessage} (hMsg : applicationMessage isPoint raw = some message)
  (hKept : next.backlog.isSome = true → next.handing = [])
  (hTaken : next.taken = session.taken ++ [message]) :
  SessionHolds isPoint next pending (later ++ [raw]) := by
  rcases hHold.all_taken hOpen with ⟨hEq, hAll⟩
  have hNext :
      applicationMessages isPoint (pending ++ (later ++ [raw])) = session.taken ++ [message] := by
    rw [← append_assoc, applicationMessages_append hAll, ← hEq]
    simp only [applicationMessages, hMsg]
  constructor
  case kept => exact hKept
  case handedOver =>
    rw [hTaken]
    exact hHold.handedOver.trans (prefix_append _ _)
  case taken => rw [hTaken, hNext]
  case complete =>
    intro _
    rw [hTaken, length_append, hHold.complete hOpen]
    simp only [length_append, length_singleton, Nat.add_assoc]

theorem SessionHolds.receive (hHanded : session.handing = [])
  (raw : Json) : SessionHolds isPoint (session.receive isPoint raw) pending (later ++ [raw]) := by
  unfold AuthenticatedPeer.receive
  split
  · rename_i hFailed
    have hSame : session.fail = session := by
      unfold AuthenticatedPeer.fail
      rw [← hFailed]
    have hFail := hHold.fail raw
    rw [hSame] at hFail
    exact hFail
  rename_i hFailed
  have hOpen : session.failed = false := Bool.eq_false_iff.mpr hFailed
  cases hMsg : applicationMessage isPoint raw with
  | none => exact hHold.fail raw
  | some message =>
    cases hBacklog : session.backlog with
    | none =>
      apply hHold.take hOpen hMsg
      · intro hSome
        change session.backlog.isSome = true at hSome
        rw [hBacklog] at hSome
        cases hSome
      · unfold AuthenticatedPeer.taken AuthenticatedPeer.emit
        simp only [hBacklog, hHanded, map_append, map_singleton, append_nil,
          getD_none]
    | some kept =>
      simp only
      split
      · apply hHold.take hOpen hMsg
        · exact fun _ => hHanded
        · unfold AuthenticatedPeer.taken
          simp only [hBacklog, getD_some, append_assoc]
      · exact hHold.fail raw

theorem SessionHolds.of_same
  (hKept : next.backlog.isSome = true → next.handing = []) (hTaken : next.taken = session.taken)
  (hFail : next.failed = session.failed) : SessionHolds isPoint next pending later := by
  constructor
  case kept => exact hKept
  case handedOver =>
    rw [hTaken]
    exact hHold.handedOver
  case taken =>
    rw [hTaken]
    exact hHold.taken
  case complete =>
    rw [hTaken, hFail]
    exact hHold.complete

theorem SessionHolds.release (hStep : session.release = some next) :
  SessionHolds isPoint next pending later := by
  unfold AuthenticatedPeer.release at hStep
  cases hBacklog : session.backlog with
  | none =>
    rw [hBacklog] at hStep
    cases hStep
  | some kept =>
    have hHanded : session.handing = [] := by
      apply hHold.kept
      rw [hBacklog]
      rfl
    rw [hBacklog] at hStep
    simp only at hStep
    split at hStep
    · rw [← Option.some.inj hStep]
      apply hHold.of_same
      · intro hSome
        cases hSome
      · unfold AuthenticatedPeer.taken
        simp only [hBacklog, hHanded, getD_none, getD_some, append_nil]
      · rfl
    · cases hStep

theorem SessionHolds.handOver (hStep : session.handOver = some next) :
  SessionHolds isPoint next pending later := by
  unfold AuthenticatedPeer.handOver at hStep
  cases hHanding : session.handing with
  | nil =>
    rw [hHanding] at hStep
    cases hStep
  | cons message rest =>
    rw [hHanding] at hStep
    rw [← Option.some.inj hStep]
    apply hHold.of_same
    · intro hSome
      have hNil := hHold.kept hSome
      rw [hHanding] at hNil
      cases hNil
    · unfold AuthenticatedPeer.taken AuthenticatedPeer.emit
      simp only [hHanding, map_append, map_singleton, append_assoc,
        cons_append, nil_append]
    · rfl

end

-- Pending Messages

theorem foldl_receive_failed (hFail : session.failed = true) (raws : List Json) :
  raws.foldl (AuthenticatedPeer.receive isPoint) session =
    session := by
  induction raws with
  | nil => rfl
  | cons raw rest ih =>
    rw [foldl_cons]
    have hSame : session.receive isPoint raw = session := by
      unfold AuthenticatedPeer.receive
      rw [if_pos hFail]
    rw [hSame, ih]

structure Keeping (session : AuthenticatedPeer) (kept : List WireMessage) : Prop where
  emitted : session.emitted = []
  handing : session.handing = []
  backlog : session.backlog = some kept

theorem foldl_receive_keeping (isPoint : JsText → Bool) (raws : List Json) {kept : List WireMessage}
  (hKeeping : Keeping session kept) (hOpen : session.failed = false)
  (hRoom : kept.length + raws.length ≤ MAX_BACKLOG) :
  Keeping (raws.foldl (AuthenticatedPeer.receive isPoint) session)
      (kept ++ applicationMessages isPoint raws) ∧
    ((raws.foldl (AuthenticatedPeer.receive isPoint) session).failed = false →
      AllTaken isPoint raws) := by
  induction raws generalizing session kept with
  | nil =>
    simp only [foldl_nil, applicationMessages, append_nil]
    exact ⟨hKeeping, fun _ => rfl⟩
  | cons raw rest ih =>
    rw [foldl_cons]
    rw [length_cons] at hRoom
    have hLess : kept.length < MAX_BACKLOG := by omega
    unfold AllTaken
    cases hMsg : applicationMessage isPoint raw with
    | none =>
      have hReceive : session.receive isPoint raw = session.fail := by
        unfold AuthenticatedPeer.receive
        simp only [hOpen, hMsg, Bool.false_eq_true, if_false]
      rw [hReceive, foldl_receive_failed rfl, applicationMessages_cons_of_none hMsg,
        append_nil]
      constructor
      · exact ⟨hKeeping.emitted, hKeeping.handing, hKeeping.backlog⟩
      · intro hStill
        cases hStill
    | some message =>
      have hReceive : session.receive isPoint raw =
            { session with
              backlog := some (kept ++ [message]) } := by
        unfold AuthenticatedPeer.receive
        simp only [hOpen, hMsg, hKeeping.backlog, Bool.false_eq_true, if_false, if_pos hLess]
      have hNext : Keeping
          { session with
            backlog := some (kept ++ [message]) }
          (kept ++ [message]) :=
        ⟨hKeeping.emitted, hKeeping.handing, rfl⟩
      have hStillRoom : (kept ++ [message]).length + rest.length ≤
            MAX_BACKLOG := by
        rw [length_append, length_singleton]
        omega
      rcases ih hNext hOpen hStillRoom with ⟨hKept, hAll⟩
      rw [hReceive, applicationMessages_cons_of_some hMsg]
      constructor
      · rw [append_assoc] at hKept
        exact hKept
      · intro hStill
        exact congrArg Nat.succ (hAll hStill)

theorem sessionHolds_create
  (localIdentityKey peerIdentityKey : JsText) (hPending : pending.length ≤ MAX_BACKLOG) :
  SessionHolds isPoint (AuthenticatedPeer.create isPoint localIdentityKey
      peerIdentityKey pending) pending [] := by
  have hInit : Keeping { localIdentityKey, peerIdentityKey } [] := ⟨rfl, rfl, rfl⟩
  rcases foldl_receive_keeping isPoint pending hInit rfl (by
        rw [length_nil, Nat.zero_add]
        exact hPending) with
    ⟨hKeeping, hAll⟩
  have hTaken : (AuthenticatedPeer.create isPoint localIdentityKey peerIdentityKey pending).taken =
        applicationMessages isPoint pending := by
    unfold AuthenticatedPeer.taken AuthenticatedPeer.create
    rw [hKeeping.emitted, hKeeping.handing, hKeeping.backlog]
    rfl
  constructor
  case kept => exact fun _ => hKeeping.handing
  case handedOver => rw [hTaken]
  case taken => rw [hTaken, append_nil]
  case complete =>
    intro hOpen
    rw [hTaken, append_nil]
    exact hAll hOpen

end TsStack.WebRtPay
