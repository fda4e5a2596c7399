import TsStack.WebRtPay.DirectPay

/-
  What holds of a client whose deliveries meet the condition:
  a payment has one open decision at most, and what the wallet
  has taken is recorded or about to be.
-/

-- Invariant

open List Option

namespace TsStack.WebRtPay

open DirectPayClient

def CallFailed
  (functions : PaymentFunctions) (decision : Decision) (failure : AcceptFailure) : Prop :=
  (∃ answer, verify functions (decision.decoded.incoming decision.sender) answer = .error failure) ∨
    failure = .store ∨ failure = .wallet ∨ failure = .notAccepted

def StageHolds (functions : PaymentFunctions) (seen : List JsText) (wallet : List VerifiedPayment)
  (decision : Decision) : Prop :=
  match decision.stage with
  | .verifying => True
  | .checking verified => verified.payment = decision.decoded.payment
  | .internalizing verified => verified.payment = decision.decoded.payment ∧ decision.key ∉ seen
  | .recording verified => verified.payment = decision.decoded.payment ∧ verified ∈ wallet
  | .settled made failure =>
    (made = .accepted ∧ ∃ verified ∈ wallet, verified.payment = decision.decoded.payment) ∨
    (made ≠ .accepted ∧ ∃ reason, failure = some reason ∧ CallFailed functions decision reason)

def Records (decision : Decision) (key : JsText) : Prop :=
  decision.key = key ∧ ∃ verified, decision.stage = .recording verified

structure ClientHolds (functions : PaymentFunctions) (client : DirectPayClient) : Prop where
  entry : ∀ key index, (key, index) ∈ client.deciding →
      ∃ decision, client.decisions[index]? = some decision ∧
        decision.key = key ∧ decision.forgotten = false
  unique : (client.deciding.map Prod.fst).Nodup
  shared : ∀ index decision, client.decisions[index]? = some decision →
        decision.forgotten = false → (decision.key, index) ∈ client.deciding
  received : ∀ (index : Nat) decision, client.decisions[index]? = some decision →
        ReceivedPayment functions decision.decoded ∧
          decision.key = paymentKey decision.decoded.payment ∧
          (decision.forgotten = true → (outcome decision.stage).isSome = true)
  stage : ∀ (index : Nat) decision, client.decisions[index]? = some decision →
        StageHolds functions client.seen client.wallet decision
  recorded : ∀ verified ∈ client.wallet, verified.payment.Valid ∧
        (paymentKey verified.payment ∈ client.seen ∨ ∃ (index : Nat) (decision : Decision),
            client.decisions[index]? = some decision ∧
              Records decision (paymentKey verified.payment))
  once : (client.wallet.map VerifiedPayment.payment).Nodup
  seen : ∀ key ∈ client.seen, ∃ verified ∈ client.wallet, paymentKey verified.payment = key
  delivery :
    ∀ delivery ∈ client.deliveries, ReceivedPayment functions delivery.decoded ∧ ∃ decision,
          client.decisions[delivery.decision]? = some decision ∧ decision.sender = delivery.peer ∧
            decision.key = paymentKey delivery.decoded.payment
  ack : ∀ sent ∈ client.acks, (sent.decision = none → sent.ack.status = .rejected) ∧
        ∀ index, sent.decision = some index →
          ∃ delivery ∈ client.deliveries, delivery.peer = sent.peer ∧ delivery.decision = index ∧
              ∃ decision made, client.decisions[index]? = some decision ∧
                  outcome decision.stage = some made ∧
                  sent.ack = ackOf delivery.decoded.id (some delivery.decoded.txid) made

theorem clientHolds_initial (functions : PaymentFunctions) : ClientHolds functions {} := by
  constructor
  case entry =>
    intro key index hEntry
    cases hEntry
  case unique => exact nodup_nil
  case shared =>
    intro index decision hDecision
    cases hDecision
  case received =>
    intro index decision hDecision
    cases hDecision
  case stage =>
    intro index decision hDecision
    cases hDecision
  case recorded =>
    intro verified hVerif
    cases hVerif
  case once => exact nodup_nil
  case seen =>
    intro key hKey
    cases hKey
  case delivery =>
    intro delivery hDeliv
    cases hDeliv
  case ack =>
    intro sent hSent
    cases hSent

-- Decisions That Go On

variable
    {α : Type} {items : List α} {index : Nat}

theorem getElem?_set_cases
  {place : Nat} {item found : α} (hFound : (items.set index item)[place]? = some found) :
  (place = index ∧ found = item) ∨ (place ≠ index ∧ items[place]? = some found) := by
  rw [getElem?_set] at hFound
  split at hFound
  · rename_i hEq
    split at hFound
    · exact .inl ⟨hEq.symm, (some.inj hFound).symm⟩
    · cases hFound
  · rename_i hNe
    exact .inr ⟨fun hEq => hNe hEq.symm, hFound⟩

theorem getElem?_set_same {item : α} (hItem : items[index]? = some item) (other : α) :
  (items.set index other)[index]? = some other := by
  have hLt : index < items.length := (List.getElem?_eq_some_iff.mp hItem).1
  rw [getElem?_set, if_pos rfl, if_pos hLt]

theorem getElem?_set_other {place : Nat} (hNe : place ≠ index) (other : α) :
  (items.set index other)[place]? = items[place]? := by
  rw [getElem?_set, if_neg (fun hEq => hNe hEq.symm)]

variable {functions : PaymentFunctions} {client : DirectPayClient}

theorem ClientHolds.entry_unique
  (hHold : ClientHolds functions client) {key : JsText} {first second : Nat}
  (hFst : (key, first) ∈ client.deciding) (hSnd : (key, second) ∈ client.deciding) :
  first = second := by
  have hInj := inj_on_of_nodup_map hHold.unique hFst hSnd rfl
  exact congrArg Prod.snd hInj

variable {decision : Decision}

section

variable (hHold : ClientHolds functions client)

include hHold

theorem ClientHolds.open_unique {first second : Nat} {other : Decision}
  (hFst : client.decisions[first]? = some decision)
  (hSnd : client.decisions[second]? = some other) (hKey : decision.key = other.key)
  (hOpen : outcome decision.stage = none) (hOther : outcome other.stage = none) :
  first = second := by
  have hNot : ∀ (index : Nat) candidate, client.decisions[index]? = some candidate →
        outcome candidate.stage = none → (candidate.key, index) ∈ client.deciding := by
    intro index candidate hCand hNone
    apply hHold.shared index candidate hCand
    rw [← Bool.not_eq_true]
    intro hForgotten
    have hSome := (hHold.received index candidate hCand).2.2 hForgotten
    rw [hNone] at hSome
    cases hSome
  have hLeft := hNot first decision hFst hOpen
  have hRight := hNot second other hSnd hOther
  rw [hKey] at hLeft
  exact hHold.entry_unique hLeft hRight

/-
  A decision that is not made goes on to another stage, and
  the wallet and the store may grow with it.
-/
theorem ClientHolds.update (hDecision : client.decisions[index]? = some decision)
  (hOpen : outcome decision.stage = none) (stage : DecisionStage) (seen : List JsText)
  (wallet : List VerifiedPayment)
  (hStage : StageHolds functions seen wallet { decision with stage }) (hOth :
    ∀ (place : Nat) (other : Decision), place ≠ index → client.decisions[place]? = some other →
        StageHolds functions client.seen client.wallet other →
          StageHolds functions seen wallet other)
  (hRecorded : ∀ verified ∈ wallet, verified.payment.Valid ∧ (paymentKey verified.payment ∈ seen ∨
          ∃ (place : Nat) (other : Decision), (client.decisions.set index
                { decision with stage })[place]? =
              some other ∧ Records other (paymentKey verified.payment)))
  (hOnce : (wallet.map VerifiedPayment.payment).Nodup)
  (hSeen : ∀ key ∈ seen, ∃ verified ∈ wallet, paymentKey verified.payment = key) :
  ClientHolds functions ({ client with seen, wallet }.setStage index decision stage) := by
  have hNotForgotten : decision.forgotten = false := by
    rw [← Bool.not_eq_true]
    intro hForgotten
    have hSome := (hHold.received index decision hDecision).2.2 hForgotten
    rw [hOpen] at hSome
    cases hSome
  -- Every decision keeps its sender, payment and key.
  have hKept : ∀ (place : Nat) other, client.decisions[place]? = some other → ∃ next,
            (client.decisions.set index { decision with stage })[place]? =
              some next ∧
              next.sender = other.sender ∧
              next.key = other.key ∧
              next.forgotten = other.forgotten ∧
              (outcome other.stage ≠ none → next.stage = other.stage) := by
    intro place other hOther
    by_cases hEq : place = index
    · subst hEq
      rw [hDecision] at hOther
      have hSame := some.inj hOther
      subst hSame
      exact ⟨_, getElem?_set_same hDecision _, rfl, rfl, rfl, fun hMade => absurd hOpen hMade⟩
    · refine ⟨other, ?_, rfl, rfl, rfl, fun _ => rfl⟩
      rw [getElem?_set_other hEq]
      exact hOther
  constructor
  case entry =>
    intro key place hEntry
    rcases hHold.entry key place hEntry with ⟨other, hOther, hKey, hForgotten⟩
    rcases hKept place other hOther with ⟨next, hNext, -, hNextKey, hNextForgotten, -⟩
    exact ⟨next, hNext, hNextKey.trans hKey, hNextForgotten.trans hForgotten⟩
  case unique => exact hHold.unique
  case shared =>
    intro place other hOther hForgotten
    rcases getElem?_set_cases hOther with ⟨hEq, hSame⟩ | ⟨-, hOld⟩
    · subst hEq hSame
      exact hHold.shared place decision hDecision hNotForgotten
    · exact hHold.shared place other hOld hForgotten
  case received =>
    intro place other hOther
    rcases getElem?_set_cases hOther with ⟨hEq, hSame⟩ | ⟨-, hOld⟩
    · subst hEq hSame
      have hRecv := hHold.received place decision hDecision
      refine ⟨hRecv.1, hRecv.2.1, ?_⟩
      intro hForgotten
      rw [hNotForgotten] at hForgotten
      cases hForgotten
    · exact hHold.received place other hOld
  case stage =>
    intro place other hOther
    rcases getElem?_set_cases hOther with ⟨-, hSame⟩ | ⟨hNe, hOld⟩
    · rw [hSame]
      exact hStage
    · exact hOth place other hNe hOld (hHold.stage place other hOld)
  case recorded => exact hRecorded
  case once => exact hOnce
  case seen => exact hSeen
  case delivery =>
    intro delivery hDeliv
    rcases hHold.delivery delivery hDeliv with ⟨hRecv, other, hOther, hSender, hKey⟩
    rcases hKept _ other hOther with ⟨next, hNext, hNextSender, hNextKey, -, -⟩
    exact ⟨hRecv, next, hNext, hNextSender.trans hSender, hNextKey.trans hKey⟩
  case ack =>
    intro sent hSent
    rcases hHold.ack sent hSent with ⟨hNone, hSome⟩
    refine ⟨hNone, ?_⟩
    intro place hPlace
    rcases hSome place hPlace with
      ⟨delivery, hDeliv, hPeer, hIdx, other, made, hOther, hMade, hAck⟩
    rcases hKept _ other hOther with ⟨next, hNext, -, -, -, hNextStage⟩
    refine ⟨delivery, hDeliv, hPeer, hIdx, next, made, hNext, ?_, hAck⟩
    rw [hNextStage (by rw [hMade]; exact some_ne_none _)]
    exact hMade

theorem ClientHolds.setStage (hDecision : client.decisions[index]? = some decision)
  (hOpen : outcome decision.stage = none)
  (hNotRecording : ∀ verified, decision.stage ≠ .recording verified) (stage : DecisionStage)
  (hStage : StageHolds functions client.seen client.wallet { decision with stage }) :
  ClientHolds functions (client.setStage index decision stage) := by
  apply hHold.update hDecision hOpen stage client.seen client.wallet hStage
  · exact fun _ _ _ _ hOther => hOther
  · intro verified hVerif
    rcases hHold.recorded verified hVerif with
      ⟨hValid, hSeen | ⟨place, other, hOther, hRecs⟩⟩
    · exact ⟨hValid, .inl hSeen⟩
    · refine ⟨hValid, .inr ⟨place, other, ?_, hRecs⟩⟩
      rw [getElem?_set_other]
      · exact hOther
      · intro hEq
        subst hEq
        rw [hDecision] at hOther
        rcases hRecs.2 with ⟨taken, hTaken⟩
        rw [← some.inj hOther] at hTaken
        exact hNotRecording taken hTaken
  · exact hHold.once
  · exact hHold.seen

end

-- Deliveries and Answers

theorem mem_of_lookup
  {β : Type} [BEq α] [LawfulBEq α] {entries : List (α × β)} {key : α} {value : β}
  (hLook : entries.lookup key = some value) : (key, value) ∈ entries := by
  induction entries with
  | nil => cases hLook
  | cons entry entries ih =>
    rcases entry with ⟨first, second⟩
    rw [lookup_cons] at hLook
    cases hEq : key == first with
    | true =>
      rw [hEq] at hLook
      have hSame := eq_of_beq hEq
      rw [hSame, ← some.inj hLook]
      exact mem_cons_self
    | false =>
      rw [hEq] at hLook
      exact mem_cons_of_mem _ (ih hLook)

theorem notMem_of_lookup {β : Type} [BEq α] [LawfulBEq α] {entries : List (α × β)} {key : α}
  (hLook : entries.lookup key = none) : key ∉ entries.map Prod.fst := by
  induction entries with
  | nil =>
    intro hMem
    cases hMem
  | cons entry entries ih =>
    rcases entry with ⟨first, second⟩
    rw [lookup_cons] at hLook
    cases hEq : key == first with
    | true =>
      rw [hEq] at hLook
      cases hLook
    | false =>
      rw [hEq] at hLook
      intro hMem
      rcases mem_cons.mp hMem with hHead | hTail
      · rw [hHead] at hEq
        simp only [BEq.rfl, Bool.true_eq_false] at hEq
      · exact ih hLook hTail

/- A malformed payment is answered at once. -/
theorem ClientHolds.refuse (hHold : ClientHolds functions client) (peer id reason : JsText) :
  ClientHolds functions {
    client with
    acks := client.acks ++ [{
      peer
      ack := ackOf id none (.rejected reason)
      decision := none }] } := by
  constructor
  case entry => exact hHold.entry
  case unique => exact hHold.unique
  case shared => exact hHold.shared
  case received => exact hHold.received
  case stage => exact hHold.stage
  case recorded => exact hHold.recorded
  case once => exact hHold.once
  case seen => exact hHold.seen
  case delivery => exact hHold.delivery
  case ack =>
    intro sent hSent
    rcases mem_append.mp hSent with hOld | hLast
    · exact hHold.ack sent hOld
    · rw [mem_singleton.mp hLast]
      refine ⟨fun _ => rfl, ?_⟩
      intro index hIdx
      cases hIdx

variable {decoded : DecodedPayment}

section

variable (hHold : ClientHolds functions client)

include hHold

theorem ClientHolds.wait {peer : JsText} (hRecv : ReceivedPayment functions decoded)
  (hDecision : client.decisions[index]? = some decision) (hSender : decision.sender = peer)
  (hKey : decision.key = paymentKey decoded.payment) : ClientHolds functions {
    client with
    deliveries := client.deliveries ++ [{
      peer, decoded
      decision := index
      answered := false }] } := by
  constructor
  case entry => exact hHold.entry
  case unique => exact hHold.unique
  case shared => exact hHold.shared
  case received => exact hHold.received
  case stage => exact hHold.stage
  case recorded => exact hHold.recorded
  case once => exact hHold.once
  case seen => exact hHold.seen
  case delivery =>
    intro delivery hDeliv
    rcases mem_append.mp hDeliv with hOld | hLast
    · exact hHold.delivery delivery hOld
    · rw [mem_singleton.mp hLast]
      exact ⟨hRecv, decision, hDecision, hSender, hKey⟩
  case ack =>
    intro sent hSent
    rcases hHold.ack sent hSent with ⟨hNone, hSome⟩
    refine ⟨hNone, ?_⟩
    intro place hPlace
    rcases hSome place hPlace with ⟨delivery, hDeliv, hRest⟩
    exact ⟨delivery, mem_append_left _ hDeliv, hRest⟩

theorem ClientHolds.decide (peer : JsText) (hRecv : ReceivedPayment functions decoded)
  (hNew : client.decidingOn (paymentKey decoded.payment) = none) : ClientHolds functions {
    client with
    deciding := (paymentKey decoded.payment, client.decisions.length) :: client.deciding
    decisions := client.decisions ++ [{
      sender := peer
      decoded
      key := paymentKey decoded.payment
      stage := .verifying
      forgotten := false }] } := by
  have hOld : ∀ (index : Nat) decision, client.decisions[index]? = some decision →
          ∀ more : List Decision, (client.decisions ++ more)[index]? = some decision := by
    intro index decision hDecision more
    rw [getElem?_append_left (List.getElem?_eq_some_iff.mp hDecision).1]
    exact hDecision
  have hLast :
      ∀ last : Decision, (client.decisions ++ [last])[ client.decisions.length]? = some last := by
    intro last
    rw [getElem?_append_right (Nat.le_refl _), Nat.sub_self]
    rfl
  have hCases : ∀ (index : Nat) decision (last : Decision),
        (client.decisions ++ [last])[index]? = some decision →
          client.decisions[index]? = some decision ∨
            (index = client.decisions.length ∧ decision = last) := by
    intro index decision last hDecision
    by_cases hLt : index < client.decisions.length
    · left
      rw [getElem?_append_left hLt] at hDecision
      exact hDecision
    · right
      rw [getElem?_append_right (by omega)] at hDecision
      have hIdx := (List.getElem?_eq_some_iff.mp hDecision).1
      rw [length_singleton] at hIdx
      have hZero : index - client.decisions.length = 0 := by omega
      rw [hZero] at hDecision
      exact ⟨by omega, (some.inj hDecision).symm⟩
  constructor
  case entry =>
    intro key index hEntry
    rcases mem_cons.mp hEntry with hEq | hTail
    · have hKey := congrArg Prod.fst hEq
      have hIdx := congrArg Prod.snd hEq
      simp only at hKey hIdx
      subst hKey hIdx
      exact ⟨_, hLast _, rfl, rfl⟩
    · rcases hHold.entry key index hTail with ⟨decision, hDecision, hRest⟩
      exact ⟨decision, hOld index decision hDecision _, hRest⟩
  case unique =>
    rw [map_cons]
    exact nodup_cons.mpr ⟨notMem_of_lookup hNew, hHold.unique⟩
  case shared =>
    intro index decision hDecision hForgotten
    rcases hCases index decision _ hDecision with hPre | ⟨hIdx, hSame⟩
    · exact mem_cons_of_mem _ (hHold.shared index decision hPre hForgotten)
    · subst hIdx hSame
      exact mem_cons_self
  case received =>
    intro index decision hDecision
    rcases hCases index decision _ hDecision with hPre | ⟨-, hSame⟩
    · exact hHold.received index decision hPre
    · subst hSame
      exact ⟨hRecv, rfl, nofun⟩
  case stage =>
    intro index decision hDecision
    rcases hCases index decision _ hDecision with hPre | ⟨-, hSame⟩
    · exact hHold.stage index decision hPre
    · subst hSame
      trivial
  case recorded =>
    intro verified hVerif
    rcases hHold.recorded verified hVerif with
      ⟨hValid, hSeen | ⟨index, decision, hDecision, hRest⟩⟩
    · exact ⟨hValid, .inl hSeen⟩
    · exact ⟨hValid, .inr ⟨index, decision, hOld index decision hDecision _, hRest⟩⟩
  case once => exact hHold.once
  case seen => exact hHold.seen
  case delivery =>
    intro delivery hDeliv
    rcases hHold.delivery delivery hDeliv with ⟨hGot, decision, hDecision, hRest⟩
    exact ⟨hGot, decision, hOld _ decision hDecision _, hRest⟩
  case ack =>
    intro sent hSent
    rcases hHold.ack sent hSent with ⟨hNone, hSome⟩
    refine ⟨hNone, ?_⟩
    intro index hIdx
    rcases hSome index hIdx with
      ⟨delivery, hDeliv, hPeer, hSame, decision, made, hDecision, hRest⟩
    exact ⟨delivery, hDeliv, hPeer, hSame, decision, made,
      hOld index decision hDecision _, hRest⟩

/- A delivery is received. -/
theorem ClientHolds.receivePayment {peer : JsText} {wire : PaymentWire}
  (hMeets : ∀ decoded index decision, decodePayment functions.fromAtomicBEEF wire = .ok decoded →
        client.decidingOn (paymentKey decoded.payment) = some index →
          client.decisions[index]? = some decision → decision.sender = peer) :
  ClientHolds functions (client.receivePayment functions peer wire) := by
  unfold DirectPayClient.receivePayment
  cases hDec : decodePayment functions.fromAtomicBEEF wire with
  | error e => exact hHold.refuse peer wire.id _
  | ok decoded =>
    have hRecv := receivedPayment_of_decodePayment hDec
    simp only
    cases hDeciding : client.decidingOn (paymentKey decoded.payment) with
    | some index =>
      rcases hHold.entry _ index (mem_of_lookup hDeciding) with ⟨decision, hDecision, hKey, -⟩
      exact hHold.wait hRecv hDecision
        (hMeets decoded index decision hDec hDeciding hDecision) hKey
    | none =>
      have hDecide := hHold.decide peer hRecv hDeciding
      have hLast :
          (client.decisions ++ [{
            sender := peer
            decoded
            key := paymentKey decoded.payment
            stage := .verifying
            forgotten := false }])[ client.decisions.length]? =
            some {
              sender := peer
              decoded
              key := paymentKey decoded.payment
              stage := .verifying
              forgotten := false } := by
        rw [getElem?_append_right (Nat.le_refl _), Nat.sub_self]
        rfl
      exact hDecide.wait hRecv hLast rfl rfl

theorem ClientHolds.forget {next : DirectPayClient}
  (hStep : client.forget index = some next) : ClientHolds functions next := by
  unfold DirectPayClient.forget at hStep
  simp only [bind_eq_bind, bind_eq_some_iff] at hStep
  rcases hStep with ⟨decision, hDecision, made, hMade, hNext⟩
  split at hNext
  · cases hNext
  rename_i hOpen
  have hForgotten : decision.forgotten = false := Bool.eq_false_iff.mpr hOpen
  have hOwn := hHold.shared index decision hDecision hForgotten
  have hSame := some.inj hNext
  subst hSame
  have hCases : ∀ (place : Nat) other, (client.decisions.set index
            { decision with forgotten := true })[place]? =
          some other → ∃ old, client.decisions[place]? = some old ∧ old.sender = other.sender ∧
            old.decoded = other.decoded ∧ old.key = other.key ∧ old.stage = other.stage ∧
            (place ≠ index → old = other) ∧ (place = index → other.forgotten = true) := by
    intro place other hOther
    rcases getElem?_set_cases hOther with ⟨hEq, hSet⟩ | ⟨hNe, hOld⟩
    · subst hEq hSet
      exact ⟨decision, hDecision, rfl, rfl, rfl, rfl, fun hNe => absurd rfl hNe, fun _ => rfl⟩
    · exact ⟨other, hOld, rfl, rfl, rfl, rfl, fun _ => rfl, fun hEq => absurd hEq hNe⟩
  have hKept : ∀ (place : Nat) old, client.decisions[place]? = some old →
          ∃ other, (client.decisions.set index { decision with forgotten := true })[place]? =
            some other ∧ other.sender = old.sender ∧ other.key = old.key ∧
            other.stage = old.stage ∧ (place ≠ index → other = old) := by
    intro place old hOld
    by_cases hEq : place = index
    · subst hEq
      rw [hDecision] at hOld
      have hSame := some.inj hOld
      subst hSame
      exact ⟨_, getElem?_set_same hDecision _, rfl, rfl, rfl, fun hNe => absurd rfl hNe⟩
    · refine ⟨old, ?_, rfl, rfl, rfl, fun _ => rfl⟩
      rw [getElem?_set_other hEq]
      exact hOld
  have hFiltered :
      ∀ key place, (key, place) ∈ (client.deciding.filter fun entry => entry.1 != decision.key) ↔
        (key, place) ∈ client.deciding ∧ key ≠ decision.key := by
    intro key place
    rw [mem_filter, bne_iff_ne]
  constructor
  case entry =>
    intro key place hEntry
    rcases (hFiltered key place).mp hEntry with ⟨hOldEntry, hNe⟩
    rcases hHold.entry key place hOldEntry with ⟨old, hOld, hKey, hOldForgotten⟩
    have hPlace : place ≠ index := by
      intro hEq
      subst hEq
      rw [hDecision] at hOld
      rw [← some.inj hOld] at hKey
      exact hNe hKey.symm
    rcases hKept place old hOld with ⟨other, hOther, -, -, -, hSame⟩
    rw [hSame hPlace] at hOther
    exact ⟨old, hOther, hKey, hOldForgotten⟩
  case unique => exact hHold.unique.sublist (filter_sublist.map Prod.fst)
  case shared =>
    intro place other hOther hOtherForgotten
    rcases hCases place other hOther with ⟨old, hOld, -, -, -, -, hSame, hIdx⟩
    have hNe : place ≠ index := by
      intro hEq
      rw [hIdx hEq] at hOtherForgotten
      cases hOtherForgotten
    rw [hSame hNe] at hOld
    have hEntry := hHold.shared place other hOld hOtherForgotten
    apply (hFiltered other.key place).mpr
    refine ⟨hEntry, ?_⟩
    intro hKey
    rw [hKey] at hEntry
    exact hNe (hHold.entry_unique hEntry hOwn)
  case received =>
    intro place other hOther
    rcases hCases place other hOther with ⟨old, hOld, -, hDec, hKey, hStage, hSame, -⟩
    have hRecv := hHold.received place old hOld
    rw [hDec, hKey] at hRecv
    refine ⟨hRecv.1, hRecv.2.1, ?_⟩
    intro hOtherForgotten
    by_cases hEq : place = index
    · subst hEq
      rw [hDecision] at hOld
      rw [← hStage, ← some.inj hOld, hMade]
      rfl
    · rw [hSame hEq] at hRecv
      exact hRecv.2.2 hOtherForgotten
  case stage =>
    intro place other hOther
    rcases hCases place other hOther with ⟨old, hOld, hSender, hDec, hKey, hStage, -, -⟩
    have hHold := hHold.stage place old hOld
    unfold StageHolds CallFailed at hHold ⊢
    rw [hSender, hDec, hKey, hStage] at hHold
    exact hHold
  case recorded =>
    intro verified hVerif
    rcases hHold.recorded verified hVerif with ⟨hValid, hSeen | ⟨place, old, hOld, hRecs⟩⟩
    · exact ⟨hValid, .inl hSeen⟩
    · rcases hKept place old hOld with ⟨other, hOther, -, hKey, hStage, -⟩
      refine ⟨hValid, .inr ⟨place, other, hOther, ?_⟩⟩
      unfold Records at hRecs ⊢
      rw [hKey, hStage]
      exact hRecs
  case once => exact hHold.once
  case seen => exact hHold.seen
  case delivery =>
    intro delivery hDeliv
    rcases hHold.delivery delivery hDeliv with ⟨hRecv, old, hOld, hSender, hKey⟩
    rcases hKept _ old hOld with ⟨other, hOther, hOtherSender, hOtherKey, -, -⟩
    exact ⟨hRecv, other, hOther, hOtherSender.trans hSender, hOtherKey.trans hKey⟩
  case ack =>
    intro sent hSent
    rcases hHold.ack sent hSent with ⟨hNone, hSome⟩
    refine ⟨hNone, ?_⟩
    intro place hPlace
    rcases hSome place hPlace with
      ⟨delivery, hDeliv, hPeer, hSamePlace, old, told, hOld, hTold, hAck⟩
    rcases hKept _ old hOld with ⟨other, hOther, -, -, hStage, -⟩
    refine ⟨delivery, hDeliv, hPeer, hSamePlace, other, told, hOther, ?_, hAck⟩
    rw [hStage]
    exact hTold

theorem ClientHolds.answer {next : DirectPayClient}
  (hStep : client.answer index = some next) : ClientHolds functions next := by
  unfold DirectPayClient.answer at hStep
  simp only [bind_eq_bind, bind_eq_some_iff] at hStep
  rcases hStep with ⟨delivery, hDeliv, decision, hDecision, made, hMade, hNext⟩
  split at hNext
  · cases hNext
  have hSame := some.inj hNext
  subst hSame
  have hMem : delivery ∈ client.deliveries := mem_of_getElem? hDeliv
  have hAnswered : { delivery with answered := true } ∈ client.deliveries.set index
          { delivery with answered := true } :=
    mem_of_getElem? (getElem?_set_same hDeliv _)
  have hKept : ∀ old ∈ client.deliveries, ∃ other ∈ client.deliveries.set index
            { delivery with answered := true },
          other.peer = old.peer ∧ other.decoded = old.decoded ∧ other.decision = old.decision := by
    intro old hOld
    rcases getElem?_of_mem hOld with ⟨place, hPlace⟩
    by_cases hEq : place = index
    · subst hEq
      rw [hDeliv] at hPlace
      rw [← some.inj hPlace]
      exact ⟨_, hAnswered, rfl, rfl, rfl⟩
    · rw [← getElem?_set_other hEq { delivery with answered := true }] at hPlace
      exact ⟨old, mem_of_getElem? hPlace, rfl, rfl, rfl⟩
  constructor
  case entry => exact hHold.entry
  case unique => exact hHold.unique
  case shared => exact hHold.shared
  case received => exact hHold.received
  case stage => exact hHold.stage
  case recorded => exact hHold.recorded
  case once => exact hHold.once
  case seen => exact hHold.seen
  case delivery =>
    intro other hOther
    rcases mem_or_eq_of_mem_set hOther with hOld | hSet
    · exact hHold.delivery other hOld
    · rw [hSet]
      exact hHold.delivery delivery hMem
  case ack =>
    intro sent hSent
    rcases mem_append.mp hSent with hOld | hLast
    · rcases hHold.ack sent hOld with ⟨hNone, hSome⟩
      refine ⟨hNone, ?_⟩
      intro place hPlace
      rcases hSome place hPlace with
        ⟨old, hOldMem, hPeer, hSamePlace, other, told, hOther, hTold, hAck⟩
      rcases hKept old hOldMem with ⟨kept, hKeptMem, hKeptPeer, hKeptDec, hKeptDecision⟩
      refine ⟨kept, hKeptMem, hKeptPeer.trans hPeer, hKeptDecision.trans hSamePlace, other, told,
        hOther, hTold, ?_⟩
      rw [hKeptDec]
      exact hAck
    · rw [mem_singleton.mp hLast]
      refine ⟨nofun, ?_⟩
      intro place hPlace
      rw [← some.inj hPlace]
      exact ⟨_, hAnswered, rfl, rfl, decision, made, hDecision, hMade, rfl⟩

end

-- Answers of Calls

variable {client next : DirectPayClient} {onFailure : PaymentDecision}

section

variable (hHold : ClientHolds functions client)

include hHold

theorem ClientHolds.fail (hDecision : client.decisions[index]? = some decision)
  (hOpen : outcome decision.stage = none)
  (hNotRecording : ∀ verified, decision.stage ≠ .recording verified) {failure : AcceptFailure}
  (hFail : CallFailed functions decision failure)
  (hStep : client.fail index decision onFailure failure = some next) :
  ClientHolds functions next := by
  unfold DirectPayClient.fail at hStep
  split at hStep
  · cases hStep
  rename_i hMade
  rw [← some.inj hStep]
  exact hHold.setStage hDecision hOpen hNotRecording _ (Or.inr ⟨hMade, failure, rfl, hFail⟩)

theorem ClientHolds.afterPublicKey {answer : Option JsText}
  (hStep : client.afterPublicKey functions index answer onFailure = some next) :
  ClientHolds functions next := by
  unfold DirectPayClient.afterPublicKey at hStep
  rcases bind_eq_some_iff.mp hStep with ⟨decision, hDecision, hRest⟩
  split at hRest
  · rename_i hStage
    have hOpen : outcome decision.stage = none := by
      rw [hStage]
      rfl
    have hNotRecording : ∀ verified, decision.stage ≠ .recording verified := by
      intro verified hEq
      rw [hStage] at hEq
      cases hEq
    cases hVerify : verify functions (decision.decoded.incoming decision.sender) answer with
    | error failure =>
      rw [hVerify] at hRest
      exact hHold.fail hDecision hOpen hNotRecording (Or.inl ⟨answer, hVerify⟩) hRest
    | ok verified =>
      rw [hVerify] at hRest
      rw [← some.inj hRest]
      exact hHold.setStage hDecision hOpen hNotRecording _
        (payment_of_verify (hHold.received index decision hDecision).1 hVerify).1
  · cases hRest

theorem ClientHolds.internalized {key : JsText} (hSeen : key ∈ client.seen)
  (hRecv : ReceivedPayment functions decoded) (hKey : key = paymentKey decoded.payment) :
  ∃ verified ∈ client.wallet, verified.payment = decoded.payment := by
  rcases hHold.seen key hSeen with ⟨verified, hTaken, hSame⟩
  refine ⟨verified, hTaken, ?_⟩
  apply paymentKey_injective (hHold.recorded verified hTaken).1 hRecv.valid
  rw [hSame, hKey]

theorem ClientHolds.afterSeenHas {fails : Bool}
  (hStep : client.afterSeenHas index fails onFailure = some next) : ClientHolds functions next := by
  unfold DirectPayClient.afterSeenHas at hStep
  rcases bind_eq_some_iff.mp hStep with ⟨decision, hDecision, hRest⟩
  have hStage := hHold.stage index decision hDecision
  rcases hHold.received index decision hDecision with ⟨hRecv, hKey, -⟩
  cases hCall : decision.stage with
  | checking verified =>
    have hOpen : outcome decision.stage = none := by
      rw [hCall]
      rfl
    have hNotRecording : ∀ taken, decision.stage ≠ .recording taken := by
      intro taken hEq
      rw [hCall] at hEq
      cases hEq
    unfold StageHolds at hStage
    rw [hCall] at hRest hStage
    simp only at hRest hStage
    split at hRest
    · exact hHold.fail hDecision hOpen hNotRecording (Or.inr (Or.inl rfl)) hRest
    split at hRest
    · rename_i hSeen
      rw [← some.inj hRest]
      apply hHold.setStage hDecision hOpen hNotRecording
      refine .inl ⟨rfl, ?_⟩
      rw [contains_iff_mem, hStage] at hSeen
      exact hHold.internalized hSeen hRecv rfl
    · rename_i hSeen
      rw [contains_iff_mem] at hSeen
      rw [← some.inj hRest]
      apply hHold.setStage hDecision hOpen hNotRecording
      refine ⟨hStage, ?_⟩
      change decision.key ∉ client.seen
      rw [hKey, ← hStage]
      exact hSeen
  | verifying => rw [hCall] at hRest; cases hRest
  | internalizing verified => rw [hCall] at hRest; cases hRest
  | recording verified => rw [hCall] at hRest; cases hRest
  | settled made failure => rw [hCall] at hRest; cases hRest

end

theorem stageHolds_append {seen : List JsText} {wallet : List VerifiedPayment}
  (hStage : StageHolds functions seen wallet decision) (more : List VerifiedPayment) :
  StageHolds functions seen (wallet ++ more) decision := by
  unfold StageHolds at hStage ⊢
  cases hCall : decision.stage with
  | verifying => trivial
  | checking verified =>
    rw [hCall] at hStage
    exact hStage
  | internalizing verified =>
    rw [hCall] at hStage
    exact hStage
  | recording verified =>
    rw [hCall] at hStage
    exact ⟨hStage.1, mem_append_left _ hStage.2⟩
  | settled made failure =>
    rw [hCall] at hStage
    rcases hStage with ⟨hMade, verified, hTaken, hSame⟩ | hNot
    · exact .inl ⟨hMade, verified, mem_append_left _ hTaken, hSame⟩
    · exact .inr hNot

section

variable (hHold : ClientHolds functions client)

include hHold

theorem ClientHolds.notMem_wallet (hDecision : client.decisions[index]? = some decision)
  {verified : VerifiedPayment} (hCall : decision.stage = .internalizing verified) :
  verified.payment ∉ client.wallet.map VerifiedPayment.payment := by
  have hStage := hHold.stage index decision hDecision
  unfold StageHolds at hStage
  rw [hCall] at hStage
  rcases hHold.received index decision hDecision with ⟨-, hKey, -⟩
  intro hMem
  rcases List.mem_map.mp hMem with ⟨taken, hTaken, hSame⟩
  have hTakenKey : paymentKey taken.payment = decision.key := by rw [hSame, hStage.1, hKey]
  rcases (hHold.recorded taken hTaken).2 with hSeen | ⟨place, other, hOther, hRecs⟩
  · rw [hTakenKey] at hSeen
    exact hStage.2 hSeen
  · rcases hRecs.2 with ⟨recorded, hRecording⟩
    have hPlace : place = index := by
      apply hHold.open_unique hOther hDecision
      · rw [hRecs.1, hTakenKey]
      · rw [hRecording]
        rfl
      · rw [hCall]
        rfl
    rw [hPlace, hDecision] at hOther
    rw [← some.inj hOther, hCall] at hRecording
    cases hRecording

theorem ClientHolds.afterInternalizeAction {answer : WalletAnswer}
  (hStep : client.afterInternalizeAction index answer onFailure = some next) :
  ClientHolds functions next := by
  unfold DirectPayClient.afterInternalizeAction at hStep
  rcases bind_eq_some_iff.mp hStep with ⟨decision, hDecision, hRest⟩
  have hStage := hHold.stage index decision hDecision
  rcases hHold.received index decision hDecision with ⟨hRecv, hKey, -⟩
  cases hCall : decision.stage with
  | internalizing verified =>
    have hOpen : outcome decision.stage = none := by
      rw [hCall]
      rfl
    have hNotRecording : ∀ taken, decision.stage ≠ .recording taken := by
      intro taken hEq
      rw [hCall] at hEq
      cases hEq
    have hNew := hHold.notMem_wallet hDecision hCall
    unfold StageHolds at hStage
    rw [hCall] at hRest hStage
    simp only at hRest hStage
    cases answer with
    | notAccepted =>
      exact hHold.fail hDecision hOpen hNotRecording (Or.inr (Or.inr (Or.inr rfl))) hRest
    | failed => exact hHold.fail hDecision hOpen hNotRecording (Or.inr (Or.inr (Or.inl rfl))) hRest
    | accepted =>
      rw [← some.inj hRest]
      apply hHold.update hDecision hOpen (.recording verified) client.seen
        (client.wallet ++ [verified])
      · exact ⟨hStage.1, mem_append_right _ (mem_singleton.mpr rfl)⟩
      · exact fun _ _ _ _ hOther => stageHolds_append hOther _
      · intro taken hTaken
        rcases mem_append.mp hTaken with hOld | hLast
        · rcases hHold.recorded taken hOld with ⟨hValid, hSeen | ⟨place, other, hOther, hRecs⟩⟩
          · exact ⟨hValid, .inl hSeen⟩
          · refine ⟨hValid, .inr ⟨place, other, ?_, hRecs⟩⟩
            rw [getElem?_set_other]
            · exact hOther
            · intro hEq
              rw [hEq, hDecision] at hOther
              rcases hRecs.2 with ⟨done, hDone⟩
              rw [← some.inj hOther] at hDone
              exact hNotRecording done hDone
        · rw [mem_singleton.mp hLast]
          constructor
          · rw [hStage.1]
            exact hRecv.valid
          · right
            refine ⟨index, _, getElem?_set_same hDecision _, ?_, verified, rfl⟩
            change decision.key = _
            rw [hKey, hStage.1]
      · rw [map_append]
        apply nodup_append.mpr
        refine ⟨hHold.once, nodup_singleton _, ?_⟩
        intro left hLeft right hRight hEq
        rw [map_singleton, mem_singleton] at hRight
        rw [hEq, hRight] at hLeft
        exact hNew hLeft
      · intro key hSeen
        rcases hHold.seen key hSeen with ⟨taken, hTaken, hSame⟩
        exact ⟨taken, mem_append_left _ hTaken, hSame⟩
  | verifying => rw [hCall] at hRest; cases hRest
  | checking verified => rw [hCall] at hRest; cases hRest
  | recording verified => rw [hCall] at hRest; cases hRest
  | settled made failure => rw [hCall] at hRest; cases hRest

/- The store records what the wallet has taken. -/
theorem ClientHolds.afterSeenAdd (hStep : client.afterSeenAdd index false = some next) :
  ClientHolds functions next := by
  unfold DirectPayClient.afterSeenAdd at hStep
  rcases bind_eq_some_iff.mp hStep with ⟨decision, hDecision, hRest⟩
  have hStage := hHold.stage index decision hDecision
  rcases hHold.received index decision hDecision with ⟨hRecv, hKey, -⟩
  cases hCall : decision.stage with
  | recording verified =>
    have hOpen : outcome decision.stage = none := by
      rw [hCall]
      rfl
    unfold StageHolds at hStage
    rw [hCall] at hRest hStage
    simp only [Bool.false_eq_true, if_false] at hRest hStage
    have hSameKey : paymentKey verified.payment = decision.key := by rw [hStage.1, hKey]
    rw [← some.inj hRest]
    apply hHold.update hDecision hOpen (.settled .accepted none)
      (paymentKey verified.payment :: client.seen) client.wallet
    · exact .inl ⟨rfl, verified, hStage.2, hStage.1⟩
    · intro place other hNe hOther hOtherStage
      unfold StageHolds at hOtherStage ⊢
      cases hOtherCall : other.stage with
      | internalizing taken =>
        rw [hOtherCall] at hOtherStage
        refine ⟨hOtherStage.1, ?_⟩
        intro hMem
        rcases mem_cons.mp hMem with hHead | hTail
        · apply hNe
          apply hHold.open_unique hOther hDecision
          · rw [hHead, hSameKey]
          · rw [hOtherCall]
            rfl
          · exact hOpen
        · exact hOtherStage.2 hTail
      | verifying => trivial
      | checking taken =>
        rw [hOtherCall] at hOtherStage
        exact hOtherStage
      | recording taken =>
        rw [hOtherCall] at hOtherStage
        exact hOtherStage
      | settled made failure =>
        rw [hOtherCall] at hOtherStage
        exact hOtherStage
    · intro taken hTaken
      rcases hHold.recorded taken hTaken with ⟨hValid, hSeen | ⟨place, other, hOther, hRecs⟩⟩
      · exact ⟨hValid, .inl (mem_cons_of_mem _ hSeen)⟩
      · refine ⟨hValid, ?_⟩
        by_cases hEq : place = index
        · left
          rw [hEq, hDecision] at hOther
          rw [← some.inj hOther] at hRecs
          rw [hSameKey, hRecs.1]
          exact mem_cons_self
        · right
          refine ⟨place, other, ?_, hRecs⟩
          rw [getElem?_set_other hEq]
          exact hOther
    · exact hHold.once
    · intro key hMem
      rcases mem_cons.mp hMem with hHead | hTail
      · exact ⟨verified, hStage.2, hHead.symm⟩
      · exact hHold.seen key hTail
  | verifying => rw [hCall] at hRest; cases hRest
  | checking verified => rw [hCall] at hRest; cases hRest
  | internalizing verified => rw [hCall] at hRest; cases hRest
  | settled made failure => rw [hCall] at hRest; cases hRest

theorem ClientHolds.step {event : ClientEvent}
  (hStep : client.step functions event = some next) (hMeets : Meets functions client event next) :
  ClientHolds functions next := by
  cases event with
  | deliver peer wire =>
    rw [← some.inj hStep]
    exact hHold.receivePayment hMeets
  | publicKey index answer onFailure => exact hHold.afterPublicKey hStep
  | seenHas index fails onFailure => exact hHold.afterSeenHas hStep
  | internalizeAction index answer onFailure => exact hHold.afterInternalizeAction hStep
  | seenAdd index fails =>
    have hFails : fails = false := hMeets
    subst hFails
    exact hHold.afterSeenAdd hStep
  | forget index => exact hHold.forget hStep
  | answer delivery => exact hHold.answer hStep

end

end TsStack.WebRtPay
