import TsStack.WebRtPay.DirectPayInvariant

/-
  What a client answers to its senders: each on its own
  delivery, each payment taken once, and never an acceptance
  of what the wallet has not taken.  A failed decision leaves
  nothing behind that stops the next one.
-/

-- Answers of a Run

open List Option

namespace TsStack.WebRtPay

open EventRun

open DirectPayClient

/-
  An answer tells a decision on a payment that the same sender delivered.  It accepts only what
  the wallet has taken, and refuses only what a call of that decision has failed on.
-/
structure AnsweredFor
  (functions : PaymentFunctions) (client : DirectPayClient) (sent : SentAck) (delivery : Delivery)
  (decision : Decision) : Prop where
  peer : delivery.peer = sent.peer
  id : delivery.decoded.id = sent.ack.id
  sender : decision.sender = sent.peer
  payment : decision.decoded.payment = delivery.decoded.payment
  accepted : sent.ack.status = .accepted → ∃ verified ∈ client.wallet,
        verified.payment = delivery.decoded.payment
  refused : sent.ack.status ≠ .accepted → ∃ failure, CallFailed functions decision failure

variable {functions : PaymentFunctions} {client : DirectPayClient}

theorem id_ackOf {id : JsText} {txid : Option JsText} {decision : PaymentDecision} :
  (ackOf id txid decision).id = id := by
  cases decision <;> rfl

theorem ClientHolds.answeredFor
  (hHold : ClientHolds functions client) {sent : SentAck} (hSent : sent ∈ client.acks)
  {index : Nat} (hIdx : sent.decision = some index) :
  ∃ delivery ∈ client.deliveries, ∃ decision, client.decisions[index]? = some decision ∧
      AnsweredFor functions client sent delivery decision := by
  rcases (hHold.ack sent hSent).2 index hIdx with
    ⟨delivery, hDelivery, hPeer, hPlace, decision, made, hDecision, hMade, hAck⟩
  rcases hHold.delivery delivery hDelivery with ⟨hDeliv, other, hOther, hSender, hKey⟩
  rw [hPlace, hDecision] at hOther
  have hSame := some.inj hOther
  subst hSame
  rcases hHold.received index decision hDecision with ⟨hRecv, hDecKey, -⟩
  have hPayment : decision.decoded.payment = delivery.decoded.payment := by
    apply paymentKey_injective hRecv.valid hDeliv.valid
    rw [← hDecKey, hKey]
  have hStage := hHold.stage index decision hDecision
  have hStat : sent.ack.status = .accepted ↔ made = .accepted := by
    rw [hAck]
    exact status_ackOf_eq_accepted_iff
  refine ⟨delivery, hDelivery, decision, hDecision, ?_⟩
  unfold StageHolds at hStage
  cases hCall : decision.stage with
  | settled outcome failure =>
    rw [hCall] at hStage hMade
    have hOut : outcome = made := some.inj hMade
    subst hOut
    constructor
    case peer => exact hPeer
    case id => rw [hAck, id_ackOf]
    case sender => exact hSender.trans hPeer
    case payment => exact hPayment
    case accepted =>
      intro hAcc
      rcases hStage with ⟨-, verified, hTaken, hVerif⟩ | ⟨hNot, -⟩
      · exact ⟨verified, hTaken, hVerif.trans hPayment⟩
      · exact absurd (hStat.mp hAcc) hNot
    case refused =>
      intro hRefused
      rcases hStage with ⟨hMade, -⟩ | ⟨-, failure, -, hFail⟩
      · exact absurd (hStat.mpr hMade) hRefused
      · exact ⟨failure, hFail⟩
  | verifying => rw [hCall] at hMade; cases hMade
  | checking verified => rw [hCall] at hMade; cases hMade
  | internalizing verified => rw [hCall] at hMade; cases hMade
  | recording verified => rw [hCall] at hMade; cases hMade

-- Deliveries After a Failure

namespace DirectPayClient

def newCalls (index : Nat) : List ClientEvent :=
  [.internalizeAction index .accepted .received, .seenAdd index false]

def calls
  (client : DirectPayClient) (peer : JsText) (wire : PaymentWire) (publicKey : Option JsText)
  (seen : Bool) : List ClientEvent :=
  [.deliver peer wire, .publicKey client.decisions.length publicKey .received,
    .seenHas client.decisions.length false .received] ++
  (if seen then [] else newCalls client.decisions.length) ++
  [.answer client.deliveries.length]

end DirectPayClient

theorem getElem?_append_last {α : Type} (items : List α) (item : α) :
  (items ++ [item])[items.length]? = some item :=
  getElem?_concat_length

theorem set_append_last {α : Type} (items : List α) (item other : α) :
  (items ++ [item]).set items.length other = items ++ [other] := by
  rw [set_append_right items.length other (Nat.le_refl _), Nat.sub_self]
  rfl

def DirectPayClient.withDecision
  (client : DirectPayClient) (peer : JsText) (decoded : DecodedPayment)
  (stage : DecisionStage) : DirectPayClient :=
  { client with
    deciding := (paymentKey decoded.payment, client.decisions.length) :: client.deciding
    decisions := client.decisions ++ [{
      sender := peer
      decoded
      key := paymentKey decoded.payment
      stage
      forgotten := false }]
    deliveries := client.deliveries ++ [{
      peer, decoded
      decision := client.decisions.length
      answered := false }] }

-- Calls of One Delivery

theorem decision_withDecision
  (client : DirectPayClient) (peer : JsText) (decoded : DecodedPayment) (stage : DecisionStage) :
  (client.withDecision peer decoded stage).decisions[ client.decisions.length]? = some {
      sender := peer
      decoded
      key := paymentKey decoded.payment
      stage
      forgotten := false } :=
  getElem?_append_last _ _

theorem setStage_withDecision (client : DirectPayClient) (peer : JsText) (decoded : DecodedPayment)
  (stage next : DecisionStage) :
  (client.withDecision peer decoded stage).setStage client.decisions.length {
        sender := peer
        decoded
        key := paymentKey decoded.payment
        stage
        forgotten := false } next =
    client.withDecision peer decoded next := by
  unfold DirectPayClient.setStage withDecision
  simp only [set_append_last]

variable {peer : JsText} {wire : PaymentWire} {decoded : DecodedPayment} {publicKey : Option JsText}
variable {verified : VerifiedPayment}

theorem step_deliver (hDec : decodePayment functions.fromAtomicBEEF wire = .ok decoded)
  (hFree : client.decidingOn (paymentKey decoded.payment) = none) :
  client.step functions (.deliver peer wire) =
    some (client.withDecision peer decoded .verifying) := by
  unfold DirectPayClient.step DirectPayClient.receivePayment
  simp only [hDec, hFree]
  rfl

theorem step_publicKey
  (hVerify : verify functions (decoded.incoming peer) publicKey = .ok verified) :
  (client.withDecision peer decoded .verifying).step functions
      (.publicKey client.decisions.length publicKey .received) =
    some (client.withDecision peer decoded (.checking verified)) := by
  unfold DirectPayClient.step DirectPayClient.afterPublicKey
  simp only [decision_withDecision, bind_eq_bind,
    bind_some, if_true, hVerify, setStage_withDecision]

theorem step_seenHas_seen (hSeen : paymentKey verified.payment ∈ client.seen) :
  (client.withDecision peer decoded (.checking verified)).step functions
      (.seenHas client.decisions.length false .received) =
    some (client.withDecision peer decoded (.settled .accepted none)) := by
  have hSeenStill : (client.withDecision peer decoded (.checking verified)).seen.contains
        (paymentKey verified.payment) = true :=
    contains_iff_mem.mpr hSeen
  unfold DirectPayClient.step DirectPayClient.afterSeenHas
  simp only [decision_withDecision, bind_eq_bind,
    bind_some, Bool.false_eq_true, if_false,
    if_pos hSeenStill, setStage_withDecision]

theorem step_seenHas_new (hNew : paymentKey verified.payment ∉ client.seen) :
  (client.withDecision peer decoded (.checking verified)).step functions
      (.seenHas client.decisions.length false .received) =
    some (client.withDecision peer decoded (.internalizing verified)) := by
  have hNewStill : ¬ (client.withDecision peer decoded (.checking verified)).seen.contains
        (paymentKey verified.payment) = true :=
    fun hSeen => hNew (contains_iff_mem.mp hSeen)
  unfold DirectPayClient.step DirectPayClient.afterSeenHas
  simp only [decision_withDecision, bind_eq_bind,
    bind_some, Bool.false_eq_true, if_false,
    if_neg hNewStill, setStage_withDecision]

def DirectPayClient.withPayment
  (client : DirectPayClient) (verified : VerifiedPayment) : DirectPayClient :=
  { client with
    wallet := client.wallet ++ [verified]
    seen := paymentKey verified.payment :: client.seen }

theorem foldlM_newCalls : (newCalls client.decisions.length).foldlM (DirectPayClient.step functions)
      (client.withDecision peer decoded (.internalizing verified)) =
    some ((client.withPayment verified).withDecision peer decoded (.settled .accepted none)) := by
  have hInternalized : (client.withDecision peer decoded (.internalizing verified)).step functions
          (.internalizeAction client.decisions.length .accepted .received) =
        some ({ client with
          wallet := client.wallet ++ [verified] }.withDecision
            peer decoded (.recording verified)) := by
    unfold DirectPayClient.step DirectPayClient.afterInternalizeAction
    simp only [decision_withDecision, bind_eq_bind, bind_some]
    exact congrArg some (setStage_withDecision
      { client with wallet := client.wallet ++ [verified] }
      peer decoded (.internalizing verified) _)
  have hRecorded :
      ({ client with
          wallet := client.wallet ++ [verified] }.withDecision
            peer decoded (.recording verified)).step functions
          (.seenAdd client.decisions.length false) =
        some ((client.withPayment verified).withDecision peer
          decoded (.settled .accepted none)) := by
    unfold DirectPayClient.step DirectPayClient.afterSeenAdd
    have hDecision := decision_withDecision
      { client with wallet := client.wallet ++ [verified] }
      peer decoded (.recording verified)
    simp only at hDecision
    simp only [hDecision, bind_eq_bind, bind_some, Bool.false_eq_true, if_false]
    exact congrArg some (setStage_withDecision (client.withPayment verified)
      peer decoded (.recording verified) _)
  unfold newCalls
  rw [foldlM_cons, hInternalized]
  simp only [bind_eq_bind, bind_some]
  rw [foldlM_cons, hRecorded]
  rfl

def acceptedAck (peer : JsText) (decoded : DecodedPayment) (index : Nat) : SentAck := {
  peer
  ack := ackOf decoded.id (some decoded.txid) .accepted
  decision := some index }

theorem step_answer (functions : PaymentFunctions) (client : DirectPayClient) (peer : JsText)
  (decoded : DecodedPayment) :
  ∃ next, (client.withDecision peer decoded (.settled .accepted none)).step functions
        (.answer client.deliveries.length) = some next ∧
      acceptedAck peer decoded client.decisions.length ∈
        next.acks := by
  have hDeliv : (client.withDecision peer decoded (.settled .accepted none)).deliveries[
            client.deliveries.length]? =
        some {
          peer, decoded
          decision := client.decisions.length
          answered := false } :=
    getElem?_append_last _ _
  refine ⟨{ client.withDecision peer decoded (.settled .accepted none) with
      deliveries := (client.withDecision peer decoded (.settled .accepted none)).deliveries.set
        client.deliveries.length {
          peer, decoded
          decision := client.decisions.length
          answered := true }
      acks := client.acks ++ [acceptedAck peer decoded client.decisions.length] },
    ?_, ?_⟩
  · unfold DirectPayClient.step DirectPayClient.answer
    simp only [hDeliv, decision_withDecision, bind_eq_bind, bind_some, outcome,
      Bool.false_eq_true, if_false]
    rfl
  · exact mem_append_right _ (mem_singleton.mpr rfl)

theorem foldlM_calls (hDec : decodePayment functions.fromAtomicBEEF wire = .ok decoded)
  (hFree : client.decidingOn (paymentKey decoded.payment) = none)
  (hVerify : verify functions (decoded.incoming peer) publicKey = .ok verified) :
  ∃ next, (client.calls peer wire publicKey
          (decide (paymentKey verified.payment ∈ client.seen))).foldlM
        (DirectPayClient.step functions) client = some next ∧
      acceptedAck peer decoded client.decisions.length ∈
        next.acks := by
  unfold calls
  rw [append_assoc, cons_append, cons_append,
    cons_append, nil_append, foldlM_cons, step_deliver hDec hFree]
  simp only [bind_eq_bind, bind_some]
  rw [foldlM_cons, step_publicKey hVerify]
  simp only [bind_eq_bind, bind_some]
  rw [foldlM_cons]
  by_cases hSeen : paymentKey verified.payment ∈ client.seen
  · rcases step_answer functions client peer decoded with ⟨next, hNext, hAck⟩
    refine ⟨next, ?_, hAck⟩
    simp only [step_seenHas_seen hSeen, bind_eq_bind,
      bind_some, decide_eq_true hSeen, if_true, nil_append, foldlM_cons, hNext,
      foldlM_nil]
    rfl
  · rcases step_answer functions (client.withPayment verified) peer decoded with ⟨next, hNext, hAck⟩
    refine ⟨next, ?_, hAck⟩
    simp only [step_seenHas_new hSeen, bind_eq_bind, bind_some, decide_eq_false hSeen,
      Bool.false_eq_true, if_false, foldlM_append, foldlM_newCalls, foldlM_cons]
    change ((client.withPayment verified).withDecision peer
      decoded (.settled .accepted none)).step functions (.answer client.deliveries.length) >>= _ = _
    rw [show client.deliveries.length =
      (client.withPayment verified).deliveries.length from rfl, hNext]
    rfl

-- Decisions per Sender

theorem step_forget {index : Nat} {decision : Decision} {made : PaymentDecision}
  (hDecision : client.decisions[index]? = some decision)
  (hMade : outcome decision.stage = some made) (hHeld : decision.forgotten = false) :
  ∃ next, client.step functions (.forget index) = some next ∧
      next.decidingOn decision.key = none := by
  refine ⟨{ client with
    deciding := client.deciding.filter fun entry => entry.1 != decision.key
    decisions := client.decisions.set index { decision with forgotten := true } }, ?_, ?_⟩
  · unfold DirectPayClient.step DirectPayClient.forget
    simp only [hDecision, hMade, hHeld, bind_eq_bind,
      bind_some, Bool.false_eq_true, if_false]
  · rw [eq_none_iff_forall_ne_some]
    intro place hLook
    have hEntry := mem_of_lookup hLook
    rw [mem_filter] at hEntry
    simp only [bne_self_eq_false, Bool.false_eq_true, and_false] at hEntry

theorem clientHolds_run {events : List ClientEvent}
  (hRun : events.foldlM (DirectPayClient.step functions) {} = some client)
  (hMeets : EventRun.Along (DirectPayClient.step functions) (Meets functions) {} events) :
  ClientHolds functions client :=
  inv_of_along (fun _ _ _ hHold hStep hMeets => hHold.step hStep hMeets)
    events (clientHolds_initial functions) hRun hMeets

/-
  Decisions are made for each sender, and a payment is taken once, in every run in which no
  payment is delivered while another sender's delivery of it is being decided and what the wallet
  has taken is recorded.  An answer without a decision refuses a malformed payment.
-/
theorem decisions_of_senders
  (functions : PaymentFunctions) (events : List ClientEvent) {client : DirectPayClient}
  (hRun : events.foldlM (DirectPayClient.step functions) {} = some client)
  (hMeets : EventRun.Along (DirectPayClient.step functions) (Meets functions) {} events) :
  (∀ sent ∈ client.acks, (sent.decision = none → sent.ack.status = .rejected) ∧
      ∀ index, sent.decision = some index → ∃ delivery ∈ client.deliveries, ∃ decision,
          client.decisions[index]? = some decision ∧
            AnsweredFor functions client sent delivery decision) ∧
  (client.wallet.map VerifiedPayment.payment).Nodup ∧
  (∀ (index : Nat) (decision : Decision) made,
    client.decisions[index]? = some decision → outcome decision.stage = some made →
        decision.forgotten = false → ∃ next, client.step functions (.forget index) = some next ∧
              next.decidingOn decision.key = none) ∧
  ∀ peer wire decoded publicKey verified,
    decodePayment functions.fromAtomicBEEF wire = .ok decoded →
      client.decidingOn (paymentKey decoded.payment) = none →
        verify functions (decoded.incoming peer) publicKey = .ok verified →
          ∃ next, (client.calls peer wire publicKey
                  (decide (paymentKey verified.payment ∈ client.seen))).foldlM
                (DirectPayClient.step functions) client =
              some next ∧
            acceptedAck peer decoded client.decisions.length ∈ next.acks := by
  have hHolds := clientHolds_run hRun hMeets
  constructor
  · intro sent hSent
    exact ⟨(hHolds.ack sent hSent).1, fun _ hIndex => hHolds.answeredFor hSent hIndex⟩
  constructor
  · exact hHolds.once
  constructor
  · intro index decision made hDecision hMade hHeld
    exact step_forget hDecision hMade hHeld
  · intro peer wire decoded publicKey verified hDecoded hFree hVerify
    exact foldlM_calls hDecoded hFree hVerify

-- One Satoshi

def payerKey : JsText := Json.text
  "02c6047f9441ed7d6d3045406e95c07cd85c778e4b8cef3ca7abac09b95c709ee5"

def relayKey : JsText := Json.text
  "02f9308a019258c31049344f85f89d5229b531c845836f99b08601f113bce036f9"

def paidKey : JsText := Json.text
  "0279be667ef9dcbbac55a06295ce870b07029bfcdb2dce28d959f2815b16f81798"

theorem txid_readOneSatoshi
  (bytes : List UInt8) (tx : PaymentTransaction) (hRead : readOneSatoshi bytes = some tx) :
  isLowerHex64 tx.txid = true := by
  unfold readOneSatoshi at hRead
  split at hRead
  · rw [← some.inj hRead]
    decide +kernel
  · cases hRead

def oneSatoshiFunctions : PaymentFunctions := {
  isPoint := fun key => [payerKey, relayKey, paidKey].contains key
  fromAtomicBEEF := readOneSatoshi
  lockingScriptOf := fun key =>
    if key = paidKey then some (Json.text "76a914751e76e8199196d454941c45d1b3a323f1433bd688ac")
    else none
  txid_hex := txid_readOneSatoshi }

def oneSatoshiWire : PaymentWire :=
  encodePayment (Json.text "a") oneSatoshiToken none

def payerEvents : List ClientEvent :=
  calls {} payerKey oneSatoshiWire (some paidKey) false

def payerRun : DirectPayClient :=
  (payerEvents.foldlM (DirectPayClient.step oneSatoshiFunctions) {}).getD {}

theorem payerEvents_run :
  payerEvents.foldlM (DirectPayClient.step oneSatoshiFunctions) {} = some payerRun := by
  have hRuns : (payerEvents.foldlM (DirectPayClient.step oneSatoshiFunctions)
        {}).isSome = true := by
    decide +kernel
  rcases isSome_iff_exists.mp hRuns with ⟨client, hClient⟩
  unfold payerRun
  rw [hClient]
  rfl

theorem payerEvents_meet : EventRun.Along (DirectPayClient.step oneSatoshiFunctions)
    (Meets oneSatoshiFunctions) {} payerEvents := by
  refine along_cons_of fun _ _ => ⟨?_, ?_⟩
  · intro decoded index decision _ hDeciding
    cases hDeciding
  refine along_cons_of fun _ _ => ⟨trivial, ?_⟩
  refine along_cons_of fun _ _ => ⟨trivial, ?_⟩
  refine along_cons_of fun _ _ => ⟨trivial, ?_⟩
  refine along_cons_of fun _ _ => ⟨rfl, ?_⟩
  exact along_cons_of fun _ _ => ⟨trivial, trivial⟩

theorem decisions_of_senders_payer :
  (payerRun.acks.map fun sent => (sent.peer, sent.decision)) = [(payerKey, some 0)] ∧
    (∀ sent ∈ payerRun.acks, ∀ index, sent.decision = some index →
        ∃ delivery ∈ payerRun.deliveries, ∃ decision, payerRun.decisions[index]? = some decision ∧
            AnsweredFor oneSatoshiFunctions payerRun sent delivery decision) ∧
    (payerRun.wallet.map VerifiedPayment.payment).Nodup := by
  have hRun := decisions_of_senders oneSatoshiFunctions payerEvents payerEvents_run payerEvents_meet
  exact ⟨by decide +kernel, fun sent hSent => (hRun.1 sent hSent).2, hRun.2.1⟩

/-
  A relay delivers the payer's token while the payer's decision waits for the wallet's public key.
-/
def relayEvents : List ClientEvent :=
  [.deliver payerKey oneSatoshiWire, .deliver relayKey oneSatoshiWire,
    .publicKey 0 (some paidKey) .received, .seenHas 0 false .received,
    .internalizeAction 0 .accepted .received, .seenAdd 0 false, .answer 1]

theorem decision_of_other_sender :
  payerKey ≠ relayKey ∧ ∃ client, relayEvents.foldlM
          (DirectPayClient.step oneSatoshiFunctions) {} =
        some client ∧
      ∃ sent ∈ client.acks, ∃ decision, sent.peer = relayKey ∧ sent.ack.status = .accepted ∧
          sent.decision = some 0 ∧ client.decisions[0]? = some decision ∧
          decision.sender = payerKey := by
  constructor
  · decide +kernel
  have hRuns : ((relayEvents.foldlM (DirectPayClient.step oneSatoshiFunctions) {}).map
        fun client =>
          (client.acks.map fun sent => (sent.peer, sent.ack.status, sent.decision),
            client.decisions.map Decision.sender)) =
        some ([(relayKey, .accepted, some 0)], [payerKey]) := by
    decide +kernel
  rcases Option.map_eq_some_iff.mp hRuns with ⟨client, hClient, hState⟩
  rcases Prod.mk.inj hState with ⟨hAcks, hDecisions⟩
  rcases List.map_eq_singleton_iff.mp hAcks with ⟨sent, hSent, hAck⟩
  rcases List.map_eq_singleton_iff.mp hDecisions with ⟨decision, hDecision, hSender⟩
  rcases Prod.mk.inj hAck with ⟨hPeer, hRest⟩
  rcases Prod.mk.inj hRest with ⟨hStatus, hIndex⟩
  refine ⟨client, hClient, sent, ?_, decision, hPeer, hStatus, hIndex, ?_, hSender⟩
  · rw [hSent]
    exact List.mem_singleton.mpr rfl
  · rw [hDecision]
    rfl

end TsStack.WebRtPay
