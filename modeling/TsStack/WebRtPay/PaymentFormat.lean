import TsStack.WebRtPay.Wire

/-
  A payment that the sender's check accepts returns from its
  text at the receiver, and the receiver's check accepts it.
-/

-- Accepted Tokens

namespace TsStack.WebRtPay

structure CheckedFields {τ : Type} (token : PaymentToken τ) : Prop where
  derivationPrefix : isDerivationString token.customInstructions.derivationPrefix = true
  derivationSuffix : isDerivationString token.customInstructions.derivationSuffix = true
  amount : isIntInRange token.amount 1 MAX_SATOSHIS = true
  outputIndex : isIntInRange (token.outputIndex.getD (.integer 0)) 0 MAX_UINT32 = true

def checkedFields {τ : Type} (token : PaymentToken τ) : TokenFields τ := {
  derivationPrefix := token.customInstructions.derivationPrefix
  derivationSuffix := token.customInstructions.derivationSuffix
  amount := token.amount
  outputIndex := token.outputIndex.getD (.integer 0)
  transaction := token.transaction }

theorem tokenFields_eq_ok_iff {τ : Type} {token : PaymentToken τ} {fields : TokenFields τ} :
  tokenFields token none = .ok fields ↔ CheckedFields token ∧ fields = checkedFields token := by
  have hIdx : (token.outputIndex <|> none) = token.outputIndex := by
    cases token.outputIndex with
    | none => rfl
    | some index => rfl
  unfold tokenFields
  rw [hIdx]
  simp only
  split
  · rename_i hStrings
    constructor
    · intro hEq
      cases hEq
    · rintro ⟨hChecked, -⟩
      rw [hChecked.derivationPrefix, hChecked.derivationSuffix] at hStrings
      cases hStrings
  rename_i hStrings
  split
  · rename_i hAmount
    constructor
    · intro hEq
      cases hEq
    · rintro ⟨hChecked, -⟩
      rw [hChecked.amount] at hAmount
      cases hAmount
  rename_i hAmount
  split
  · rename_i hOut
    constructor
    · intro hEq
      cases hEq
    · rintro ⟨hChecked, -⟩
      rw [hChecked.outputIndex] at hOut
      cases hOut
  rename_i hOut
  simp only [Bool.or_eq_true, Bool.not_eq_true',
    not_or, Bool.not_eq_false] at hStrings hAmount hOut
  constructor
  · intro hEq
    have hFields := Except.ok.inj hEq
    refine ⟨?_, hFields.symm⟩
    exact ⟨hStrings.1, hStrings.2, hAmount, hOut⟩
  · rintro ⟨-, rfl⟩
    rfl

theorem json_of_isIntInRange
  {value : Number} {min max : Int} (hRange : isIntInRange value min max = true) :
  ∃ integer, value = .integer integer ∧ value.json = some (.number integer) := by
  cases value with
  | other whole => cases hRange
  | integer integer =>
    simp only [isIntInRange, Bool.and_eq_true, decide_eq_true_eq] at hRange
    refine ⟨integer, rfl, ?_⟩
    unfold Number.json
    exact if_pos hRange.1.1

/- What the sender's check has established. -/
structure ValidPayment (fromAtomicBEEF : List UInt8 → Option PaymentTransaction)
  (token : PaymentToken TransactionBytes) (note : Option JsText)
  (tx : PaymentTransaction) : Prop where
  fields : CheckedFields token
  bytes : isByteArray token.transaction = true
  transaction : parsePaymentTransaction fromAtomicBEEF token.transaction.bytes = .ok tx
  note : (note.any fun note => !isShortString note MAX_NOTE_CHARS) = false

variable {fromAtomicBEEF : List UInt8 → Option PaymentTransaction}

theorem validPayment_of_validatePaymentToken
  {token : PaymentToken TransactionBytes} {note : Option JsText}
  (hValid : validatePaymentToken fromAtomicBEEF token note = .ok ()) :
  ∃ tx, ValidPayment fromAtomicBEEF token note tx := by
  unfold validatePaymentToken at hValid
  cases hFields : tokenFields token none with
  | error error =>
    rw [hFields] at hValid
    cases hValid
  | ok fields =>
  rcases tokenFields_eq_ok_iff.mp hFields with ⟨hChecked, rfl⟩
  rw [hFields] at hValid
  simp only [bind, Except.bind] at hValid
  by_cases hBytes : isByteArray token.transaction = true
  swap
  · rw [checkedFields, if_pos (by
      rw [Bool.not_eq_true', Bool.eq_false_iff]
      exact hBytes)] at hValid
    cases hValid
  rw [checkedFields, if_neg (by
    rw [hBytes]
    decide)] at hValid
  simp only at hValid
  cases hParse : parsePaymentTransaction fromAtomicBEEF token.transaction.bytes with
  | error error =>
    rw [hParse] at hValid
    cases hValid
  | ok tx =>
  rw [hParse] at hValid
  simp only at hValid
  split at hValid
  · cases hValid
  split at hValid
  · cases hValid
  rename_i hNote
  exact ⟨tx, hChecked, hBytes, hParse, Bool.eq_false_iff.mpr hNote⟩

-- Payments on the Wire

theorem parseWireMessage_paymentJson
  (isPoint : JsText → Bool) {w : PaymentWire} {amount outputIndex : Int}
  (hId : isMessageId w.id = true) (hAmount : w.token.amount = .integer amount)
  (hAmountJson : w.token.amount.json = some (.number amount))
  (hIdx : w.token.outputIndex = some (.integer outputIndex))
  (hIdxJson : (Number.integer outputIndex).json = some (.number outputIndex)) :
  ∃ value, paymentJson w = some value ∧ parseWireMessage isPoint value = .ok (.payment w) := by
  rcases w with
    ⟨id, ⟨⟨derivationPrefix, derivationSuffix⟩, transaction, wireAmount, wireIndex⟩, note⟩
  simp only at hId hAmount hAmountJson hIdx
  subst hAmount
  subst hIdx
  unfold paymentJson
  rw [hAmountJson]
  simp only [Option.getD_some]
  rw [hIdxJson]
  refine ⟨_, rfl, ?_⟩
  have hNot : ¬ isMessageId id = false := by
    rw [hId]
    decide
  cases note with
  | none =>
    change (if isMessageId id = false then _ else _) = _
    rw [if_neg hNot]
    rfl
  | some note =>
    change (if isMessageId id = false then _ else _) = _
    rw [if_neg hNot]
    rfl

variable {tx : PaymentTransaction}

theorem parsePaymentTransaction_length
  {bytes : List UInt8} (hParse : parsePaymentTransaction fromAtomicBEEF bytes = .ok tx) :
  bytes.length ≤ maxMessageBytes := by
  unfold parsePaymentTransaction at hParse
  split at hParse
  · cases hParse
  · omega

theorem parsePaymentTransaction_eq_ok
  {bytes : List UInt8} (hParse : parsePaymentTransaction fromAtomicBEEF bytes = .ok tx) :
  fromAtomicBEEF bytes = some tx := by
  unfold parsePaymentTransaction at hParse
  split at hParse
  · cases hParse
  · cases hRead : fromAtomicBEEF bytes with
    | none =>
      rw [hRead] at hParse
      cases hParse
    | some read =>
      rw [hRead] at hParse
      cases hParse
      rfl

def sentToken (token : PaymentToken TransactionBytes) :
  PaymentToken TransactionBytes := {
  customInstructions := token.customInstructions
  transaction := .numbers (byteNumbers token.transaction.bytes)
  amount := token.amount
  outputIndex := some (token.outputIndex.getD (.integer 0)) }

/- The receiver's check accepts what the sender's accepted. -/
theorem decodePayment_encodePayment {token : PaymentToken TransactionBytes} {note : Option JsText}
  (hValid : ValidPayment fromAtomicBEEF token note tx) {id : JsText} (hId : isMessageId id = true) :
  decodePayment fromAtomicBEEF (encodePayment id token note) = .ok {
      id, token := sentToken token
      txid := tx.txid, note } := by
  have hFields : tokenFields (encodePayment id token note).token none =
        .ok (checkedFields (encodePayment id token note).token) :=
    tokenFields_eq_ok_iff.mpr ⟨⟨hValid.fields.derivationPrefix, hValid.fields.derivationSuffix,
      hValid.fields.amount, hValid.fields.outputIndex⟩, rfl⟩
  have hLen : ¬ MAX_TRANSACTION_CHARS < (toBase64 token.transaction.bytes).length := by
    have hBytes := parsePaymentTransaction_length hValid.transaction
    rw [length_toBase64]
    unfold MAX_TRANSACTION_CHARS
    omega
  unfold decodePayment
  rw [hFields]
  have hNoteOk :
      ¬ ((encodePayment id token note).note.any fun note =>
        !isShortString note MAX_NOTE_CHARS) = true := by
    rw [Bool.not_eq_true]
    exact hValid.note
  have hIdOk : ¬ (!isMessageId (encodePayment id token note).id) =
        true := by
    change ¬ (!isMessageId id) = true
    rw [hId]
    decide
  rw [if_neg hIdOk, if_neg hNoteOk]
  simp only [bind, Except.bind]
  have hText : (checkedFields (encodePayment id token note).token).transaction =
        toBase64 token.transaction.bytes :=
    rfl
  rw [hText, if_neg hLen, fromBase64_toBase64]
  simp only [hValid.transaction]
  rfl

-- Payments Return

/-
  A token that the sender's check accepts returns from the text of its payment message, whatever
  the message id: the transaction's bytes, the derivation strings, the amount and the output index
  are the sender's, and the txid is that of the transaction.  The client's own ids are message
  ids.
-/
theorem validPayment_returns
  (isPoint : JsText → Bool) (fromAtomicBEEF : List UInt8 → Option PaymentTransaction)
  (token : PaymentToken TransactionBytes) (note : Option JsText)
  (hAccepted : validatePaymentToken fromAtomicBEEF token note = .ok ()) :
  (∀ random : List UInt8, random.length = SID_BYTES → isMessageId (newId random) = true) ∧
  ∀ id, isMessageId id = true → ∃ text value message tx,
      paymentText (encodePayment id token note) = some text ∧ Json.parse text = some value ∧
        parseWireMessage isPoint value = .ok (.payment message) ∧
        fromAtomicBEEF token.transaction.bytes = some tx ∧
        decodePayment fromAtomicBEEF message = .ok {
            id
            token := {
              customInstructions := token.customInstructions
              transaction := .numbers (byteNumbers token.transaction.bytes)
              amount := token.amount
              outputIndex := some (token.outputIndex.getD (.integer 0)) }
            txid := tx.txid
            note } ∧
        ∀ items, token.transaction = .numbers items →
          byteNumbers token.transaction.bytes = items := by
  refine ⟨fun random hRandom => isMessageId_newId hRandom, ?_⟩
  intro id hId
  rcases validPayment_of_validatePaymentToken hAccepted with ⟨tx, hValid⟩
  rcases json_of_isIntInRange hValid.fields.amount with ⟨amount, hAmount, hAmountJson⟩
  rcases json_of_isIntInRange hValid.fields.outputIndex with ⟨outputIndex, hIndex, hIndexJson⟩
  rw [hIndex] at hIndexJson
  have hWireIndex : (encodePayment id token note).token.outputIndex = some (.integer outputIndex) :=
    congrArg some hIndex
  rcases parseWireMessage_paymentJson isPoint
      (w := encodePayment id token note)
      hId hAmount hAmountJson hWireIndex hIndexJson with
    ⟨value, hValue, hMessage⟩
  have hText : paymentText (encodePayment id token note) = some (Json.stringify value) := by
    unfold paymentText
    rw [hValue]
    rfl
  refine ⟨Json.stringify value, value, encodePayment id token note,
      tx, hText, Json.parse_stringify value, hMessage, ?_,
      decodePayment_encodePayment hValid hId, ?_⟩
  · exact parsePaymentTransaction_eq_ok hValid.transaction
  · intro items hItems
    have hBytes := hValid.bytes
    rw [hItems] at hBytes ⊢
    exact byteNumbers_bytes hBytes

/-
  Atomic BEEF of a transaction without inputs whose one output
  carries one satoshi for the generator of the curve.
-/
def oneSatoshiBEEF : List UInt8 :=
  [1, 1, 1, 1, 237, 169, 159, 159, 137, 62, 176, 72, 184, 69,
    162, 183, 161, 59, 101, 39, 185, 164, 63, 225, 134, 0, 251,
    197, 135, 116, 101, 18, 197, 149, 3, 106, 1, 0, 190, 239, 0,
    1, 1, 0, 0, 0, 0, 1, 1, 0, 0, 0, 0, 0, 0, 0, 25, 118, 169,
    20, 117, 30, 118, 232, 25, 145, 150, 212, 84, 148, 28, 69,
    209, 179, 163, 35, 241, 67, 59, 214, 136, 172, 0, 0, 0, 0, 0]

def readOneSatoshi (bytes : List UInt8) : Option PaymentTransaction :=
  if bytes = oneSatoshiBEEF then
    some {
      outputs := [{
        satoshis := .integer 1
        lockingScript := Json.text "76a914751e76e8199196d454941c45d1b3a323f1433bd688ac" }]
      txid := Json.text "6a0395c512657487c5fb0086e13fa4b927653ba1b7a245b848b03e899f9fa9ed" }
  else none

def oneSatoshiToken : PaymentToken TransactionBytes := {
  customInstructions := {
    derivationPrefix := Json.text "cHJl"
    derivationSuffix := Json.text "c3Vm" }
  transaction := .numbers (byteNumbers oneSatoshiBEEF)
  amount := .integer 1
  outputIndex := none }

theorem validPayment_returns_oneSatoshi :
  ∃ text value message tx, paymentText (encodePayment (Json.text "a") oneSatoshiToken
            (some (Json.text "thanks"))) =
        some text ∧
      Json.parse text = some value ∧
      parseWireMessage (fun _ => true) value = .ok (.payment message) ∧
      readOneSatoshi oneSatoshiToken.transaction.bytes = some tx ∧
      decodePayment readOneSatoshi message = .ok {
          id := Json.text "a"
          token := {
            customInstructions := oneSatoshiToken.customInstructions
            transaction := .numbers (byteNumbers oneSatoshiToken.transaction.bytes)
            amount := oneSatoshiToken.amount
            outputIndex := some (oneSatoshiToken.outputIndex.getD (.integer 0)) }
          txid := tx.txid
          note := some (Json.text "thanks") } ∧
      ∀ items, oneSatoshiToken.transaction = .numbers items →
        byteNumbers oneSatoshiToken.transaction.bytes =
          items :=
  (validPayment_returns (fun _ => true) readOneSatoshi oneSatoshiToken (some (Json.text "thanks"))
    (by decide +kernel)).2 (Json.text "a") (by decide +kernel)

end TsStack.WebRtPay
