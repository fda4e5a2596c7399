import TsStack.WebRtPay.PaymentFormat

/-
  Checking that a received payment pays the wallet, and the
  key that says which payment it is.

  The SDK's parts are in `PaymentFunctions`: its reader of
  Atomic BEEF, whose transaction ids are hashes in base 16,
  and the locking script that pays a public key.
-/

-- Payment Keys

namespace TsStack.WebRtPay

/- What the client uses of the SDK. -/
structure PaymentFunctions where
  isPoint : JsText → Bool
  fromAtomicBEEF : List UInt8 → Option PaymentTransaction
  lockingScriptOf : JsText → Option JsText
  txid_hex : ∀ bytes tx, fromAtomicBEEF bytes = some tx → isLowerHex64 tx.txid = true

structure PaymentId where
  txid : JsText
  outputIndex : Nat
  derivationPrefix : JsText
  derivationSuffix : JsText
deriving DecidableEq

/- The character `:`. -/
def colon : UInt16 := 58

/- `txid:outputIndex:prefix:suffix`. -/
def paymentKey (payment : PaymentId) : JsText :=
  payment.txid ++ colon :: (Json.naturalText payment.outputIndex ++ colon ::
      (payment.derivationPrefix ++ colon :: payment.derivationSuffix))

/- The parts of a key are texts without a colon. -/
structure PaymentId.Valid (payment : PaymentId) : Prop where
  txid : isLowerHex64 payment.txid = true
  derivationPrefix : isDerivationString payment.derivationPrefix = true
  derivationSuffix : isDerivationString payment.derivationSuffix = true

/- A text up to the first separator is determined. -/
theorem append_cons_inj
  {α : Type} {separator : α} {left right leftRest rightRest : List α} (hLeft : separator ∉ left)
  (hRight : separator ∉ right)
  (hEq : left ++ separator :: leftRest = right ++ separator :: rightRest) :
  left = right ∧ leftRest = rightRest := by
  induction left generalizing right with
  | nil =>
    cases right with
    | nil => exact ⟨rfl, (List.cons.inj hEq).2⟩
    | cons item right =>
      have hHead := (List.cons.inj hEq).1
      rw [hHead] at hRight
      exact absurd List.mem_cons_self hRight
  | cons item left ih =>
    cases right with
    | nil =>
      have hHead := (List.cons.inj hEq).1
      rw [← hHead] at hLeft
      exact absurd List.mem_cons_self hLeft
    | cons other right =>
      have hTail := ih (fun hMem => hLeft (List.mem_cons_of_mem _ hMem))
        (fun hMem => hRight (List.mem_cons_of_mem _ hMem))
        (List.cons.inj hEq).2
      rw [(List.cons.inj hEq).1, hTail.1]
      exact ⟨rfl, hTail.2⟩

theorem colon_notMem_naturalText (value : Nat) : colon ∉ Json.naturalText value := by
  intro hMem
  have hDigit := Json.isDigit_of_mem_naturalText hMem
  exact absurd hDigit (by decide)

theorem colon_notMem_of_isLowerHex64 {value : JsText} (hHex : isLowerHex64 value = true) :
  colon ∉ value := by
  intro hMem
  unfold isLowerHex64 at hHex
  rw [Bool.and_eq_true, List.all_eq_true] at hHex
  exact absurd (hHex.2 colon hMem) (by decide)

theorem colon_notMem_of_isDerivationString
  {value : JsText} (hValue : isDerivationString value = true) : colon ∉ value := by
  intro hMem
  unfold isDerivationString at hValue
  rw [Bool.and_eq_true] at hValue
  rcases Base64.mem_of_decodePadded hValue.2 hMem with hAlphabet | hPadding
  · exact absurd hAlphabet (by decide +kernel)
  · exact absurd hPadding (by decide)

theorem naturalText_injective
  {left right : Nat} (hText : Json.naturalText left = Json.naturalText right) : left = right := by
  rw [← Json.ofDigits_naturalText left, hText, Json.ofDigits_naturalText]

theorem paymentKey_injective {left right : PaymentId} (hLeft : left.Valid) (hRight : right.Valid)
  (hKey : paymentKey left = paymentKey right) : left = right := by
  rcases left with ⟨txid, index, start, suffix⟩
  rcases right with ⟨txid', index', start', suffix'⟩
  unfold paymentKey at hKey
  rcases append_cons_inj (colon_notMem_of_isLowerHex64 hLeft.txid)
      (colon_notMem_of_isLowerHex64 hRight.txid) hKey with
    ⟨hTxid, hRest⟩
  rcases append_cons_inj (colon_notMem_naturalText _) (colon_notMem_naturalText _) hRest with
    ⟨hIdx, hRest⟩
  rcases append_cons_inj (colon_notMem_of_isDerivationString hLeft.derivationPrefix)
      (colon_notMem_of_isDerivationString hRight.derivationPrefix) hRest with
    ⟨hPre, hSuf⟩
  have hNum := naturalText_injective hIdx
  simp only at hTxid hNum hPre hSuf
  rw [hTxid, hNum, hPre, hSuf]

-- Verification

structure IncomingPayment where
  messageId : JsText
  sender : JsText
  token : PaymentToken TransactionBytes
  outputIndex : Option Number
deriving DecidableEq

/- Why a payment was not taken. -/
inductive AcceptFailure where
| invalid (error : WebRTPayError)
| wallet
| store
| notAccepted
deriving DecidableEq

structure VerifiedPayment where
  payment : PaymentId
  satoshis : Number
  sender : JsText
  transaction : List Number
deriving DecidableEq

def TransactionBytes.toNumbers :
  TransactionBytes → List Number
| .numbers items => items
| .uint8Array bytes => byteNumbers bytes

def Number.toPlace : Number → Nat
| .integer value => value.toNat
| .other _ => 0

/- The checks of a payment, with the public key that the wallet answers: `none` when it fails. -/
def verify (functions : PaymentFunctions) (p : IncomingPayment) (publicKey : Option JsText) :
  Except AcceptFailure VerifiedPayment := do
  if !isIdentityKey functions.isPoint p.sender then
    throw (.invalid (invalidPayment "Payment sender is not an identity key"))
  let fields ← (tokenFields p.token p.outputIndex).mapError .invalid
  if !isByteArray fields.transaction then
    throw (.invalid (invalidPayment "Payment transaction is not a byte array"))
  let tx ←
    (parsePaymentTransaction functions.fromAtomicBEEF fields.transaction.bytes).mapError .invalid
  match publicKey.bind functions.lockingScriptOf with
  | none => throw .wallet
  | some expected =>
    if !(outputAt tx.outputs fields.outputIndex).any
        fun output =>
          decide (output.satoshis = fields.amount) && decide (output.lockingScript = expected) then
      throw (.invalid (invalidPayment
        "Payment output does not pay the derived key the stated amount"))
    else
      return {
        payment := {
          txid := tx.txid
          outputIndex := fields.outputIndex.toPlace
          derivationPrefix := fields.derivationPrefix
          derivationSuffix := fields.derivationSuffix }
        satoshis := fields.amount
        sender := p.sender
        transaction := fields.transaction.toNumbers }

def DecodedPayment.payment (decoded : DecodedPayment) : PaymentId := {
  txid := decoded.txid
  outputIndex := (decoded.token.outputIndex.getD (.integer 0)).toPlace
  derivationPrefix := decoded.token.customInstructions.derivationPrefix
  derivationSuffix := decoded.token.customInstructions.derivationSuffix }

theorem bytes_byteNumbers (bytes : List UInt8) :
  (TransactionBytes.numbers (byteNumbers bytes)).bytes =
    bytes := by
  have hEach : ∀ byte ∈ bytes, toUint8 (.integer byte.toNat) = id byte := by
    intro byte _
    have hBound : byte.toNat < 256 := byte.toNat_lt
    have hNat : ((byte.toNat : Int) % 256).toNat =
      byte.toNat := by omega
    change UInt8.ofNat ((byte.toNat : Int) % 256).toNat = byte
    rw [hNat, UInt8.ofNat_toNat]
  change (byteNumbers bytes).map toUint8 = bytes
  unfold byteNumbers
  rw [List.map_map]
  change bytes.map (fun byte => toUint8 (.integer byte.toNat)) = bytes
  rw [List.map_congr_left hEach, List.map_id]

/- What the receiver's check has established. -/
structure ReceivedPayment (functions : PaymentFunctions) (decoded : DecodedPayment) : Prop where
  fields : CheckedFields decoded.token
  outputIndex : decoded.token.outputIndex.isSome = true
  transaction : ∃ tx, parsePaymentTransaction functions.fromAtomicBEEF
          decoded.token.transaction.bytes = .ok tx ∧
        tx.txid = decoded.txid

variable
    {functions : PaymentFunctions} {decoded : DecodedPayment}

theorem receivedPayment_of_decodePayment
  {wire : PaymentWire} (hDec : decodePayment functions.fromAtomicBEEF wire = .ok decoded) :
  ReceivedPayment functions decoded := by
  unfold decodePayment at hDec
  simp only [bind, Except.bind] at hDec
  split at hDec
  · cases hDec
  split at hDec
  · cases hDec
  cases hFields : tokenFields wire.token none with
  | error error =>
    rw [hFields] at hDec
    cases hDec
  | ok fields =>
  rw [hFields] at hDec
  rcases tokenFields_eq_ok_iff.mp hFields with ⟨hChecked, rfl⟩
  simp only at hDec
  split at hDec
  · cases hDec
  cases hBytes : fromBase64 (checkedFields wire.token).transaction with
  | none =>
    rw [hBytes] at hDec
    cases hDec
  | some bytes =>
  rw [hBytes] at hDec
  simp only at hDec
  cases hParse : parsePaymentTransaction functions.fromAtomicBEEF bytes with
  | error error =>
    rw [hParse] at hDec
    cases hDec
  | ok tx =>
  rw [hParse] at hDec
  have hEq := Except.ok.inj hDec
  subst hEq
  constructor
  case fields =>
    exact ⟨hChecked.derivationPrefix, hChecked.derivationSuffix,
      hChecked.amount, hChecked.outputIndex⟩
  case outputIndex => rfl
  case transaction =>
    refine ⟨tx, ?_, rfl⟩
    rw [bytes_byteNumbers]
    exact hParse

theorem ReceivedPayment.valid (hRecv : ReceivedPayment functions decoded) :
  decoded.payment.Valid := by
  rcases hRecv.transaction with ⟨tx, hParse, hTxid⟩
  constructor
  case txid =>
    change isLowerHex64 decoded.txid = true
    rw [← hTxid]
    exact functions.txid_hex _ tx (parsePaymentTransaction_eq_ok hParse)
  case derivationPrefix => exact hRecv.fields.derivationPrefix
  case derivationSuffix => exact hRecv.fields.derivationSuffix

def DecodedPayment.incoming (decoded : DecodedPayment) (sender : JsText) : IncomingPayment := {
  messageId := decoded.id
  sender
  token := decoded.token
  outputIndex := none }

theorem payment_of_verify
  (hRecv : ReceivedPayment functions decoded) {sender : JsText} {publicKey : Option JsText}
  {verified : VerifiedPayment}
  (hVerify : verify functions (decoded.incoming sender) publicKey = .ok verified) :
  verified.payment = decoded.payment ∧ verified.sender = sender := by
  rcases hRecv.transaction with ⟨tx, hParse, hTxid⟩
  have hFields : tokenFields (decoded.incoming sender).token (decoded.incoming sender).outputIndex =
        .ok (checkedFields decoded.token) :=
    tokenFields_eq_ok_iff.mpr ⟨hRecv.fields, rfl⟩
  unfold verify at hVerify
  rw [hFields] at hVerify
  simp only [bind, Except.bind, Except.mapError] at hVerify
  split at hVerify
  · cases hVerify
  split at hVerify
  · cases hVerify
  have hTx : parsePaymentTransaction functions.fromAtomicBEEF
          (checkedFields decoded.token).transaction.bytes =
        .ok tx :=
    hParse
  rw [hTx] at hVerify
  simp only at hVerify
  split at hVerify
  · cases hVerify
  split at hVerify
  · cases hVerify
  have hEq := Except.ok.inj hVerify
  subst hEq
  constructor
  · unfold DecodedPayment.payment
    rw [← hTxid]
    rfl
  · rfl

end TsStack.WebRtPay
