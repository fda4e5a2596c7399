import TsStack.WebRtPay.Wire

/-
  The bytes that an identity signs to bind itself to a data
  channel.  They determine both hellos, both channel
  fingerprints and which side signs.
-/

-- Texts and Bytes

open List

namespace TsStack.WebRtPay

open UnicodeText

def utf8Encode (text : JsText) : List UInt8 :=
  UnicodeText.encodeUtf8 (UnicodeText.scalars text)

/- The value of a digit of base 16, in either case. -/
def hexValue (unit : UInt16) : Option UInt8 :=
  if 48 ≤ unit.toNat ∧ unit.toNat ≤ 57 then some (UInt8.ofNat (unit.toNat - 48))
  else if 97 ≤ unit.toNat ∧ unit.toNat ≤ 102 then some (UInt8.ofNat (unit.toNat - 87))
  else if 65 ≤ unit.toNat ∧ unit.toNat ≤ 70 then some (UInt8.ofNat (unit.toNat - 55))
  else none

def fromHex : JsText → Option (List UInt8)
| [] => some []
| [_] => none
| high :: low :: rest => do
    let hi ← hexValue high
    let lo ← hexValue low
    let bytes ← fromHex rest
    some ((hi <<< 4 ||| lo) :: bytes)

/- The order of code units: negative when `left` is first. -/
def compareCodeUnits (left right : JsText) : Int :=
  if left < right then -1
  else if right < left then 1
  else 0

def isAscii (text : JsText) : Bool :=
  text.all fun unit => decide (unit.toNat < 128)

theorem isWellFormed_of_isAscii {text : JsText} (hAscii : isAscii text = true) :
  isWellFormed text = true := by
  have hUnit : ∀ unit : UInt16, unit.toNat < 128 → isHighSurrogate unit = false ∧
        isLowSurrogate unit = false := by
    intro unit hSmall
    simp only [isHighSurrogate, isLowSurrogate, Bool.and_eq_false_iff,
      decide_eq_false_iff_not]
    omega
  induction text with
  | nil => rfl
  | cons unit rest ih =>
    unfold isAscii at hAscii ih
    rw [all_cons, Bool.and_eq_true, decide_eq_true_eq] at hAscii
    rcases hUnit unit hAscii.1 with ⟨hHigh, hLow⟩
    have hRest := ih hAscii.2
    cases rest with
    | nil => simp only [isWellFormed, hHigh, hLow, Bool.not_false, Bool.and_self]
    | cons next rest =>
      unfold isWellFormed
      simp only [hHigh, hLow, hRest, Bool.false_and, Bool.false_eq_true, if_false, Bool.not_false,
        Bool.and_self]

theorem utf8Encode_injective
  {left right : JsText} (hLeft : isAscii left = true) (hRight : isAscii right = true)
  (hBytes : utf8Encode left = utf8Encode right) : left = right := by
  have hScalars : scalars left = scalars right := by
    have hDec := congrArg decodeUtf8 hBytes
    unfold utf8Encode at hDec
    rw [decodeUtf8_encodeUtf8, decodeUtf8_encodeUtf8] at hDec
    exact Option.some.inj hDec
  rw [← units_scalars left (isWellFormed_of_isAscii hLeft), hScalars,
    units_scalars right (isWellFormed_of_isAscii hRight)]

-- Transcripts

/- What one side signs, or checks the other side signed. -/
structure BindingTranscriptInput where
  signerFingerprints : List JsText
  verifierFingerprints : List JsText
  signerNonce : JsText
  verifierNonce : JsText
  signerKey : JsText
  verifierKey : JsText
deriving DecidableEq

def BINDING_LABEL : JsText :=
  Json.text "webrtpay/1 channel-binding"

def lineFeed : UInt16 := 10

def comma : UInt16 := 44

def fingerprintLine (fingerprints : List JsText) : JsText :=
  [comma].intercalate (fingerprints.mergeSort fun left right =>
      decide (compareCodeUnits left right ≤ 0))

def BindingTranscriptInput.lines (a : BindingTranscriptInput) : List JsText :=
  [BINDING_LABEL, fingerprintLine a.signerFingerprints, fingerprintLine a.verifierFingerprints,
    a.signerNonce, a.verifierNonce, a.signerKey, a.verifierKey]

def bindingTranscript (a : BindingTranscriptInput) : List UInt8 :=
  utf8Encode ([lineFeed].intercalate a.lines)

def isSha256Fingerprint (entry : JsText) : Bool :=
  entry.take 8 == Json.text "sha-256 " && isLowerHex64 (entry.drop 8)

def requireOneFingerprint : List JsText → Bool
| [entry] => isSha256Fingerprint entry
| _ => false

structure BindingTranscriptInput.Valid
  (isPoint : JsText → Bool) (a : BindingTranscriptInput) : Prop where
  signerFingerprints : requireOneFingerprint a.signerFingerprints = true
  verifierFingerprints : requireOneFingerprint a.verifierFingerprints = true
  signerNonce : isNonce a.signerNonce = true
  verifierNonce : isNonce a.verifierNonce = true
  signerKey : isIdentityKey isPoint a.signerKey = true
  verifierKey : isIdentityKey isPoint a.verifierKey = true

def isLineUnit (unit : UInt16) : Bool :=
  decide (unit.toNat < 128) && unit != lineFeed

def isLine (text : JsText) : Bool :=
  text.all isLineUnit

theorem isLineUnit_of_isLowerHexChar {unit : UInt16} (hHex : isLowerHexChar unit = true) :
  isLineUnit unit = true := by
  unfold isLowerHexChar at hHex
  simp only [Bool.or_eq_true, Bool.and_eq_true, decide_eq_true_eq] at hHex
  unfold isLineUnit lineFeed
  simp only [Bool.and_eq_true, decide_eq_true_eq, bne_iff_ne, ne_eq]
  constructor
  · omega
  · rintro rfl
    revert hHex
    decide

-- Injectivity

theorem isLine_append
  {left right : JsText} (hLeft : isLine left = true) (hRight : isLine right = true) :
  isLine (left ++ right) = true := by
  unfold isLine at hLeft hRight ⊢
  rw [all_append, hLeft, hRight]
  rfl

theorem isLine_of_isLowerHex {text : JsText} (hHex : text.all isLowerHexChar = true) :
  isLine text = true := by
  unfold isLine
  rw [List.all_eq_true] at hHex ⊢
  intro unit hUnit
  exact isLineUnit_of_isLowerHexChar (hHex unit hUnit)

theorem isLine_of_isSha256Fingerprint {entry : JsText} (hEntry : isSha256Fingerprint entry = true) :
  isLine entry = true := by
  unfold isSha256Fingerprint isLowerHex64 at hEntry
  simp only [Bool.and_eq_true, beq_iff_eq] at hEntry
  rw [← take_append_drop 8 entry]
  apply isLine_append
  · rw [hEntry.1]
    decide +kernel
  · exact isLine_of_isLowerHex hEntry.2.2

theorem isLine_of_isNonce {nonce : JsText} (hNonce : isNonce nonce = true) :
  isLine nonce = true := by
  unfold isNonce at hNonce
  simp only [Bool.and_eq_true, decide_eq_true_eq] at hNonce
  have hText : (Base64.decodePadded B64 padding nonce).isSome = true := by
    rcases Option.map_eq_some_iff.mp hNonce.2 with ⟨bytes, hBytes, -⟩
    unfold fromBase64 at hBytes
    rw [hBytes]
    rfl
  have hAlphabet : B64.all isLineUnit = true := by decide +kernel
  rw [List.all_eq_true] at hAlphabet
  unfold isLine
  rw [List.all_eq_true]
  intro unit hUnit
  rcases Base64.mem_of_decodePadded hText hUnit with hMem | hPadding
  · exact hAlphabet unit hMem
  · rw [hPadding]
    decide

variable {isPoint : JsText → Bool}

theorem isLine_of_isIdentityKey {key : JsText} (hKey : isIdentityKey isPoint key = true) :
  isLine key = true := by
  unfold isIdentityKey at hKey
  simp only [Bool.and_eq_true, Bool.or_eq_true, beq_iff_eq] at hKey
  rw [← take_append_drop 2 key]
  apply isLine_append
  · rcases hKey.1.1.2 with hEven | hOdd
    · rw [hEven]
      decide +kernel
    · rw [hOdd]
      decide +kernel
  · exact isLine_of_isLowerHex hKey.1.2

theorem fingerprintLine_singleton (entry : JsText) : fingerprintLine [entry] = entry := by
  unfold fingerprintLine
  rw [mergeSort_singleton, intercalate_singleton]

theorem eq_singleton_of_requireOneFingerprint
  {fingerprints : List JsText} (hOne : requireOneFingerprint fingerprints = true) :
  ∃ entry, fingerprints = [entry] ∧ isSha256Fingerprint entry = true := by
  match fingerprints with
  | [entry] => exact ⟨entry, rfl, hOne⟩

theorem isLine_fingerprintLine
  {fingerprints : List JsText} (hOne : requireOneFingerprint fingerprints = true) :
  isLine (fingerprintLine fingerprints) = true := by
  rcases eq_singleton_of_requireOneFingerprint hOne with ⟨entry, rfl, hEntry⟩
  rw [fingerprintLine_singleton]
  exact isLine_of_isSha256Fingerprint hEntry

theorem fingerprintLine_injective
  {left right : List JsText} (hLeft : requireOneFingerprint left = true)
  (hRight : requireOneFingerprint right = true)
  (hLine : fingerprintLine left = fingerprintLine right) : left = right := by
  rcases eq_singleton_of_requireOneFingerprint hLeft with ⟨first, rfl, -⟩
  rcases eq_singleton_of_requireOneFingerprint hRight with ⟨second, rfl, -⟩
  rw [fingerprintLine_singleton, fingerprintLine_singleton] at hLine
  rw [hLine]

theorem BindingTranscriptInput.Valid.isLine
  {a : BindingTranscriptInput} (hValid : a.Valid isPoint) {line : JsText}
  (hLine : line ∈ a.lines) : WebRtPay.isLine line = true := by
  unfold BindingTranscriptInput.lines at hLine
  simp only [mem_cons, not_mem_nil, or_false] at hLine
  rcases hLine with rfl | rfl | rfl | rfl | rfl | rfl | rfl
  · decide +kernel
  · exact isLine_fingerprintLine hValid.signerFingerprints
  · exact isLine_fingerprintLine hValid.verifierFingerprints
  · exact isLine_of_isNonce hValid.signerNonce
  · exact isLine_of_isNonce hValid.verifierNonce
  · exact isLine_of_isIdentityKey hValid.signerKey
  · exact isLine_of_isIdentityKey hValid.verifierKey

theorem isAscii_intercalate {lines : List JsText} (hLines : ∀ line ∈ lines, isLine line = true) :
  isAscii ([lineFeed].intercalate lines) = true := by
  have hAscii : ∀ {line : JsText}, isLine line = true → isAscii line = true := by
    intro line hLine
    unfold isLine at hLine
    unfold isAscii
    rw [List.all_eq_true] at hLine ⊢
    intro unit hUnit
    have hBoth := hLine unit hUnit
    unfold isLineUnit at hBoth
    rw [Bool.and_eq_true] at hBoth
    exact hBoth.1
  induction lines with
  | nil => rfl
  | cons line rest ih =>
    have hFst := hAscii (hLines line mem_cons_self)
    have hRest := ih fun other hOther => hLines other (mem_cons_of_mem _ hOther)
    cases rest with
    | nil =>
      rw [intercalate_singleton]
      exact hFst
    | cons next rest =>
      rw [intercalate_cons_cons]
      unfold isAscii at hFst hRest ⊢
      rw [all_append, all_append, hFst, hRest]
      decide

/- The transcript determines the hellos, the fingerprints and the roles of both sides. -/
theorem bindingTranscript_injective
  {a b : BindingTranscriptInput} (hA : a.Valid isPoint) (hB : b.Valid isPoint)
  (hBytes : bindingTranscript a = bindingTranscript b) : a = b := by
  have hText : [lineFeed].intercalate a.lines = [lineFeed].intercalate b.lines :=
    utf8Encode_injective (isAscii_intercalate fun _ hLine => hA.isLine hLine)
      (isAscii_intercalate fun _ hLine => hB.isLine hLine) hBytes
  have hFree : ∀ {line : JsText}, isLine line = true → lineFeed ∉ line := by
    intro line hLine hMem
    unfold isLine at hLine
    rw [List.all_eq_true] at hLine
    exact absurd (hLine lineFeed hMem) (by decide)
  have hLines : a.lines = b.lines := by
    rw [← splitOn_intercalate lineFeed (fun _ hLine => hFree (hA.isLine hLine))
        (cons_ne_nil _ _), hText,
      splitOn_intercalate lineFeed (fun _ hLine => hFree (hB.isLine hLine))
        (cons_ne_nil _ _)]
  rcases a with ⟨signer, verifier, nonce, other, key, peer⟩
  rcases b with ⟨signer', verifier', nonce', other', key', peer'⟩
  unfold BindingTranscriptInput.lines at hLines
  simp only [List.cons.injEq, and_true, true_and] at hLines
  rcases hLines with ⟨hSigner, hVerifier, hNonce, hOther, hKey, hPeer⟩
  have hSigners := fingerprintLine_injective hA.signerFingerprints hB.signerFingerprints hSigner
  have hVerifiers := fingerprintLine_injective
    hA.verifierFingerprints hB.verifierFingerprints hVerifier
  simp only at hSigners hVerifiers
  rw [hSigners, hVerifiers, hNonce, hOther, hKey, hPeer]

end TsStack.WebRtPay
