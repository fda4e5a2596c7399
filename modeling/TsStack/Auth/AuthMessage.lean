import TsStack.Lib.Base64
import TsStack.Lib.JsonText

/-
  The messages of mutual authentication.

  Texts are UTF-16 code units.  A message is accepted by its
  shape before any handler reads it; whether a text in the
  form of an identity key is written from a point of the
  curve is a parameter.  The bytes that a signature covers
  and the key that it is made with are computed from two
  nonces and from the content, with no mark of the kind of
  message.
-/

-- Texts

namespace TsStack.Auth

/- A text of UTF-16 code units. -/
abbrev JsText :=
  List UInt16

def base64Alphabet : JsText :=
  Json.text "ABCDEFGHIJKLMNOPQRSTUVWXYZabcdefghijklmnopqrstuvwxyz0123456789+/"

/- The character `=`. -/
def padding : UInt16 := 61

/- The character between the nonces of a key identifier. -/
def space : UInt16 := 32

def base64ToBytes (value : JsText) : Option (List UInt8) :=
  Base64.decodePadded base64Alphabet padding value

def assertCanonicalBase64 (value : JsText) (decodedBytes : Nat) : Bool :=
  decide (value.length ≤ 128) && (base64ToBytes value).map List.length == some decodedBytes

def utf8ToBytes (data : JsText) : List UInt8 :=
  UnicodeText.encodeUtf8 (UnicodeText.scalars data)

def isLowerHexChar (unit : UInt16) : Bool :=
  (48 ≤ unit.toNat && unit.toNat ≤ 57) || (97 ≤ unit.toNat && unit.toNat ≤ 102)

/-
  A compressed public key: `isPoint` says whether it is read
  as a point of the curve and written the same.
-/
def assertAuthIdentityKey (isPoint : JsText → Bool) (value : JsText) : Bool :=
  decide (value.length = 66) && (value.take 2 == Json.text "02" ||
      value.take 2 == Json.text "03") &&
    (value.drop 2).all isLowerHexChar && isPoint value

def assertAuthPeerTarget (isPoint : JsText → Bool) (value : JsText) : Bool :=
  assertAuthIdentityKey isPoint value || assertCanonicalBase64 value 48

-- Certificates

structure RequestedCertificateSet where
  certifiers : List JsText
  types : List (JsText × List JsText)
deriving DecidableEq

structure VerifiableCertificate where
  type : JsText
  serialNumber : JsText
  subject : JsText
  certifier : JsText
  revocationOutpoint : JsText
  fields : List (JsText × JsText)
  signature : Option JsText
  keyring : List (JsText × JsText)
  decryptedFields : Option (List (JsText × JsText))
deriving DecidableEq

def recordJson (record : List (JsText × JsText)) : Json :=
  .object (record.map fun entry => (entry.1, .string entry.2))

def RequestedCertificateSet.json (set : RequestedCertificateSet) : Json :=
  .object [ (Json.text "certifiers", .array (set.certifiers.map .string)),
    (Json.text "types", .object (set.types.map fun entry =>
        (entry.1, .array (entry.2.map .string))))]

/- An undefined member is not written. -/
def VerifiableCertificate.json (certificate : VerifiableCertificate) : Json :=
  .object (
    [(Json.text "type", .string certificate.type),
      (Json.text "serialNumber", .string certificate.serialNumber),
      (Json.text "subject", .string certificate.subject),
      (Json.text "certifier", .string certificate.certifier),
      (Json.text "revocationOutpoint", .string certificate.revocationOutpoint),
      (Json.text "fields", recordJson certificate.fields)] ++
    (certificate.signature.map fun signature =>
      (Json.text "signature", Json.string signature)).toList ++
    [(Json.text "keyring", recordJson certificate.keyring)] ++
    (certificate.decryptedFields.map fun fields =>
      (Json.text "decryptedFields", recordJson fields)).toList)

def MAX_CERTIFICATES : Nat := 100

def MAX_CERTIFICATE_TYPES : Nat := 100

def MAX_CERTIFICATE_FIELDS : Nat := 100

def MAX_CERTIFICATE_FIELD_BYTES : Nat := 50

def isUnsafeRecordKey (key : JsText) : Bool :=
  key == Json.text "__proto__" || key == Json.text "constructor" || key == Json.text "prototype"

def isExistingCertificateType (value : JsText) : Bool :=
  match base64ToBytes value with
  | none => false
  | some bytes =>
    decide (value.length ≤ 172) &&
      decide (1 ≤ bytes.length) &&
      decide (bytes.length ≤ 128)

def isRequestedField (field : JsText) : Bool :=
  decide (field.length ≠ 0) &&
    decide ((utf8ToBytes field).length ≤ MAX_CERTIFICATE_FIELD_BYTES) &&
    !isUnsafeRecordKey field

def assertRequestedCertificateSet
  (isPoint : JsText → Bool) (set : RequestedCertificateSet) : Bool :=
  decide (set.certifiers.length ≤ MAX_CERTIFICATES) &&
    set.certifiers.all (assertAuthIdentityKey isPoint) &&
    decide set.certifiers.Nodup &&
    decide (set.types.length ≤ MAX_CERTIFICATE_TYPES) &&
    set.types.all fun entry =>
      !isUnsafeRecordKey entry.1 && isExistingCertificateType entry.1 &&
        decide (entry.2.length ≤ MAX_CERTIFICATE_FIELDS) &&
        entry.2.all isRequestedField && decide entry.2.Nodup

def requestedFields (policy : RequestedCertificateSet) (type : JsText) : Option (List JsText) :=
  policy.types.lookup type

def matchesCertificatePolicy
  (certificates : List VerifiableCertificate) (policy : RequestedCertificateSet) : Bool :=
  certificates.all fun certificate =>
    match requestedFields policy certificate.type with
    | none => false
    | some requested =>
      policy.certifiers.contains certificate.certifier &&
        decide (certificate.keyring.length ≠ 0) &&
        decide (certificate.keyring.length ≤ requested.length) &&
        certificate.keyring.all fun entry => requested.contains entry.1

/-
  The part of `validateCertificates` that the certificates
  alone decide: subject, certifier and type.
-/
def presentsRequested (identityKey : JsText) (certificates : List VerifiableCertificate)
  (policy : RequestedCertificateSet) : Bool :=
  decide (certificates.length ≠ 0) &&
    decide (certificates.length ≤ MAX_CERTIFICATES) &&
    certificates.all fun certificate =>
      certificate.subject == identityKey && policy.certifiers.contains certificate.certifier &&
        (requestedFields policy certificate.type).isSome

-- Messages

inductive MessageType where
| initialRequest
| initialResponse
| certificateRequest
| certificateResponse
| general
deriving DecidableEq

def MessageType.text : MessageType → JsText
| .initialRequest => Json.text "initialRequest"
| .initialResponse => Json.text "initialResponse"
| .certificateRequest => Json.text "certificateRequest"
| .certificateResponse => Json.text "certificateResponse"
| .general => Json.text "general"

structure AuthMessage where
  messageType : MessageType
  identityKey : JsText
  nonce : Option JsText := none
  initialNonce : Option JsText := none
  yourNonce : Option JsText := none
  certificates : Option (List VerifiableCertificate) := none
  requestedCertificates : Option RequestedCertificateSet := none
  payload : Option (List UInt8) := none
  signature : Option (List UInt8) := none
deriving DecidableEq

def MAX_AUTH_SIGNATURE_BYTES : Nat := 1024

def hasNonce (value : Option JsText) (decodedBytes : Nat) : Bool :=
  match value with
  | none => false
  | some nonce => assertCanonicalBase64 nonce decodedBytes

def hasSignature (value : Option (List UInt8)) : Bool :=
  match value with
  | none => false
  | some signature =>
    decide (signature.length ≠ 0) && decide (signature.length ≤ MAX_AUTH_SIGNATURE_BYTES)

def assertValidAuthMessage (isPoint : JsText → Bool) (message : AuthMessage) : Bool :=
  assertAuthIdentityKey isPoint message.identityKey && (match message.requestedCertificates with
    | none => true
    | some set => assertRequestedCertificateSet isPoint set) &&
    (match message.certificates with
    | none => true
    | some certificates => decide (certificates.length ≤ MAX_CERTIFICATES)) &&
    match message.messageType with
    | .initialRequest => hasNonce message.initialNonce 48
    | .initialResponse =>
      hasNonce message.initialNonce 48 && hasNonce message.yourNonce 48 &&
        hasSignature message.signature
    | .certificateRequest =>
      hasNonce message.nonce 32 && hasNonce message.initialNonce 48 &&
        hasNonce message.yourNonce 48 && message.requestedCertificates.isSome &&
        hasSignature message.signature
    | .certificateResponse =>
      hasNonce message.nonce 32 && hasNonce message.initialNonce 48 &&
        hasNonce message.yourNonce 48 && message.certificates.isSome &&
        hasSignature message.signature
    | .general =>
      hasNonce message.nonce 32 && hasNonce message.yourNonce 48 && message.payload.isSome &&
        hasSignature message.signature

/- `keyID` of a signature: two nonces around a space. -/
def keyID (first second : JsText) : JsText :=
  first ++ space :: second

def nonceBytes (nonce : JsText) : List UInt8 :=
  (base64ToBytes nonce).getD []

def requestData (set : RequestedCertificateSet) :
  List UInt8 :=
  utf8ToBytes (Json.stringify set.json)

def responseData (certificates : List VerifiableCertificate) :
  List UInt8 :=
  utf8ToBytes (Json.stringify (.array (certificates.map (·.json))))

/-
  The bytes that the signature of a message covers, for the
  session found; an initial request has no signature.
-/
def signedData (sessionNonce : JsText) (message : AuthMessage) : List UInt8 :=
  match message.messageType with
  | .initialRequest => []
  | .initialResponse => nonceBytes sessionNonce ++ nonceBytes (message.initialNonce.getD [])
  | .certificateRequest =>
    match message.requestedCertificates with
    | none => []
    | some set => requestData set
  | .certificateResponse => responseData (message.certificates.getD [])
  | .general => message.payload.getD []

def signingKeyID (sessionNonce : JsText) (message : AuthMessage) : JsText :=
  match message.messageType with
  | .initialResponse => keyID sessionNonce (message.initialNonce.getD [])
  | _ => keyID (message.nonce.getD []) sessionNonce

def messageNonce (message : AuthMessage) : JsText :=
  match message.messageType with
  | .initialResponse => message.initialNonce.getD []
  | _ => message.nonce.getD []

-- Nonces and keys

variable {value : JsText}

theorem length_mod_of_base64 {bytes : List UInt8} (hBytes : base64ToBytes value = some bytes) :
  value.length % 4 = 0 := by
  unfold base64ToBytes Base64.decodePadded at hBytes
  split at hBytes
  · assumption
  · cases hBytes

theorem base64_of_assertCanonicalBase64
  {size : Nat} (hValue : assertCanonicalBase64 value size = true) :
  ∃ bytes, base64ToBytes value = some bytes ∧ bytes.length = size := by
  unfold assertCanonicalBase64 at hValue
  simp only [Bool.and_eq_true, beq_iff_eq] at hValue
  exact Option.map_eq_some_iff.mp hValue.2

theorem length_of_assertAuthIdentityKey
  {isPoint : JsText → Bool} {key : JsText} (hKey : assertAuthIdentityKey isPoint key = true) :
  key.length = 66 := by
  unfold assertAuthIdentityKey at hKey
  simp only [Bool.and_eq_true, decide_eq_true_eq] at hKey
  exact hKey.1.1.1

theorem ne_of_identityKey {isPoint : JsText → Bool} {key nonce : JsText} {size : Nat}
  (hKey : assertAuthIdentityKey isPoint key = true)
  (hNonce : assertCanonicalBase64 nonce size = true) : key ≠ nonce := by
  rintro rfl
  rcases base64_of_assertCanonicalBase64 hNonce with ⟨bytes, hBytes, -⟩
  have hLen := length_mod_of_base64 hBytes
  rw [length_of_assertAuthIdentityKey hKey] at hLen
  omega

theorem space_notMem_of_base64 {bytes : List UInt8} (hBytes : base64ToBytes value = some bytes) :
  space ∉ value := by
  intro hSpace
  have hText : (Base64.decodePadded base64Alphabet padding value).isSome = true := by
    unfold base64ToBytes at hBytes
    rw [hBytes]
    rfl
  have hFree : base64Alphabet.contains space = false := by decide +kernel
  rcases Base64.mem_of_decodePadded hText hSpace with hMem | hPadding
  · rw [← List.contains_iff_mem, hFree] at hMem
    cases hMem
  · revert hPadding
    unfold space padding
    decide

/- Both nonces are read from the key identifier. -/
theorem keyID_injective
  {first second third fourth : JsText} (hFst : space ∉ first) (hThird : space ∉ third)
  (hSame : keyID first second = keyID third fourth) : first = third ∧ second = fourth := by
  unfold keyID at hSame
  induction first generalizing third with
  | nil =>
    cases third with
    | nil => exact ⟨rfl, (List.cons.inj hSame).2⟩
    | cons unit rest =>
      rcases List.cons.inj hSame with ⟨rfl, -⟩
      exact absurd List.mem_cons_self hThird
  | cons unit rest ih =>
    cases third with
    | nil =>
      rcases List.cons.inj hSame with ⟨rfl, -⟩
      exact absurd List.mem_cons_self hFst
    | cons other more =>
      rw [List.cons_append, List.cons_append] at hSame
      rcases List.cons.inj hSame with ⟨rfl, hRest⟩
      rcases ih (fun h => hFst (List.mem_cons_of_mem _ h))
          (fun h => hThird (List.mem_cons_of_mem _ h))
          hRest with
        ⟨rfl, rfl⟩
      exact ⟨rfl, rfl⟩

end TsStack.Auth
