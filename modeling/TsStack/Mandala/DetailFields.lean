import TsStack.Mandala.AdminDetails

/-
  The fields of admin details: a value that a reader takes is
  written as it was, and a valid value is read back.
-/

-- Numbers

open List Option

namespace TsStack.MandalaDetails

open Cbor

theorem numberOf_parts {value : Nat} (hPos : 0 < value) (hSafe : value < 2 ^ 53) :
  ∃ size, size ≤ 52 ∧ 2 ^ size ≤ value ∧ value < 2 ^ (size + 1) ∧
    2 ^ 52 ≤ value * 2 ^ (52 - size) ∧ value * 2 ^ (52 - size) < 2 ^ 53 ∧
    (numberOf value).toNat = (1023 + size) * 2 ^ 52 + (value * 2 ^ (52 - size) - 2 ^ 52) := by
  have hNonzero : value ≠ 0 := by omega
  rcases (Nat.log2_eq_iff hNonzero).mp rfl with ⟨hLow, hHigh⟩
  have hSize : Nat.log2 value ≤ 52 := by
    have hLess := (Nat.log2_lt hNonzero).mpr hSafe
    omega
  have hSplit : 2 ^ Nat.log2 value * 2 ^ (52 - Nat.log2 value) = 2 ^ 52 := by
    rw [← Nat.pow_add, Nat.add_sub_cancel' hSize]
  have hPower := Nat.two_pow_pos (52 - Nat.log2 value)
  have hLower : 2 ^ 52 ≤ value * 2 ^ (52 - Nat.log2 value) := by
    rw [← hSplit]
    exact Nat.mul_le_mul_right _ hLow
  have hUpper : value * 2 ^ (52 - Nat.log2 value) < 2 ^ 53 := by
    have hLess := Nat.mul_lt_mul_of_pos_right hHigh hPower
    rw [Nat.pow_succ, Nat.mul_right_comm, hSplit] at hLess
    exact hLess
  refine ⟨Nat.log2 value, hSize, hLow, hHigh, hLower, hUpper, ?_⟩
  unfold numberOf
  rw [if_neg hNonzero, UInt64.toNat_ofNat', Nat.mod_eq_of_lt]
  generalize value * 2 ^ (52 - Nat.log2 value) = scaled at *
  omega

theorem integerOf_numberOf {value : Nat} (hPos : 0 < value) (hSafe : value < 2 ^ 53) :
  integerOf (numberOf value) = some (value : Int) := by
  rcases numberOf_parts hPos hSafe with ⟨size, hSize, -, -, hLow, hHigh, hBits⟩
  have hExponent : exponentOf (numberOf value) = 1023 + size := by
    unfold exponentOf
    rw [hBits]
    generalize value * 2 ^ (52 - size) = scaled at *
    omega
  have hFraction : fractionOf (numberOf value) = value * 2 ^ (52 - size) - 2 ^ 52 := by
    unfold fractionOf
    rw [hBits]
    generalize value * 2 ^ (52 - size) = scaled at *
    omega
  have hMantissa : 2 ^ 52 + fractionOf (numberOf value) = value * 2 ^ (52 - size) := by
    rw [hFraction]
    omega
  have hIntegral : integralSize (numberOf value) = some value := by
    unfold integralSize
    simp only [hExponent, hMantissa]
    rw [if_neg (by omega), if_neg (by omega)]
    by_cases hLarge : 1075 ≤ 1023 + size
    · have hFull : size = 52 := by omega
      subst hFull
      rw [if_pos hLarge]
      simp only [Nat.sub_self, Nat.pow_zero, Nat.mul_one]
    · have hShift : 1075 - (1023 + size) = 52 - size := by omega
      rw [if_neg hLarge, hShift, if_pos (Nat.mul_mod_left _ _),
        Nat.mul_div_cancel _ (Nat.two_pow_pos _)]
  unfold integerOf
  rw [hIntegral, map_some, if_neg]
  rw [hBits]
  generalize value * 2 ^ (52 - size) = scaled at *
  omega

theorem eq_numberOf {bits : UInt64} {value : Nat} (hPos : 0 < value) (hSafe : value < 2 ^ 53)
  (hInteger : integerOf bits = some (value : Int)) : numberOf value = bits := by
  have hBits := bits.toNat_lt
  unfold integerOf at hInteger
  cases hIntegral : integralSize bits with
  | none =>
    rw [hIntegral] at hInteger
    cases hInteger
  | some size =>
  rw [hIntegral, map_some, some.injEq] at hInteger
  have hSign : bits.toNat < 2 ^ 63 := by
    by_contra hNot
    rw [if_pos (Nat.le_of_not_lt hNot)] at hInteger
    omega
  rw [if_neg (Nat.not_le.mpr hSign)] at hInteger
  have hSize : size = value := by omega
  subst hSize
  have hExponent : exponentOf bits = bits.toNat / 2 ^ 52 := by
    unfold exponentOf
    omega
  have hFraction : fractionOf bits = bits.toNat % 2 ^ 52 := rfl
  unfold integralSize at hIntegral
  simp only at hIntegral
  split at hIntegral
  · cases hIntegral
  split at hIntegral
  · split at hIntegral
    · have hZero := some.inj hIntegral
      omega
    · cases hIntegral
  have hMantissa : 2 ^ 52 + fractionOf bits < 2 ^ 53 := by omega
  -- The exponent is the size of the integer.
  have hScaled : ∃ k ≤ 52, exponentOf bits = 1023 + k ∧
      size * 2 ^ (52 - k) = 2 ^ 52 + fractionOf bits := by
    split at hIntegral
    · rename_i hLarge
      have hProduct := some.inj hIntegral
      have hZero : exponentOf bits - 1075 = 0 := by
        by_contra hNot
        have hTwo : 2 ^ 1 ≤ 2 ^ (exponentOf bits - 1075) :=
          Nat.pow_le_pow_right (by decide) (by omega)
        have hMul := Nat.mul_le_mul_left (2 ^ 52 + fractionOf bits) hTwo
        omega
      rw [hZero, Nat.pow_zero, Nat.mul_one] at hProduct
      refine ⟨52, Nat.le_refl _, by omega, ?_⟩
      rw [Nat.sub_self, Nat.pow_zero, Nat.mul_one, hProduct]
    · rename_i hSmall
      split at hIntegral
      · rename_i hDivides
        have hQuotient := some.inj hIntegral
        have hProduct : size * 2 ^ (1075 - exponentOf bits) = 2 ^ 52 + fractionOf bits := by
          rw [← hQuotient]
          exact Nat.div_mul_cancel (Nat.dvd_of_mod_eq_zero hDivides)
        have hShift : 1075 - exponentOf bits ≤ 52 := by
          by_contra hNot
          have hPower : 2 ^ 53 ≤ 2 ^ (1075 - exponentOf bits) :=
            Nat.pow_le_pow_right (by decide) (by omega)
          have hMul := Nat.mul_le_mul hPos hPower
          omega
        have hSame : 52 - (exponentOf bits - 1023) = 1075 - exponentOf bits := by omega
        refine ⟨exponentOf bits - 1023, by omega, by omega, ?_⟩
        rw [hSame, hProduct]
      · cases hIntegral
  rcases hScaled with ⟨k, hK, hExp, hProduct⟩
  rcases numberOf_parts hPos hSafe with ⟨size', hSize', hLow', hHigh', hLow, hHigh, hNum⟩
  have hSame : size' = k := by
    have hPower : 2 ^ k * 2 ^ (52 - k) = 2 ^ 52 := by rw [← Nat.pow_add, Nat.add_sub_cancel' hK]
    have hPosPower := Nat.two_pow_pos (52 - k)
    have hLe : 2 ^ k ≤ size := by
      apply Nat.le_of_mul_le_mul_right _ hPosPower
      omega
    have hLt : size < 2 ^ (k + 1) := by
      apply Nat.lt_of_mul_lt_mul_right (a := 2 ^ (52 - k))
      rw [Nat.pow_succ, Nat.mul_right_comm, hPower]
      omega
    have hNonzero : size ≠ 0 := by omega
    have hFst := (Nat.log2_eq_iff hNonzero).mpr ⟨hLe, hLt⟩
    have hSnd := (Nat.log2_eq_iff hNonzero).mpr ⟨hLow', hHigh'⟩
    omega
  subst hSame
  apply UInt64.toNat_inj.mp
  rw [hNum, hProduct]
  omega

-- Hexadecimal and Decimal Text

theorem isLowercaseHexDigit_digitChar :
  ∀ digit < 16, isLowercaseHexDigit (Nat.digitChar digit) = true := by
  decide

theorem toHex_lowercase (bytes : Bytes) : (toHex bytes).all isLowercaseHexDigit = true := by
  apply List.all_eq_true.mpr
  intro char hChar
  rcases mem_flatMap.mp hChar with ⟨byte, -, hDigit⟩
  have hByte := byte.toNat_lt
  unfold hexByteString at hDigit
  simp only [mem_cons, not_mem_nil, or_false] at hDigit
  rcases hDigit with rfl | rfl
  · exact isLowercaseHexDigit_digitChar _ (by omega)
  · exact isLowercaseHexDigit_digitChar _ (by omega)

theorem digitChar_hexCharToValue
  {char : Char} {value : Nat} (hLower : isLowercaseHexDigit char = true)
  (hValue : hexCharToValue char = some value) : Nat.digitChar value = char := by
  have hAll : ∀ n : Fin 128, isLowercaseHexDigit (Char.ofNat n.val) = true →
        (hexCharToValue (Char.ofNat n.val)).map Nat.digitChar = some (Char.ofNat n.val) := by
    decide
  have hBound : char.toNat < 128 := by
    unfold isLowercaseHexDigit isDigit at hLower
    simp only [Bool.or_eq_true, Bool.and_eq_true, decide_eq_true_eq] at hLower
    rcases hLower with ⟨-, hNine⟩ | ⟨-, hLast⟩
    · have hLe : char.toNat ≤ 57 := hNine
      omega
    · have hLe : char.toNat ≤ 102 := hLast
      omega
  have hChar : Char.ofNat char.toNat = char := Char.ofNat_toNat char
  have hMap := hAll ⟨char.toNat, hBound⟩
  simp only [hChar, hLower, hValue, map_some, some.injEq, forall_const] at hMap
  exact hMap

theorem hexByteString_ofNat {h l : Nat} (hHigh : h < 16) (hLow : l < 16) :
  hexByteString (UInt8.ofNat (16 * h + l)) = [Nat.digitChar h, Nat.digitChar l] := by
  have hByte : (UInt8.ofNat (16 * h + l)).toNat = 16 * h + l := by
    rw [UInt8.toNat_ofNat']
    omega
  have hDiv : (16 * h + l) / 16 = h := by omega
  have hMod : (16 * h + l) % 16 = l := by omega
  unfold hexByteString
  rw [hByte, hDiv, hMod]

theorem toHex_hexPairs
  {text : JsString} {bytes : Bytes} (hLower : text.all isLowercaseHexDigit = true)
  (hPairs : hexPairs text = some bytes) : toHex bytes = text := by
  induction text using hexPairs.induct generalizing bytes with
  | case1 =>
    cases hPairs
    rfl
  | case2 char => cases hPairs
  | case3 hi lo rest h l tail hTail hLo hHi ih =>
    simp only [hexPairs, hHi, hLo, hTail, some.injEq] at hPairs
    subst hPairs
    simp only [all_cons, Bool.and_eq_true] at hLower
    rcases hLower with ⟨hFst, hSnd, hRest⟩
    have hText := ih hRest hTail
    change hexByteString _ ++ toHex tail = _
    rw [hexByteString_ofNat (hexCharToValue_lt hHi) (hexCharToValue_lt hLo), hText,
      digitChar_hexCharToValue hFst hHi, digitChar_hexCharToValue hSnd hLo]
    rfl
  | case4 hi lo rest hNone ih =>
    unfold hexPairs at hPairs
    split at hPairs
    · rename_i h l tail hHi hLo hTail
      exact (hNone h l tail hHi hLo hTail).elim
    · cases hPairs

/- A vout is written without leading zeros. -/
theorem head_toDigits {n : Nat} (hPos : 0 < n) :
  ∃ char rest, Nat.toDigits 10 n = char :: rest ∧ char ≠ '0' := by
  induction n using Nat.strongRecOn with
  | _ n ih =>
    by_cases hSmall : n < 10
    · have hAll : ∀ m : Fin 10, 0 < m.val → Nat.digitChar m.val ≠ '0' := by decide
      refine ⟨Nat.digitChar n, [], ?_, ?_⟩
      · exact Nat.toDigits_of_lt_base hSmall
      · exact hAll ⟨n, hSmall⟩ hPos
    · rcases ih (n / 10) (by omega) (by omega) with ⟨char, rest, hDigits, hNonzero⟩
      rw [Nat.toDigits_of_base_le (by omega) (by omega), hDigits]
      exact ⟨char, _, rfl, hNonzero⟩

theorem isVoutText_toDigits {vout : Nat} (hVout : vout ≤ MAX_VOUT) :
  isVoutText (Nat.toDigits 10 vout) = true := by
  unfold MAX_VOUT at hVout
  rcases Nat.eq_zero_or_pos vout with rfl | hPos
  · decide
  rcases head_toDigits hPos with ⟨char, rest, hDigits, hNonzero⟩
  have hLen := (Nat.length_toDigits_le_iff (b := 10) (n := vout) (k := 10)
    (by decide) (by decide)).mpr (by omega)
  have hAll := toDigits_isDigit vout
  rw [hDigits] at hLen hAll ⊢
  rcases forall_mem_cons.mp hAll with ⟨hFst, hRest⟩
  unfold isVoutText
  split
  · rfl
  · rename_i first others hNot hSame
    rcases cons.inj hSame with ⟨rfl, rfl⟩
    have hTail : rest.all isDigit = true := List.all_eq_true.mpr hRest
    have hBound : rest.length ≤ 9 := by
      rw [length_cons] at hLen
      omega
    rw [hFst, hTail, decide_eq_true hBound, bne_iff_ne.mpr hNonzero]
    rfl
  · rename_i hEmpty
    cases hEmpty

open Cbor LittleEndian

variable {txid : Bytes} {vout : Nat}

section

variable (hTxid : txid.length = TXID_BYTES)

include hTxid

theorem matchOutpoint_outpointText (hVout : vout ≤ MAX_VOUT) :
  matchOutpoint (outpointText txid vout) = some (toHex txid, Nat.toDigits 10 vout) := by
  have hLen : (toHex txid).length = 64 := by
    rw [length_toHex, hTxid]
    rfl
  have hTake : (outpointText txid vout).take 64 = toHex txid := by
    unfold outpointText
    rw [← hLen, take_left]
  have hDrop : (outpointText txid vout).drop 64 = '.' :: Nat.toDigits 10 vout := by
    unfold outpointText
    rw [← hLen, drop_left]
  unfold matchOutpoint
  simp only [hTake, hDrop]
  rw [if_pos ⟨hLen, toHex_lowercase txid, isVoutText_toDigits hVout⟩]

theorem outpointBytes_outpointText (hVout : vout ≤ MAX_VOUT) :
  outpointBytes (outpointText txid vout) = .ok (txid.reverse ++ leBytes 4 vout) := by
  unfold outpointBytes
  rw [matchOutpoint_outpointText hTxid hVout]
  simp only [numberOfDigits_toDigits]
  rw [if_neg (Nat.not_lt.mpr hVout), hexToUint8Array_toHex]
  rfl

theorem outpointText_injective {other : Bytes} {otherVout : Nat}
  (hOther : other.length = TXID_BYTES)
  (hText : outpointText txid vout = outpointText other otherVout) :
  txid = other ∧ vout = otherVout := by
  unfold outpointText at hText
  have hLen : (toHex txid).length = (toHex other).length := by
    rw [length_toHex, length_toHex, hTxid, hOther]
  rcases append_inj hText hLen with ⟨hHex, hRest⟩
  have hDigits := (cons.inj hRest).2
  exact ⟨toHex_injective hHex, toDigits_injective hDigits⟩

end

-- Values of a Field

open Cbor Mandala LittleEndian UnicodeText

variable {publicKeyHex : Bytes → Option JsString} {value : StrictCborValue}

theorem readBytes_eq_some {length : Nat} {bytes : Bytes} :
  readBytes value length = some bytes ↔ value = .bytes bytes ∧ bytes.length = length := by
  constructor
  · intro hRead
    cases value with
    | bytes found =>
      change (if found.length = length then some found
        else none) = some bytes at hRead
      split at hRead
      · rename_i hLen
        cases hRead
        exact ⟨rfl, hLen⟩
      · cases hRead
    | _ => cases hRead
  · rintro ⟨rfl, hLen⟩
    exact if_pos hLen

theorem readOutpoint_bytes (hTxid : txid.length = TXID_BYTES) (hVout : vout ≤ MAX_VOUT) :
  readOutpoint (.bytes (txid.reverse ++ leBytes 4 vout)) = some (outpointText txid vout) := by
  have hReverse : txid.reverse.length = TXID_BYTES := by rw [length_reverse, hTxid]
  have hLen : (txid.reverse ++ leBytes 4 vout).length =
        OUTPOINT_BYTES := by
    rw [length_append, hReverse, length_leBytes]
    rfl
  have hSmall : vout < 256 ^ 4 := by
    unfold MAX_VOUT at hVout
    omega
  unfold readOutpoint
  rw [readBytes_eq_some.mpr ⟨rfl, hLen⟩, map_some,
    ← hReverse, take_left, drop_left, reverse_reverse, leToNat_leBytes hSmall]

theorem readOutpoint_eq_some {text : JsString} :
  readOutpoint value = some text ↔ ∃ txid vout, txid.length = TXID_BYTES ∧
      vout ≤ MAX_VOUT ∧ text = outpointText txid vout ∧
      value = .bytes (txid.reverse ++ leBytes 4 vout) := by
  constructor
  · intro hRead
    rcases map_eq_some_iff.mp hRead with ⟨bytes, hBytes, rfl⟩
    rcases readBytes_eq_some.mp hBytes with ⟨rfl, hLen⟩
    have hTake : (bytes.take TXID_BYTES).length = TXID_BYTES := by
      rw [length_take, hLen]
      rfl
    have hDrop : (bytes.drop TXID_BYTES).length = 4 := by
      rw [length_drop, hLen]
      rfl
    have hVout := leToNat_lt (bytes.drop TXID_BYTES)
    have hBytes := leBytes_leToNat (bytes.drop TXID_BYTES)
    rw [hDrop] at hVout hBytes
    refine ⟨(bytes.take TXID_BYTES).reverse, leToNat (bytes.drop TXID_BYTES), ?_, ?_, rfl, ?_⟩
    · rw [length_reverse, hTake]
    · unfold MAX_VOUT
      omega
    · rw [reverse_reverse, hBytes, take_append_drop]
  · rintro ⟨txid, vout, hTxid, hVout, rfl, rfl⟩
    exact readOutpoint_bytes hTxid hVout

theorem readPublicKey_eq_some {hex : JsString} :
  readPublicKey publicKeyHex value = some hex ↔ ∃ bytes, value = .bytes bytes ∧
      bytes.length = KEY_BYTES ∧ hex = toHex bytes ∧ publicKeyHex bytes = some hex := by
  unfold readPublicKey
  rw [bind_eq_bind, bind_eq_some_iff]
  constructor
  · rintro ⟨bytes, hBytes, hKey⟩
    rcases readBytes_eq_some.mp hBytes with ⟨rfl, hLen⟩
    simp only at hKey
    split at hKey
    · rename_i hSame
      cases hKey
      exact ⟨bytes, rfl, hLen, rfl, hSame⟩
    · cases hKey
  · rintro ⟨bytes, rfl, hLen, rfl, hKey⟩
    exact ⟨bytes, readBytes_eq_some.mpr ⟨rfl, hLen⟩, if_pos hKey⟩

theorem readMode_eq_some {mode : AccessMode} :
  readMode value = some mode ↔ value = .text (modeName mode) := by
  constructor
  · intro hRead
    cases value with
    | text name =>
      change (if name = modeName .denylist then some .denylist
        else if name = modeName .allowlist then some .allowlist
        else none) = some mode at hRead
      split at hRead
      · rename_i hName
        cases hRead
        rw [hName]
      · split at hRead
        · rename_i hName
          cases hRead
          rw [hName]
        · cases hRead
    | _ => cases hRead
  · rintro rfl
    cases mode with
    | denylist => decide
    | allowlist => decide

theorem readFeeRate_eq_some {rate : Option UInt64} :
  readFeeRate value = some rate ↔ (value = .null ∧ rate = none) ∨
      ∃ n : Nat, value = .integer n ∧ 0 < n ∧ n < 2 ^ 53 ∧ rate = some (numberOf n) := by
  constructor
  · intro hRead
    cases value with
    | null =>
      cases hRead
      exact .inl ⟨rfl, rfl⟩
    | integer found =>
      change (if 1 ≤ found ∧ found ≤ MAX_SAFE_INTEGER then some (some (numberOf found.toNat))
        else none) = some rate at hRead
      split at hRead
      · rename_i hRange
        unfold MAX_SAFE_INTEGER at hRange
        cases hRead
        refine .inr ⟨found.toNat, ?_, by omega, by omega, rfl⟩
        congr 1
        omega
      · cases hRead
    | _ => cases hRead
  · rintro (⟨rfl, rfl⟩ | ⟨n, rfl, hPos, hSafe, rfl⟩)
    · rfl
    · change (if 1 ≤ (n : Int) ∧ (n : Int) ≤ MAX_SAFE_INTEGER
          then some (some (numberOf (n : Int).toNat))
          else none) = _
      unfold MAX_SAFE_INTEGER
      rw [if_pos (by omega), Int.toNat_natCast]

def ValidField (publicKeyHex : Bytes → Option JsString) :
  (field : Field) → FieldValue field → Prop
| .bankRef, value => List.length value = BANK_REF_BYTES
| .outpoint, value =>
  ∃ txid vout, txid.length = TXID_BYTES ∧ vout ≤ MAX_VOUT ∧ value = outpointText txid vout
| .recipient, value =>
  ∃ bytes, bytes.length = KEY_BYTES ∧ value = toHex bytes ∧ publicKeyHex bytes = some value
| .identityKey, value =>
  ∃ bytes, bytes.length = KEY_BYTES ∧ value = toHex bytes ∧ publicKeyHex bytes = some value
| .mode, _ => True
| .feeRatePerKb, value =>
  ∀ bits ∈ (value : Option UInt64), ∃ n : Nat, integerOf bits = some (n : Int) ∧ 0 < n ∧ n < 2 ^ 53
| .reason, value => isWellFormed value = true

variable
    {field : Field} {decoded : FieldValue field}

theorem read_encode (hValid : ValidField publicKeyHex field decoded) :
  ∃ written, field.encode decoded = .ok written ∧ SupportedLeaf written ∧
    field.read publicKeyHex (returned 0 written) = some decoded := by
  cases field with
  | bankRef => exact ⟨.bytes decoded, rfl, trivial, readBytes_eq_some.mpr ⟨rfl, hValid⟩⟩
  | outpoint =>
    rcases hValid with ⟨txid, vout, hTxid, hVout, rfl⟩
    refine ⟨.bytes (txid.reverse ++ leBytes 4 vout), ?_, trivial, ?_⟩
    · change (outpointBytes (outpointText txid vout) >>= _) = _
      rw [outpointBytes_outpointText hTxid hVout]
      rfl
    · exact readOutpoint_bytes hTxid hVout
  | recipient =>
    rcases hValid with ⟨bytes, hLen, rfl, hKey⟩
    refine ⟨.bytes bytes, ?_, trivial, ?_⟩
    · change (hexToUint8Array (toHex bytes) >>= _) = _
      rw [hexToUint8Array_toHex]
      rfl
    · exact readPublicKey_eq_some.mpr ⟨bytes, rfl, hLen, rfl, hKey⟩
  | identityKey =>
    rcases hValid with ⟨bytes, hLen, rfl, hKey⟩
    refine ⟨.bytes bytes, ?_, trivial, ?_⟩
    · change (hexToUint8Array (toHex bytes) >>= _) = _
      rw [hexToUint8Array_toHex]
      rfl
    · exact readPublicKey_eq_some.mpr ⟨bytes, rfl, hLen, rfl, hKey⟩
  | mode =>
    refine ⟨.text (modeName decoded), rfl, ?_, readMode_eq_some.mpr rfl⟩
    change isWellFormed (modeName decoded) = true
    cases decoded with
    | denylist => decide
    | allowlist => decide
  | feeRatePerKb =>
    cases decoded with
    | none => exact ⟨.null, rfl, trivial, rfl⟩
    | some bits =>
      rcases hValid bits rfl with ⟨n, hInteger, hPos, hSafe⟩
      refine ⟨.number bits, rfl, .inl ⟨n, hInteger, ?_⟩, ?_⟩
      · unfold MAX_SAFE_INTEGER
        omega
      · change readFeeRate (returnedNumber bits) = _
        unfold returnedNumber
        rw [hInteger]
        refine readFeeRate_eq_some.mpr (Or.inr ⟨n, rfl, hPos, hSafe, ?_⟩)
        rw [eq_numberOf hPos hSafe hInteger]
  | reason => exact ⟨.text decoded, rfl, hValid, rfl⟩

theorem valid_of_read (hText : ∀ text, value = .text text → isWellFormed text = true)
  (hRead : field.read publicKeyHex value = some decoded) :
  ValidField publicKeyHex field decoded := by
  cases field with
  | bankRef => exact (readBytes_eq_some.mp hRead).2
  | outpoint =>
    rcases readOutpoint_eq_some.mp hRead with ⟨txid, vout, hTxid, hVout, hDec, -⟩
    exact ⟨txid, vout, hTxid, hVout, hDec⟩
  | recipient =>
    rcases readPublicKey_eq_some.mp hRead with ⟨bytes, -, hLen, hDec, hKey⟩
    exact ⟨bytes, hLen, hDec, hKey⟩
  | identityKey =>
    rcases readPublicKey_eq_some.mp hRead with ⟨bytes, -, hLen, hDec, hKey⟩
    exact ⟨bytes, hLen, hDec, hKey⟩
  | mode => trivial
  | feeRatePerKb =>
    intro bits hBits
    rcases readFeeRate_eq_some.mp hRead with ⟨-, rfl⟩ | ⟨n, -, hPos, hSafe, rfl⟩
    · cases hBits
    · cases hBits
      exact ⟨n, integerOf_numberOf hPos hSafe, hPos, hSafe⟩
  | reason =>
    cases value with
    | text text =>
      cases hRead
      exact hText decoded rfl
    | _ => cases hRead

theorem read_injective
  {left right : StrictCborValue} (hLeft : field.read publicKeyHex left = some decoded)
  (hRight : field.read publicKeyHex right = some decoded) : left = right := by
  have hKeys : ∀ hex : JsString, readPublicKey publicKeyHex left = some hex →
        readPublicKey publicKeyHex right = some hex →
        left = right := by
    intro hex hFst hSnd
    rcases readPublicKey_eq_some.mp hFst with ⟨bytes, rfl, -, hHex, -⟩
    rcases readPublicKey_eq_some.mp hSnd with ⟨other, rfl, -, hOther, -⟩
    rw [toHex_injective (hHex.symm.trans hOther)]
  cases field with
  | bankRef => rw [(readBytes_eq_some.mp hLeft).1, (readBytes_eq_some.mp hRight).1]
  | outpoint =>
    rcases readOutpoint_eq_some.mp hLeft with ⟨txid, vout, hTxid, -, hText, rfl⟩
    rcases readOutpoint_eq_some.mp hRight with ⟨other, otherVout, hOther, -, hSame, rfl⟩
    rcases outpointText_injective hTxid hOther (hText.symm.trans hSame) with ⟨rfl, rfl⟩
    rfl
  | recipient => exact hKeys decoded hLeft hRight
  | identityKey => exact hKeys decoded hLeft hRight
  | mode => rw [readMode_eq_some.mp hLeft, readMode_eq_some.mp hRight]
  | feeRatePerKb =>
    rcases readFeeRate_eq_some.mp hLeft with ⟨rfl, rfl⟩ | ⟨n, rfl, hPos, hSafe, rfl⟩
    · rcases readFeeRate_eq_some.mp hRight with ⟨rfl, -⟩ | ⟨m, -, -, -, hRate⟩
      · rfl
      · cases hRate
    · rcases readFeeRate_eq_some.mp hRight with ⟨-, hRate⟩ | ⟨m, rfl, hPos', hSafe', hRate⟩
      · cases hRate
      · have hFst := integerOf_numberOf hPos hSafe
        have hSnd := integerOf_numberOf hPos' hSafe'
        rw [some.inj hRate, hSnd] at hFst
        rw [some.inj hFst]
  | reason =>
    cases left with
    | text left =>
      cases hLeft
      cases right with
      | text right =>
        cases hRight
        rfl
      | _ => cases hRight
    | _ => cases hLeft

end TsStack.MandalaDetails
