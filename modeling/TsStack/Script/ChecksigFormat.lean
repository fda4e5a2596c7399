import TsStack.Script.ScriptNumCodec

/-
  The signature format of `OP_CHECKSIG`: the predicate of
  the interpreter, the decoder and the encoder.
-/

-- Decoding

open List Option

namespace TsStack

open LittleEndian TransactionSignature

namespace Signature

/- `getLength`: past the end the length is `undefined`. -/
def getLength (data : Bytes) (place : Nat) : Except JsError (Option Nat) :=
  let initial := elementAt data place
  if initial.getD 0 &&& 0x80 = 0 then .ok initial
  else .error (.error "Invalid DER entity length")

/- A positive integer whose top bit is set has a zero byte before it. -/
def dropSignByte (value : String) (bytes : Bytes) : Except JsError Bytes :=
  if elementAt bytes 0 = some 0 then
    if (elementAt bytes 1).getD 0 &&& 0x80 = 0 then
      .error (.error ("Invalid " ++ value ++ "-value in signature DER"))
    else .ok (bytes.drop 1)
  else .ok bytes

/- `Signature.fromDER`. -/
def fromDER (data : Bytes) : Except JsError (Int × Int) :=
  if elementAt data 0 ≠ some 0x30 then .error (.error "Signature DER must start with 0x30")
  else do
    let len ← getLength data 1
    if len.map (· + 2) ≠ some data.length then throw (.error "Signature DER invalid")
    if elementAt data 2 ≠ some 0x02 then throw (.error "Signature DER invalid")
    match ← getLength data 3 with
    | none => throw (.error "Signature DER invalid")
    | some rlen =>
      let place := rlen + 4
      if elementAt data place ≠ some 0x02 then throw (.error "Signature DER invalid")
      let slen ← getLength data (place + 1)
      if slen.map (· + (place + 2)) ≠ some data.length then
        throw (.error "Invalid R-length in signature DER")
      let r ← dropSignByte "R" ((data.drop 4).take rlen)
      let s ← dropSignByte "S" ((data.drop (place + 2)).take (slen.getD 0))
      return (beToNat r, beToNat s)

-- Encoding

def constructLength (len : Nat) : Except JsError UInt8 :=
  if len < 0x80 then .ok (UInt8.ofNat len) else .error (.error "len must be < 0x80")

def padValue (bytes : Bytes) : Bytes :=
  if (elementAt bytes 0).getD 0 &&& 0x80 ≠ 0 then 0 :: bytes else bytes

def rmPadding : Bytes → Bytes
| byte :: next :: bytes =>
  if byte = 0 ∧ next &&& 0x80 = 0 then rmPadding (next :: bytes) else byte :: next :: bytes
| bytes => bytes

/- The second loop over `s`, which takes a single zero byte too. -/
def trimS : Bytes → Bytes
| [] => []
| byte :: bytes =>
  if byte = 0 ∧ (elementAt bytes 0).getD 0 &&& 0x80 = 0 then trimS bytes else byte :: bytes

/- `Signature.toDER`. -/
def toDER (r s : Int) : Except JsError Bytes := do
  let r := rmPadding (padValue (BigNumber.toArray r))
  let s := trimS (rmPadding (padValue (BigNumber.toArray s)))
  let rLength ← constructLength r.length
  let sLength ← constructLength s.length
  let backHalf := 0x02 :: rLength :: r ++ 0x02 :: sLength :: s
  let length ← constructLength backHalf.length
  return 0x30 :: length :: backHalf

end Signature

def TransactionSignature.toChecksigFormat (sig : TransactionSignature) : Except JsError Bytes := do
  let derbuf ← Signature.toDER sig.r sig.s
  return derbuf ++ [UInt8.ofNat sig.scope]

-- The accepted byte strings

namespace Signature

/- Not negative, and not padded without need. -/
def IsDerInteger (bytes : Bytes) : Prop :=
  bytes ≠ [] ∧ isBadInteger bytes 0 bytes.length = false

def derBytes (r s : Bytes) : Bytes :=
  [0x30, UInt8.ofNat (r.length + s.length + 4), 0x02, UInt8.ofNat r.length] ++ r ++
    [0x02, UInt8.ofNat s.length] ++ s

theorem elementAt_append (low high : Bytes) (i : Nat) :
  elementAt (low ++ high) (low.length + i) = elementAt high i := by
  rw [elementAt, getElem?_append_right (Nat.le_add_right _ _), Nat.add_sub_cancel_left]
  rfl

theorem isBadInteger_append {low bytes high : Bytes} (hSome : bytes ≠ []) :
  isBadInteger (low ++ (bytes ++ high)) low.length bytes.length =
    isBadInteger bytes 0 bytes.length := by
  have hFst := elementAt_append low (bytes ++ high) 0
  have hSnd := elementAt_append low (bytes ++ high) 1
  rw [add_zero] at hFst
  unfold isBadInteger
  rw [hFst, hSnd]
  cases bytes with
  | nil => exact absurd rfl hSome
  | cons first bytes => cases bytes <;> simp [elementAt]

theorem check_iff {condition : Prop} [Decidable condition] {rest : Bool} :
  (if condition then false else rest) = true ↔ ¬ condition ∧ rest = true := by
  split <;> simp_all

/- The predicate on a byte string that is cut at its first integer. -/
theorem isChecksigFormatHelper_append {a b c d m l t : UInt8} {r s : Bytes}
  (hLen : r.length = d.toNat) (hR : r ≠ []) (hS : s ≠ []) :
  isChecksigFormatHelper ([a, b, c, d] ++ (r ++ ([m, l] ++ (s ++ [t])))) ↔
    (a.toNat = 0x30 ∧ b.toNat = r.length + s.length + 4 ∧ c.toNat = 0x02 ∧ m.toNat = 0x02 ∧
      l.toNat = s.length) ∧ r.length + s.length ≤ 66 ∧
      isBadInteger r 0 r.length = false ∧ isBadInteger s 0 s.length = false := by
  generalize hBuf : [a, b, c, d] ++ (r ++ ([m, l] ++ (s ++ [t]))) = buf
  have hSplit : buf = [a, b, c, d] ++ r ++ [m, l] ++ (s ++ [t]) := by simp [← hBuf]
  have hTotal : buf.length = r.length + s.length + 7 := by
    simp [← hBuf]
    omega
  have hFst : elementAt buf 0 = some a.toNat ∧ elementAt buf 1 = some b.toNat ∧
    elementAt buf 2 = some c.toNat ∧ elementAt buf 3 = some d.toNat := by simp [← hBuf, elementAt]
  have hMarker : elementAt buf (4 + r.length) = some m.toNat := by
    rw [← hBuf]
    simp [elementAt, Nat.add_comm]
  have hSLen : elementAt buf (4 + r.length + 1) = some l.toNat := by
    rw [← hBuf]
    simp [elementAt, Nat.add_comm, Nat.add_left_comm]
  have hBadR : isBadInteger buf 4 r.length = isBadInteger r 0 r.length := by
    rw [← hBuf]
    exact isBadInteger_append hR
  have hBadS : isBadInteger buf (4 + r.length + 2) s.length = isBadInteger s 0 s.length := by
    have hAt := @isBadInteger_append ([a, b, c, d] ++ r ++ [m, l]) s [t] hS
    rw [hSplit]
    simpa [Nat.add_comm, Nat.add_left_comm] using hAt
  have hRPos := length_pos_iff.mpr hR
  have hSPos := length_pos_iff.mpr hS
  unfold isChecksigFormatHelper
  rw [hFst.1, hFst.2.1, hFst.2.2.1, hFst.2.2.2, getD_some, ← hLen]
  dsimp only
  rw [hMarker, hSLen, hBadR, hTotal, getD_some]
  simp only [check_iff, Bool.or_eq_true, decide_eq_true_eq, ne_eq, Option.some.injEq, not_or,
    not_not, not_lt, not_le, Bool.not_eq_true]
  constructor
  · rintro ⟨⟨-, hMax⟩, hA, hB, hC, -, -, hM, -, hBad, hBadL, hSum⟩
    have hSame : l.toNat = s.length := by omega
    rw [hSame, hBadS] at hBadL
    exact ⟨⟨hA, by omega, hC, hM, hSame⟩, by omega, hBad, hBadL⟩
  · rintro ⟨⟨hA, hB, hC, hM, hL⟩, hMax, hBad, hBadL⟩
    rw [hL, hBadS]
    exact ⟨⟨by omega, by omega⟩, hA, by omega, hC, by omega, by omega, hM, by omega, hBad, hBadL,
      by omega⟩

theorem isChecksigFormatHelper_iff {buf : Bytes} :
  isChecksigFormatHelper buf ↔ ∃ r s scope, buf = derBytes r s ++ [scope] ∧ IsDerInteger r ∧
    IsDerInteger s ∧ r.length + s.length ≤ 66 := by
  constructor
  · intro hAccepts
    have hChecks := hAccepts
    unfold isChecksigFormatHelper at hChecks
    simp only [check_iff, Bool.or_eq_true, decide_eq_true_eq, not_or, not_lt, not_le] at hChecks
    rcases hChecks with ⟨⟨hMin, -⟩, -, -, -, hRLen, hFits, -, hSLen, -, -, hSum⟩
    rcases buf with _ | ⟨a, _ | ⟨b, _ | ⟨c, _ | ⟨d, tail⟩⟩⟩⟩ <;> simp at hMin
    change ¬ d.toNat = 0 at hRLen
    change 5 + d.toNat < tail.length + 4 at hFits
    change d.toNat + _ + 7 = tail.length + 4 at hSum
    generalize Option.getD _ 0 = sLen at hSum hSLen
    have hTake := length_take_of_le (show d.toNat ≤ tail.length by omega)
    have hDrop := length_drop (l := tail) (i := d.toNat)
    rw [← take_append_drop d.toNat tail] at hAccepts ⊢
    generalize tail.take d.toNat = r at hTake hAccepts ⊢
    generalize tail.drop d.toNat = rest at hDrop hAccepts ⊢
    rcases rest with _ | ⟨m, _ | ⟨l, rest⟩⟩ <;> simp only [length_nil, length_cons] at hDrop
    · omega
    · omega
    · rcases eq_nil_or_concat' rest with rfl | ⟨s, t, rfl⟩
      · rw [length_nil] at hDrop
        omega
      · rw [length_append, length_singleton] at hDrop
        have hR : r ≠ [] := length_pos_iff.mp (by omega)
        have hS : s ≠ [] := length_pos_iff.mp (by omega)
        rcases (isChecksigFormatHelper_append hTake hR hS).mp hAccepts with
          ⟨⟨hA, hB, hC, hM, hL⟩, hMax, hBadR, hBadS⟩
        have hByte : ∀ (byte : UInt8) (n : Nat), byte.toNat = n → byte = UInt8.ofNat n := by
          rintro byte _ rfl
          exact (UInt8.ofNat_toNat).symm
        refine ⟨r, s, t, ?_, ⟨hR, hBadR⟩, ⟨hS, hBadS⟩, hMax⟩
        rw [hByte a _ hA, hByte b _ hB, hByte c _ hC, hByte d _ hTake.symm, hByte m _ hM,
          hByte l _ hL]
        simp [derBytes]
  · rintro ⟨r, s, scope, rfl, ⟨hR, hBadR⟩, ⟨hS, hBadS⟩, hMax⟩
    have hByte : ∀ n < 256, (UInt8.ofNat n).toNat = n := fun n hLess => by
      rw [UInt8.toNat_ofNat', Nat.mod_eq_of_lt hLess]
    have hIff := isChecksigFormatHelper_append (a := 0x30)
      (b := UInt8.ofNat (r.length + s.length + 4)) (c := 0x02) (m := 0x02)
      (l := UInt8.ofNat s.length) (t := scope) (hByte r.length (by omega)).symm hR hS
    have hForm : derBytes r s ++ [scope] = [0x30, UInt8.ofNat (r.length + s.length + 4), 0x02,
        UInt8.ofNat r.length] ++ (r ++ ([0x02, UInt8.ofNat s.length] ++ (s ++ [scope]))) := by
      simp [derBytes]
    rw [hForm]
    exact hIff.mpr ⟨⟨rfl, hByte _ (by omega), rfl, rfl, hByte _ (by omega)⟩, hMax, hBadR, hBadS⟩

-- The integers

theorem and_signBit {n : Nat} (hLess : n < 256) : n &&& 0x80 = 0 ↔ n < 128 :=
  (by decide +kernel : ∀ n < 256, n &&& 0x80 = 0 ↔ n < 128) n hLess

theorem padValue_cons (byte : UInt8) (bytes : Bytes) :
  padValue (byte :: bytes) = if byte.toNat < 128 then byte :: bytes else 0 :: byte :: bytes := by
  have hBit := and_signBit byte.toNat_lt
  simp only [padValue, elementAt, getElem?_cons_zero, map_some, getD_some, ne_eq,
    hBit, ite_not]

theorem padValue_spec (value : String) {byte : UInt8} (bytes : Bytes) (hByte : byte.toNat ≠ 0) :
  IsDerInteger (padValue (byte :: bytes)) ∧ padValue (byte :: bytes) ≠ [0] ∧
    dropSignByte value (padValue (byte :: bytes)) = .ok (byte :: bytes) ∧
    rmPadding (padValue (byte :: bytes)) = padValue (byte :: bytes) ∧
    trimS (padValue (byte :: bytes)) = padValue (byte :: bytes) := by
  have hBit := and_signBit byte.toNat_lt
  have hBit' := signBit_eq_zero byte
  have hNot : byte ≠ 0 := fun hZero => hByte (UInt8.toNat_inj.mpr hZero)
  rw [padValue_cons]
  split
  · rename_i hSmall
    refine ⟨⟨by simp, ?_⟩, by simp [hNot], ?_, ?_, ?_⟩
    · simp [isBadInteger, elementAt, hBit, hSmall, hByte]
    · simp [dropSignByte, elementAt, hByte]
    · cases bytes <;> simp [rmPadding, hNot]
    · simp [trimS, hNot]
  · rename_i hLarge
    refine ⟨⟨by simp, ?_⟩, by simp, ?_, ?_, ?_⟩
    · simp [isBadInteger, elementAt, hBit, hLarge]
    · simp [dropSignByte, elementAt, hBit, hLarge]
    · simp [rmPadding, hBit', hLarge]
    · simp [trimS, elementAt, hBit, hLarge]

/- Zero, or the padding of a value without leading zeros. -/
theorem IsDerInteger.cases {bytes : Bytes} (hInteger : IsDerInteger bytes) :
  bytes = [0] ∨ ∃ byte rest, byte.toNat ≠ 0 ∧ bytes = padValue (byte :: rest) := by
  rcases hInteger with ⟨hSome, hGood⟩
  cases bytes with
  | nil => exact absurd rfl hSome
  | cons first rest =>
    have hBit := and_signBit first.toNat_lt
    by_cases hZero : first = 0
    · subst hZero
      cases rest with
      | nil => exact .inl rfl
      | cons second rest =>
        have hSnd := and_signBit second.toNat_lt
        have hLarge : ¬ second.toNat < 128 := by
          simpa [isBadInteger, elementAt, hSnd] using hGood
        exact .inr ⟨second, rest, by omega, by rw [padValue_cons, if_neg hLarge]⟩
    · have hSmall : first.toNat < 128 := by
        simp [isBadInteger, elementAt, hBit] at hGood
        omega
      refine .inr ⟨first, rest, fun hNone => hZero (UInt8.toNat_inj.mp hNone), ?_⟩
      rw [padValue_cons, if_pos hSmall]

theorem toArray_beToNat {byte : UInt8} (bytes : Bytes) (hByte : byte.toNat ≠ 0) :
  BigNumber.toArray (beToNat (byte :: bytes) : Int) = byte :: bytes := by
  have hDigits : Nat.digits 256 (beToNat (byte :: bytes)) =
      ((byte :: bytes).reverse.map UInt8.toNat) := by
    rw [beToNat, leToNat_eq_ofDigits]
    apply Nat.digits_ofDigits 256 (by decide)
    · intro digit hDigit
      rcases List.mem_map.mp hDigit with ⟨byte, -, rfl⟩
      exact byte.toNat_lt
    · intro hSome
      simpa using hByte
  have hNe : beToNat (byte :: bytes) ≠ 0 := by
    intro hZero
    rw [hZero] at hDigits
    simp at hDigits
  have hInverse : UInt8.ofNat ∘ UInt8.toNat = id := funext fun byte => UInt8.ofNat_toNat
  rw [BigNumber.toArray, if_neg (Int.natCast_ne_zero.mpr hNe), Int.natAbs_natCast, hDigits,
    List.map_map, hInverse, List.map_id, reverse_reverse]

theorem toArray_cons {number : Int} (hPos : 1 ≤ number) :
  ∃ byte bytes, BigNumber.toArray number = byte :: bytes ∧ byte.toNat ≠ 0 ∧
    (beToNat (byte :: bytes) : Int) = number := by
  rcases magnitudeBytes_append (show number.natAbs ≠ 0 by omega) with
    ⟨low, top, hBytes, hTop, hValue⟩
  refine ⟨top, low.reverse, ?_, hTop, ?_⟩
  · rw [BigNumber.toArray, if_neg (by omega : ¬ number = 0)]
    change (magnitudeBytes number.natAbs).reverse = _
    rw [hBytes, reverse_append]
    rfl
  · rw [beToNat, reverse_cons, reverse_reverse, hValue]
    omega

-- Round trips

theorem getLength_of {data : Bytes} {place n : Nat} (hAt : elementAt data place = some n)
  (hLess : n < 128) : getLength data place = .ok (some n) := by
  have hBit := (and_signBit (show n < 256 by omega)).mpr hLess
  simp [getLength, hAt, hBit]

theorem fromDER_derBytes {r s : Bytes} (hMax : r.length + s.length ≤ 66) :
  fromDER (derBytes r s) = do
    let r ← dropSignByte "R" r
    let s ← dropSignByte "S" s
    return ((beToNat r : Int), (beToNat s : Int)) := by
  have hTotal : (derBytes r s).length = r.length + s.length + 6 := by
    simp [derBytes]
    omega
  have hLen := @getLength_of (derBytes r s) 1 (r.length + s.length + 4)
    (by simp [derBytes, elementAt]; omega) (by omega)
  have hRLen := @getLength_of (derBytes r s) 3 r.length
    (by simp [derBytes, elementAt]; omega) (by omega)
  have hMarker : elementAt (derBytes r s) (r.length + 4) = some 2 := by
    simp [derBytes, elementAt]
  have hSLen := @getLength_of (derBytes r s) (r.length + 4 + 1) s.length
    (by simp [derBytes, elementAt]; omega) (by omega)
  have hR : ((derBytes r s).drop 4).take r.length = r := by simp [derBytes]
  have hS : ((derBytes r s).drop (r.length + 4 + 2)).take s.length = s := by simp [derBytes]
  have hFst : elementAt (derBytes r s) 0 = some 0x30 ∧ elementAt (derBytes r s) 2 = some 0x02 :=
    ⟨rfl, rfl⟩
  unfold fromDER
  simp only [hFst.1, hFst.2, hLen, hRLen, hMarker, hSLen, hTotal, hR, hS, ne_eq,
    not_true_eq_false, reduceIte, bind, Except.bind, map_some, getD_some]
  have hSum : s.length + (r.length + 4 + 2) = r.length + s.length + 6 := by omega
  simp only [hSum, not_true_eq_false, reduceIte]

theorem fromChecksigFormat_derBytes {r s : Bytes} (scope : UInt8)
  (hMax : r.length + s.length ≤ 66) : fromChecksigFormat fromDER (derBytes r s ++ [scope]) = do
    let r ← dropSignByte "R" r
    let s ← dropSignByte "S" s
    return ⟨(beToNat r : Int), (beToNat s : Int), scope.toNat⟩ := by
  rw [fromChecksigFormat, if_neg (by simp), dropLast_concat, getLastD_concat,
    fromDER_derBytes hMax]
  cases dropSignByte "R" r <;> cases dropSignByte "S" s <;> rfl

theorem toDER_beToNat {byte byte' : UInt8} {bytes bytes' : Bytes} (hByte : byte.toNat ≠ 0)
  (hByte' : byte'.toNat ≠ 0)
  (hMax : (padValue (byte :: bytes)).length + (padValue (byte' :: bytes')).length ≤ 66) :
  toDER (beToNat (byte :: bytes)) (beToNat (byte' :: bytes')) =
    .ok (derBytes (padValue (byte :: bytes)) (padValue (byte' :: bytes'))) := by
  rcases padValue_spec "" bytes hByte with ⟨-, -, -, hR, -⟩
  rcases padValue_spec "" bytes' hByte' with ⟨-, -, -, hS, hTrim⟩
  unfold toDER
  rw [toArray_beToNat _ hByte, toArray_beToNat _ hByte', hR, hS, hTrim]
  generalize padValue (byte :: bytes) = r at hMax ⊢
  generalize padValue (byte' :: bytes') = s at hMax ⊢
  have hLen : (0x02 :: UInt8.ofNat r.length :: r ++ 0x02 :: UInt8.ofNat s.length :: s).length =
      r.length + s.length + 4 := by
    simp
    omega
  simp only [constructLength, if_pos (show r.length < 0x80 by omega),
    if_pos (show s.length < 0x80 by omega), bind, Except.bind, hLen,
    if_pos (show r.length + s.length + 4 < 0x80 by omega)]
  simp [derBytes]

end Signature

open Signature

/-
  What the helper accepts decodes, unless one integer is the single byte zero, and is then what the
  encoder writes; and all signatures of 256 bits are written so.
-/
theorem checksigFormat_roundTrip :
  (∀ buf, isChecksigFormatHelper buf → ∃ r s scope, buf = derBytes r s ++ [scope] ∧
    IsDerInteger r ∧ IsDerInteger s ∧
    ((∃ sig, fromChecksigFormat fromDER buf = .ok sig) ↔ r ≠ [0] ∧ s ≠ [0]) ∧
    ∀ sig, fromChecksigFormat fromDER buf = .ok sig → sig.toChecksigFormat = .ok buf) ∧
  ∀ (r s : Int) (scope : UInt8), 1 ≤ r → r < 2 ^ 256 → 1 ≤ s → s < 2 ^ 256 →
    ∃ buf, (TransactionSignature.mk r s scope.toNat).toChecksigFormat = .ok buf ∧
      isChecksigFormatHelper buf ∧
        fromChecksigFormat fromDER buf = .ok ⟨r, s, scope.toNat⟩ := by
  constructor
  · intro buf hAccepts
    rcases isChecksigFormatHelper_iff.mp hAccepts with ⟨r, s, scope, rfl, hR, hS, hMax⟩
    refine ⟨r, s, scope, rfl, hR, hS, ?_⟩
    rw [fromChecksigFormat_derBytes scope hMax]
    rcases hR.cases with rfl | ⟨byte, bytes, hByte, rfl⟩
    · exact ⟨by simp [dropSignByte, elementAt], by simp [dropSignByte, elementAt]⟩
    · rcases padValue_spec "R" bytes hByte with ⟨-, hNot, hDrop, -⟩
      rcases hS.cases with rfl | ⟨byte', bytes', hByte', rfl⟩
      · rw [hDrop]
        exact ⟨by simp [dropSignByte, elementAt], by simp [dropSignByte, elementAt]⟩
      · rcases padValue_spec "S" bytes' hByte' with ⟨-, hNot', hDrop', -⟩
        rw [hDrop, hDrop']
        refine ⟨⟨fun _ => ⟨hNot, hNot'⟩, fun _ => ⟨_, rfl⟩⟩, fun sig hSig => ?_⟩
        cases hSig
        rw [toChecksigFormat, toDER_beToNat hByte hByte' hMax]
        simp
  · intro r s scope hR hRLess hS hSLess
    rcases toArray_cons hR with ⟨byte, bytes, hBytes, hByte, rfl⟩
    rcases toArray_cons hS with ⟨byte', bytes', hBytes', hByte', rfl⟩
    have hLength := @BigNumber.length_toArray_le _ 32 (Int.natCast_nonneg _) (by decide) hRLess
    have hLength' := @BigNumber.length_toArray_le _ 32 (Int.natCast_nonneg _) (by decide) hSLess
    rw [hBytes, List.length_cons] at hLength
    rw [hBytes', List.length_cons] at hLength'
    have hMax : (padValue (byte :: bytes)).length + (padValue (byte' :: bytes')).length ≤ 66 := by
      rw [padValue_cons, padValue_cons]
      split_ifs <;> simp only [List.length_cons] <;> omega
    rcases padValue_spec "R" bytes hByte with ⟨hInteger, -, hDrop, -⟩
    rcases padValue_spec "S" bytes' hByte' with ⟨hInteger', -, hDrop', -⟩
    refine ⟨derBytes _ _ ++ [scope], ?_,
      isChecksigFormatHelper_iff.mpr ⟨_, _, scope, rfl, hInteger, hInteger', hMax⟩, ?_⟩
    · rw [toChecksigFormat, toDER_beToNat hByte hByte' hMax]
      simp
    · rw [fromChecksigFormat_derBytes scope hMax, hDrop, hDrop']
      rfl

theorem not_decoded_zero :
  ¬ ∀ buf, isChecksigFormatHelper buf → ∃ sig, fromChecksigFormat fromDER buf = .ok sig ∧
    sig.toChecksigFormat = .ok buf := by
  intro hDecodes
  rcases hDecodes [0x30, 6, 0x02, 1, 0, 0x02, 1, 1, 0x41] (by decide) with ⟨sig, hSig, -⟩
  cases hSig

end TsStack
