import TsStack.Primitives.BigNumber
import TsStack.Script.Multisig

/-
  Script numbers as a code: the minimal byte strings are
  those `toScriptNum` writes, one for each number.
-/

-- Bytes

open List

namespace TsStack

open LittleEndian

theorem forall_byte {p : UInt8 → Prop} (hAll : ∀ n < 256, p (UInt8.ofNat n)) (byte : UInt8) :
  p byte := by
  have hByte := hAll byte.toNat byte.toNat_lt
  rwa [UInt8.ofNat_toNat] at hByte

theorem signBit_eq_zero : ∀ byte : UInt8, byte &&& 0x80 = 0 ↔ byte.toNat < 128 :=
  forall_byte (by decide +kernel)

theorem toNat_clearBit : ∀ byte : UInt8, (byte &&& 0x7f).toNat = byte.toNat % 128 :=
  forall_byte (by decide +kernel)

theorem clearBit_eq_zero (byte : UInt8) : byte &&& 0x7f = 0 ↔ byte.toNat % 128 = 0 := by
  rw [← toNat_clearBit, ← UInt8.toNat_inj]
  rfl

theorem toNat_setBit : ∀ byte : UInt8, byte.toNat < 128 → (byte ||| 0x80).toNat = byte.toNat + 128 :=
  forall_byte (by decide +kernel)

theorem leToNat_eq_ofDigits (bytes : Bytes) :
  leToNat bytes = Nat.ofDigits 256 (bytes.map UInt8.toNat) := by
  induction bytes with
  | nil => rfl
  | cons byte bytes ih => rw [leToNat, map_cons, Nat.ofDigits_cons, ih]

theorem leToNat_append (low high : Bytes) :
  leToNat (low ++ high) = leToNat low + 256 ^ low.length * leToNat high := by
  simp only [leToNat_eq_ofDigits, map_append, Nat.ofDigits_append, length_map]

theorem leToNat_zeros (bytes : Bytes) (count : Nat) :
  leToNat (bytes ++ replicate count 0) = leToNat bytes := by
  have hZeros : leToNat (replicate count 0) = 0 := by
    induction count with
    | zero => rfl
    | succ count ih => simp [replicate_succ, leToNat, ih]
  rw [leToNat_append, hZeros, mul_zero, add_zero]

theorem clearSign_append (low : Bytes) (top : UInt8) :
  clearSign (low ++ [top]) = low ++ [top &&& 0x7f] := by
  induction low with
  | nil => rfl
  | cons byte low ih =>
    have hTail : low ++ [top] ≠ [] := by simp
    rw [cons_append, clearSign.eq_3 _ _ hTail, ih, cons_append]

theorem signBytes_append (negative : Bool) (low : Bytes) (top : UInt8) :
  signBytes negative (low ++ [top]) = low ++ signBytes negative [top] := by
  induction low with
  | nil => rfl
  | cons byte low ih =>
    have hTail : low ++ [top] ≠ [] := by simp
    rw [cons_append, signBytes.eq_3 _ _ _ hTail, ih, cons_append]

-- The number of a byte string

theorem fromSm_append (low : Bytes) (top : UInt8) :
  fromSm (low ++ [top]) = (if 128 ≤ top.toNat then -1 else 1) *
    ((leToNat low + 256 ^ low.length * (top.toNat % 128) : Nat) : Int) := by
  have hTop := signBit_eq_zero top
  unfold fromSm
  rw [getLast?_concat]
  dsimp only
  split
  · rename_i hSign
    have hLarge : 128 ≤ top.toNat := by
      by_contra hSmall
      exact hSign (hTop.mpr (by omega))
    rw [if_pos hLarge, clearSign_append, leToNat_append]
    simp only [leToNat, toNat_clearBit, mul_zero, add_zero, neg_one_mul]
  · rename_i hSign
    have hSmall : top.toNat < 128 := hTop.mp (not_not.mp hSign)
    rw [if_neg (by omega), leToNat_append, Nat.mod_eq_of_lt hSmall]
    simp [leToNat]

theorem natAbs_fromSm_append (low : Bytes) (top : UInt8) :
  (fromSm (low ++ [top])).natAbs = leToNat low + 256 ^ low.length * (top.toNat % 128) := by
  rw [fromSm_append]
  split
  · rw [neg_one_mul, Int.natAbs_neg, Int.natAbs_natCast]
  · rw [one_mul, Int.natAbs_natCast]

theorem minimal_append {low : Bytes} {top : UInt8} :
  hasRedundantSignByte (low ++ [top]) = false ↔ top.toNat % 128 ≠ 0 ∨
    ∃ rest next, low = rest ++ [next] ∧ 128 ≤ next.toNat := by
  rcases eq_nil_or_concat' low with rfl | ⟨rest, next, rfl⟩
  · simp [hasRedundantSignByte, clearBit_eq_zero]
  · have hNext := signBit_eq_zero next
    simp [hasRedundantSignByte, clearBit_eq_zero, hNext]
    grind

theorem fromSm_bounds {low : Bytes} {top : UInt8}
  (hMin : hasRedundantSignByte (low ++ [top]) = false) :
  256 ^ low.length ≤ 2 * (fromSm (low ++ [top])).natAbs ∧
    2 * (fromSm (low ++ [top])).natAbs < 256 ^ (low.length + 1) := by
  rw [natAbs_fromSm_append, pow_succ]
  have hLow := leToNat_lt low
  have hTop : top.toNat % 128 ≤ 127 := by omega
  have hUpper := Nat.mul_le_mul_left (256 ^ low.length) hTop
  refine ⟨?_, by omega⟩
  rcases minimal_append.mp hMin with hSome | ⟨rest, next, rfl, hNext⟩
  · have hLower := Nat.mul_le_mul_left (256 ^ low.length) (Nat.one_le_iff_ne_zero.mpr hSome)
    omega
  · have hLower := Nat.mul_le_mul_left (256 ^ rest.length) hNext
    simp only [leToNat_append, leToNat, length_append, length_singleton, pow_succ,
      mul_zero, add_zero]
    omega

theorem leToNat_eq {low : Bytes} {top : UInt8}
  (hMin : hasRedundantSignByte (low ++ [top]) = false) :
  leToNat (low ++ [top]) = (fromSm (low ++ [top])).natAbs +
    if fromSm (low ++ [top]) < 0 then 256 ^ low.length * 128 else 0 := by
  have hPos := Nat.pow_pos (n := low.length) (show 0 < 256 by decide)
  have hBounds := (fromSm_bounds hMin).1
  have hAbs := natAbs_fromSm_append low top
  have hValue := fromSm_append low top
  have hByte := top.toNat_lt
  rw [leToNat_append, hAbs, add_assoc]
  simp only [leToNat, mul_zero, add_zero]
  congr 1
  split at hValue
  · rw [if_pos (by omega), ← mul_add]
    congr 1
    omega
  · rw [if_neg (by omega), add_zero, Nat.mod_eq_of_lt (by omega)]

theorem eq_of_fromSm_eq {left right : Bytes} (hLeft : hasRedundantSignByte left = false)
  (hRight : hasRedundantSignByte right = false) (hEq : fromSm left = fromSm right) :
  left = right := by
  rcases eq_nil_or_concat' left with rfl | ⟨low, top, rfl⟩ <;>
    rcases eq_nil_or_concat' right with rfl | ⟨low', top', rfl⟩
  · rfl
  · have hBounds := (fromSm_bounds hRight).1
    exact absurd (hEq ▸ hBounds) (by simp [fromSm])
  · have hBounds := (fromSm_bounds hLeft).1
    exact absurd (hEq ▸ hBounds) (by simp [fromSm])
  · have hBounds := fromSm_bounds hLeft
    have hBounds' := fromSm_bounds hRight
    rw [← hEq] at hBounds'
    have hLower := (Nat.pow_lt_pow_iff_right (by decide)).mp (hBounds.1.trans_lt hBounds'.2)
    have hUpper := (Nat.pow_lt_pow_iff_right (by decide)).mp (hBounds'.1.trans_lt hBounds.2)
    have hLen : low.length = low'.length := by omega
    have hValue := leToNat_eq hLeft
    rw [hEq, hLen, ← leToNat_eq hRight] at hValue
    rw [← leBytes_leToNat (low ++ [top]), ← leBytes_leToNat (low' ++ [top']), hValue]
    simp [hLen]

theorem magnitudeBytes_append {magnitude : Nat} (hSome : magnitude ≠ 0) :
  ∃ low top, magnitudeBytes magnitude = low ++ [top] ∧ top.toNat ≠ 0 ∧
    leToNat (low ++ [top]) = magnitude := by
  have hValue := @BigNumber.ofArray_toArray magnitude (Int.natCast_nonneg _)
  rw [BigNumber.ofArray_eq, BigNumber.toArray, if_neg (Int.natCast_ne_zero.mpr hSome),
    reverse_reverse] at hValue
  have hLast := Nat.getLast_digit_ne_zero 256 hSome
  rcases eq_nil_or_concat' (Nat.digits 256 magnitude) with hNil | ⟨digits, digit, hDigits⟩
  · exact absurd hNil (Nat.digits_ne_nil_iff_ne_zero.mpr hSome)
  · have hDigit : digit < 256 := by
      apply Nat.digits_lt_base (m := magnitude) (by decide)
      rw [hDigits]
      exact mem_append_right _ mem_cons_self
    have hBytes : magnitudeBytes magnitude = digits.map UInt8.ofNat ++ [UInt8.ofNat digit] := by
      rw [magnitudeBytes, hDigits, map_append, map_singleton]
    refine ⟨_, _, hBytes, ?_, ?_⟩
    · simpa [hDigits, Nat.mod_eq_of_lt hDigit] using hLast
    · rw [← hBytes, leToNat_eq_ofDigits]
      exact_mod_cast hValue

theorem signed_append (low : Bytes) {top sign : UInt8} (hTop : top.toNat ≠ 0)
  (hSign : sign.toNat % 128 = 0) : hasRedundantSignByte
      (low ++ if top &&& 0x80 = 0 then [top ||| sign] else [top, sign]) = false ∧
    fromSm (low ++ if top &&& 0x80 = 0 then [top ||| sign] else [top, sign]) =
      (if 128 ≤ sign.toNat then -1 else 1) * (leToNat (low ++ [top]) : Int) := by
  have hByte := sign.toNat_lt
  have hFree := signBit_eq_zero top
  by_cases hSmall : top.toNat < 128
  · have hOr : (top ||| sign).toNat = top.toNat + sign.toNat := by
      rcases (by omega : sign.toNat = 0 ∨ sign.toNat = 128) with hZero | hSet
      · have hEq : sign = 0 := UInt8.toNat_inj.mp hZero
        simp [hEq]
      · have hEq : sign = 0x80 := UInt8.toNat_inj.mp hSet
        rw [hEq]
        exact toNat_setBit top hSmall
    have hMod : (top.toNat + sign.toNat) % 128 = top.toNat := by omega
    rw [if_pos (hFree.mpr hSmall), minimal_append, fromSm_append, hOr, hMod, leToNat_append]
    refine ⟨.inl hTop, congrArg₂ _ (if_congr (by omega) rfl rfl) ?_⟩
    simp [leToNat]
  · have hSplit : low ++ [top, sign] = low ++ [top] ++ [sign] := by simp
    rw [if_neg (mt hFree.mp hSmall), hSplit, minimal_append, fromSm_append, hSign, mul_zero,
      add_zero]
    exact ⟨.inr ⟨low, top, rfl, by omega⟩, rfl⟩

theorem toSm_spec (bn : Int) : hasRedundantSignByte (toSm bn) = false ∧ fromSm (toSm bn) = bn := by
  rcases eq_or_ne bn.natAbs 0 with hZero | hSome
  · rw [Int.natAbs_eq_zero.mp hZero]
    decide
  · rcases magnitudeBytes_append hSome with ⟨low, top, hBytes, hTop, hValue⟩
    by_cases hNegative : bn < 0
    · have hSigned := @signed_append low top 0x80 hTop rfl
      rw [hValue, if_pos (show 128 ≤ (0x80 : UInt8).toNat by decide)] at hSigned
      simp only [toSm, hNegative, decide_true, hBytes, signBytes_append, signBytes, reduceIte]
      exact ⟨hSigned.1, by rw [hSigned.2]; omega⟩
    · have hSigned := @signed_append low top 0 hTop rfl
      rw [hValue, if_neg (show ¬ 128 ≤ (0 : UInt8).toNat by decide), UInt8.or_zero] at hSigned
      simp only [toSm, hNegative, decide_false, hBytes, signBytes_append, signBytes,
        Bool.false_eq_true, reduceIte]
      exact ⟨hSigned.1, by rw [hSigned.2]; omega⟩

-- Minimal encoding

/- What `minimallyEncode` returns. -/
def minimallyEncoded (buf : Bytes) : Bytes :=
  match minimallyEncode buf with
  | .same => buf
  | .fresh _ result => result

theorem trimLoop_spec {last : UInt8} (hLast : last.toNat % 128 = 0) (low : Bytes) (byte : UInt8)
  (rest : Bytes) :
  ∃ edited result, trimLoop (low ++ byte :: rest) last low.length = .fresh edited result ∧
    result.length ≤ low.length + 1 ∧ hasRedundantSignByte result = false ∧
      fromSm result = (if 128 ≤ last.toNat then -1 else 1) * (leToNat low : Int) := by
  induction low using reverseRecOn generalizing byte rest with
  | nil => exact ⟨_, _, rfl, by simp, rfl, by simp [fromSm, leToNat]⟩
  | append_singleton low next ih =>
    have hNext : (low ++ [next] ++ byte :: rest).getD low.length 0 = next := by simp
    rw [length_append, length_singleton, trimLoop, hNext]
    dsimp only
    split
    · rename_i hZero
      rw [append_assoc, singleton_append, hZero, ← replicate_one, leToNat_zeros]
      rcases ih 0 (byte :: rest) with ⟨edited, result, hTrim, hLen, hRes⟩
      exact ⟨edited, result, hTrim, by omega, hRes⟩
    · rename_i hSome
      have hNot : next.toNat ≠ 0 := fun hZero => hSome (UInt8.toNat_inj.mp hZero)
      have hSigned := signed_append low hNot hLast
      split
      · rename_i hFree
        have hRes : ((low ++ [next] ++ byte :: rest).set low.length (next ||| last)).take
          (low.length + 1) = low ++ [next ||| last] := by simp [take_length_add_append]
        rw [if_pos hFree] at hSigned
        exact ⟨_, _, rfl, (length_take_le _ _).trans (Nat.le_succ _), hRes ▸ hSigned⟩
      · rename_i hTaken
        have hRes : ((low ++ [next] ++ byte :: rest).set (low.length + 1) last).take
          (low.length + 2) = low ++ [next, last] := by simp [take_length_add_append]
        rw [if_neg hTaken] at hSigned
        exact ⟨_, _, rfl, length_take_le _ _, hRes ▸ hSigned⟩

theorem minimallyEncode_append (low : Bytes) (last : UInt8) : minimallyEncode (low ++ [last]) =
    if hasRedundantSignByte (low ++ [last]) then trimLoop (low ++ [last]) last low.length
    else .same := by
  rcases eq_nil_or_concat' low with rfl | ⟨low, next, rfl⟩
  · simp [minimallyEncode, hasRedundantSignByte, trimLoop]
  · simp [minimallyEncode, hasRedundantSignByte]
    grind

theorem minimallyEncoded_spec (buf : Bytes) : (minimallyEncoded buf).length ≤ buf.length ∧
    hasRedundantSignByte (minimallyEncoded buf) = false ∧
      fromSm (minimallyEncoded buf) = fromSm buf := by
  rcases eq_nil_or_concat' buf with rfl | ⟨low, last, rfl⟩
  · exact ⟨le_refl _, rfl, rfl⟩
  · unfold minimallyEncoded
    rw [minimallyEncode_append]
    cases hRedundant : hasRedundantSignByte (low ++ [last]) with
    | false => exact ⟨le_refl _, hRedundant, rfl⟩
    | true =>
      have hLast : last.toNat % 128 = 0 := by
        by_contra hSome
        have hMin := (@minimal_append low last).mpr (.inl hSome)
        rw [hRedundant] at hMin
        cases hMin
      rcases trimLoop_spec hLast low last [] with
        ⟨edited, result, hTrim, hLen, hMin, hValue⟩
      rw [if_pos rfl, hTrim, fromSm_append, hLast, length_append]
      exact ⟨hLen, hMin, by rw [hValue, mul_zero, add_zero]⟩

/- The minimal byte string of the same number. -/
theorem minimallyEncoded_eq (buf : Bytes) : minimallyEncoded buf = toSm (fromSm buf) :=
  eq_of_fromSm_eq (minimallyEncoded_spec buf).2.1 (toSm_spec _).1
    ((minimallyEncoded_spec buf).2.2.trans (toSm_spec _).2.symm)

-- Padding

theorem fromSm_eq (bytes : Bytes) : fromSm bytes =
    (if bytes.getLastD 0 &&& 0x80 ≠ 0 then -1 else 1) * (leToNat (clearSign bytes) : Int) := by
  rcases eq_nil_or_concat' bytes with rfl | ⟨low, top, rfl⟩
  · rfl
  · rw [fromSm_append, clearSign_append, leToNat_append, getLastD_concat]
    simp only [leToNat, toNat_clearBit, mul_zero, add_zero]
    congr 1
    refine if_congr ?_ rfl rfl
    rw [ne_eq, signBit_eq_zero, not_lt]

namespace Spend

theorem modify_append_singleton (low : Bytes) (top : UInt8) (f : UInt8 → UInt8) :
  (low ++ [top]).modify low.length f = low ++ [f top] := by
  induction low with
  | nil => rfl
  | cons byte low ih => exact congrArg (byte :: ·) ih

theorem padNumber_eq {magnitude : Bytes} {size : Nat} (negative : Bool)
  (hLess : magnitude.length < size) : padNumber magnitude negative size = magnitude ++
    replicate (size - 1 - magnitude.length) 0 ++ [if negative then 0x80 else 0] := by
  rcases Nat.exists_eq_add_of_lt hLess with ⟨count, rfl⟩
  have hCount : magnitude.length + count + 1 - magnitude.length = count + 1 := by omega
  have hZeros : magnitude.length + count + 1 - 1 - magnitude.length = count := by omega
  unfold padNumber
  rw [hCount, hZeros, replicate_succ', ← append_assoc]
  cases negative with
  | false => rfl
  | true =>
    have hLast := modify_append_singleton (magnitude ++ replicate count 0) 0 (· ||| 0x80)
    rw [length_append, length_replicate] at hLast
    exact hLast

theorem fromSm_padNumber {rawnum : Bytes} {size : Nat} (hLess : rawnum.length < size) :
  fromSm (padNumber (clearSign rawnum) (rawnum.getLastD 0 &&& 0x80 ≠ 0) size) =
    fromSm rawnum := by
  rw [← length_clearSign rawnum] at hLess
  rw [padNumber_eq _ hLess, fromSm_append, leToNat_zeros, fromSm_eq rawnum]
  by_cases hSign : rawnum.getLastD 0 &&& 0x80 = 0
  · simp only [hSign, ne_eq, not_true_eq_false, decide_false, reduceIte, Bool.false_eq_true]
    rfl
  · simp only [hSign, ne_eq, not_false_eq_true, decide_true, reduceIte]
    rfl

-- `OP_NUM2BIN` and `OP_BIN2NUM`

open StateProgram

variable {params : SpendParams} {spend after : Spend} {item : StackItem}

theorem pushStack_ok {result : Unit} (hRun : pushStack item params spend = .ok result after) :
  after.stack = item :: spend.stack ∧ after.arrays = spend.arrays ∧
    ¬ params.memoryLimit.any (· < after.stackMem) = true := by
  rw [pushStack, insertStack_run] at hRun
  split_ifs at hRun with hExceeds
  cases hRun
  exact ⟨rfl, rfl, hExceeds⟩

theorem popNumber_ok {number : Int} (hRun : popNumber params spend = .ok number after) :
  ∃ item, spend.stack = item :: after.stack ∧ after.arrays = spend.arrays ∧
    fromScriptNum (spend.bytes item) params.shouldEnforceMinimalData params.scriptNumMaxSize =
      .ok number := by
  rcases bind_ok hRun with ⟨buf, middle, hPop, hRead⟩
  rcases bind_ok hPop with ⟨item, popped, hItem, hBytes⟩
  cases hBytes
  rcases popStack_ok hItem with ⟨hStack, hArrays⟩
  have hSame : middle.bytes item = spend.bytes item := by
    unfold bytes
    rw [hArrays]
  rw [hSame] at hRead
  unfold readScriptNumber at hRead
  rw [bind_run, read_run] at hRead
  dsimp only at hRead
  rcases hNum : fromScriptNum (spend.bytes item) params.shouldEnforceMinimalData
    params.scriptNumMaxSize with error | bn <;> rw [hNum] at hRead <;> cases hRead
  exact ⟨item, hStack, hArrays, hNum⟩

theorem minimallyEncodeItem_run (params : SpendParams) (spend : Spend) (item : StackItem) :
  ∃ minimal after, minimallyEncodeItem item params spend = .ok minimal after ∧
    after.bytes minimal = minimallyEncoded (spend.bytes item) ∧ after.stack = spend.stack ∧
      after.stackMem = spend.stackMem := by
  unfold minimallyEncodeItem minimallyEncoded
  rw [bind_run, get_run]
  dsimp only
  cases minimallyEncode (spend.bytes item) with
  | same => exact ⟨item, spend, rfl, rfl, rfl, rfl⟩
  | fresh edited result =>
    refine ⟨.own result, editArray item edited spend, rfl, rfl, ?_, ?_⟩
    · cases item <;> rfl
    · cases item <;> rfl

theorem errorIf_run {condition : Prop} [Decidable condition] {message : String}
  (hNot : ¬ condition) : errorIf condition message params spend = .ok () spend := by
  unfold errorIf throwIf
  rw [if_neg hNot]
  rfl

theorem opBin2num_run {rest : List StackItem} (hStack : spend.stack = item :: rest)
  (hLimit : ¬ params.memoryLimit.any (· < spend.stackMem) = true) :
  ∃ minimal after, opBin2num params spend = .ok () after ∧ after.stack = minimal :: rest ∧
    after.bytes minimal = minimallyEncoded (spend.bytes item) := by
  let popped : Spend :=
    { spend with
      stack := spend.stack.eraseIdx 0, stackMem := spend.stackMem - spend.itemLength item }
  rcases minimallyEncodeItem_run params popped item with
    ⟨minimal, middle, hEncode, hBytes, hSame, hMem⟩
  rcases minimallyEncoded_spec (spend.bytes item) with ⟨hLen, hMin, -⟩
  have hPop : popStack params spend = .ok item popped := removeStack_run_some _ (by simp [hStack])
  have hRequire : ¬ spend.stack.length < 1 := by simp [hStack]
  have hValid : ¬ isMinimallyEncodedHelper (middle.bytes minimal) = false := by
    have hSame : hasRedundantSignByte (minimallyEncoded (popped.bytes item)) = false := hMin
    simp [isMinimallyEncodedHelper, hBytes, hSame]
  have hFits : ¬ params.memoryLimit.any (· < middle.stackMem + middle.itemLength minimal) = true := by
    cases hSome : params.memoryLimit with
    | none => simp
    | some limit =>
      rw [hSome] at hLimit
      have hShort : middle.itemLength minimal ≤ spend.itemLength item := by
        unfold itemLength
        rw [hBytes]
        exact hLen
      simp only [Option.any_some, decide_eq_true_eq, hMem] at hLimit ⊢
      dsimp only [popped]
      omega
  have hRun : opBin2num params spend = pushStack minimal params middle := by
    simp only [opBin2num, requireStackItems, bind_run, get_run, errorIf_run hRequire, hPop, hEncode,
      errorIf_run hValid]
  rw [pushStack, insertStack_run, if_neg hFits] at hRun
  refine ⟨minimal, _, hRun, ?_, hBytes⟩
  simp [hSame, popped, hStack]

theorem popBinSize_ok {k : Nat} (hRun : popBinSize params spend = .ok k after) :
  ∃ size, spend.stack = size :: after.stack ∧ after.arrays = spend.arrays ∧
    fromScriptNum (spend.bytes size) params.shouldEnforceMinimalData params.scriptNumMaxSize =
      .ok (k : Int) := by
  rcases bind_read_ok (Q := fun _ => True) keeps_read hRun with ⟨_, -, -, hRun⟩
  rcases bind_ok hRun with ⟨number, popped, hNum, hRun⟩
  rcases popNumber_ok hNum with ⟨size, hStack, hArrays, hSize⟩
  rcases bind_read_ok (keeps_errorIf _ _) hRun with ⟨_, -, hBounds, hRun⟩
  rcases bind_read_ok (keeps_errorIf _ _) hRun with ⟨_, -, -, hRun⟩
  rcases bind_read_ok (keeps_throwIf _ _) hRun with ⟨_, -, -, hReturn⟩
  cases hReturn
  rw [Int.toNat_of_nonneg (by omega)]
  exact ⟨size, hStack, hArrays, hSize⟩

theorem opNum2bin_ok {result : Unit} (hRun : opNum2bin params spend = .ok result after) :
  ∃ size item padded rest, ∃ k : Nat, spend.stack = size :: item :: rest ∧
    fromScriptNum (spend.bytes size) params.shouldEnforceMinimalData params.scriptNumMaxSize =
      .ok (k : Int) ∧ after.stack = padded :: rest ∧ (after.bytes padded).length = k ∧
      fromSm (after.bytes padded) = fromSm (spend.bytes item) ∧
        ¬ params.memoryLimit.any (· < after.stackMem) = true := by
  rcases bind_read_ok (Q := fun _ => True)
    (keeps_get.bind fun _ _ => (keeps_errorIf _ _).any) hRun with ⟨_, -, -, hRun⟩
  rcases bind_ok hRun with ⟨k, sized, hSize, hRun⟩
  rcases popBinSize_ok hSize with ⟨size, hStack, hArrays, hNum⟩
  rcases bind_ok hRun with ⟨item, popped, hPop, hRun⟩
  rcases popStack_ok hPop with ⟨hItem, hKept⟩
  rcases bind_ok hRun with ⟨rawnum, encoded, hEncode, hRun⟩
  rcases minimallyEncodeItem_run params popped item with ⟨_, _, hMin, hBytes, hSame, -⟩
  cases hEncode.symm.trans hMin
  have hRaw : encoded.bytes rawnum = minimallyEncoded (spend.bytes item) := by
    rw [hBytes]
    unfold bytes
    rw [hKept, hArrays]
  have hValue : fromSm (encoded.bytes rawnum) = fromSm (spend.bytes item) := by
    rw [hRaw, (minimallyEncoded_spec _).2.2]
  rw [bind_run, get_run] at hRun
  dsimp only at hRun
  rcases bind_read_ok (keeps_errorIf _ _) hRun with ⟨_, -, hFits, hRun⟩
  refine ⟨size, item, ?_⟩
  split at hRun
  · rename_i hLen
    rcases pushStack_ok hRun with ⟨hPushed, hStays, hLimit⟩
    have hTop : after.bytes rawnum = encoded.bytes rawnum := by
      unfold bytes
      rw [hStays]
    refine ⟨rawnum, popped.stack, k, by rw [hStack, hItem], hNum, by rw [hPushed, hSame], ?_, ?_,
      hLimit⟩
    · rw [hTop]
      exact hLen
    · rw [hTop, hValue]
  · rename_i hLen
    rcases bind_ok hRun with ⟨magnitude, cleared, hClear, hPush⟩
    cases hClear
    rcases pushStack_ok hPush with ⟨hPushed, -, hLimit⟩
    have hLess : (encoded.bytes rawnum).length < k := by
      unfold itemLength at hFits hLen
      omega
    have hEdited : (editArray rawnum (clearSign (encoded.bytes rawnum)) encoded).stack =
        encoded.stack := by
      cases rawnum <;> rfl
    refine ⟨_, popped.stack, k, by rw [hStack, hItem], hNum, by rw [hPushed, hEdited, hSame], ?_,
      ?_, hLimit⟩
    · change (padNumber _ _ k).length = k
      rw [padNumber_eq _ (by rwa [length_clearSign])]
      simp [length_clearSign]
      omega
    · exact (fromSm_padNumber hLess).trans hValue

end Spend

/-
  `toScriptNum` and `fromScriptNum` invert each other on the minimal byte strings, and
  `minimallyEncode` and the padding opcodes keep the number.
-/
theorem scriptNum_codec :
  (∀ n : Int, fromScriptNum (toScriptNum n) true none = .ok n) ∧
    (∀ b : Bytes, (isMinimallyEncodedHelper b ↔ ∃ n, fromScriptNum b true none = .ok n) ∧
      (isMinimallyEncodedHelper b ↔
        ∃ n, fromScriptNum b false none = .ok n ∧ toScriptNum n = b)) ∧
    (∀ b : Bytes, ∃ n, fromScriptNum b false none = .ok n ∧
      minimallyEncoded b = toScriptNum n) ∧
    ∀ (params : SpendParams) (spend after : Spend), Spend.opNum2bin params spend = .ok () after →
      ∃ size item result rest, ∃ k : Nat, spend.stack = size :: item :: rest ∧
        fromScriptNum (spend.bytes size) params.shouldEnforceMinimalData
          params.scriptNumMaxSize = .ok (k : Int) ∧
        after.stack = result :: rest ∧ (after.bytes result).length = k ∧
        ∃ minimal final, Spend.opBin2num params after = .ok () final ∧
          final.stack = minimal :: rest ∧
            final.bytes minimal = minimallyEncoded (spend.bytes item) := by
  have hDecode : ∀ b, fromScriptNum b false none = .ok (fromSm b) := by
    intro b
    cases b <;> rfl
  have hStrict : ∀ b, fromScriptNum b true none = if hasRedundantSignByte b then
      .error (.error "non-minimally encoded script number") else .ok (fromSm b) := by
    intro b
    cases b <;> rfl
  refine ⟨fun n => ?_, fun b => ⟨?_, ?_⟩, fun b => ⟨_, hDecode b, minimallyEncoded_eq b⟩, ?_⟩
  · rw [hStrict, toScriptNum, (toSm_spec n).1, (toSm_spec n).2]
    rfl
  · rw [hStrict]
    cases hRedundant : hasRedundantSignByte b <;> simp [isMinimallyEncodedHelper, hRedundant]
  · rw [hDecode]
    constructor
    · intro hMinimal
      have hNot : hasRedundantSignByte b = false := Bool.not_eq_true' _ ▸ hMinimal
      exact ⟨_, rfl, eq_of_fromSm_eq (toSm_spec _).1 hNot (toSm_spec _).2⟩
    · rintro ⟨n, -, hBytes⟩
      rw [isMinimallyEncodedHelper, ← hBytes, toScriptNum, (toSm_spec n).1]
      rfl
  · intro params spend after hRun
    rcases Spend.opNum2bin_ok hRun with
      ⟨size, item, result, rest, k, hStack, hSize, hPadded, hLength, hValue, hLimit⟩
    rcases Spend.opBin2num_run hPadded hLimit with ⟨minimal, final, hFinal, hTop, hBytes⟩
    refine ⟨size, item, result, rest, k, hStack, hSize, hPadded, hLength, minimal, final, hFinal,
      hTop, ?_⟩
    rw [hBytes, minimallyEncoded_eq, hValue, minimallyEncoded_eq]

end TsStack
