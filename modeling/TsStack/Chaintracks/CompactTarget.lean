import TsStack.Chaintracks.BlockHeader

/-
  The compact target of a header against the consensus rule,
  and the work of the headers that are accepted.
-/

-- Texts of work

open List

namespace TsStack.Chaintracks

/- The work of a target as it is stored: hexadecimal text, filled up on the left. -/
def workText (work : Nat) : JsString :=
  let text := Nat.toDigits 16 work
  List.replicate (64 - text.length) '0' ++ text

/- `convertBitsToWork`, with the text that it returns. -/
def convertBitsToWorkText (bits : Nat) (chain : Chain) : Except ChaintracksError JsString := do
  return workText (← convertBitsToWork bits chain)

def hexNumber (text : JsString) : Nat :=
  text.foldl (fun value c => 16 * value + (hexCharToValue c).getD 0) 0

-- The consensus rule

/- The mantissa times a power of 256, rounded down. -/
def consensusTarget (bits : Nat) : Nat :=
  bits % 2 ^ 23 * 256 ^ (bits / 2 ^ 24) / 256 ^ 3

def ConsensusAccepts (bits : Nat) (chain : Chain) : Prop :=
  bits / 2 ^ 23 % 2 = 0 ∧ 0 < consensusTarget bits ∧ consensusTarget bits < 2 ^ 256 ∧
    consensusTarget bits ≤ consensusTarget (proofOfWorkLimitBits chain)

structure MeetsConsensus (bits : Nat) (chain : Chain) : Prop where
  accepts : (∃ target, validateCompactTarget bits chain = .ok target) ↔ ConsensusAccepts bits chain
  target : ∀ target, validateCompactTarget bits chain = .ok target →
    target = consensusTarget bits ∧ convertBitsToTarget bits = consensusTarget bits
  work : ∀ text, convertBitsToWorkText bits chain = .ok text →
    text.length = 64 ∧ isHex32Bytes text = true ∧
      hexNumber text = 2 ^ 256 / (consensusTarget bits + 1)

/- A positive mantissa of which the right shift leaves nothing. -/
def ShiftedOut (bits : Nat) : Prop :=
  bits % 2 ^ 23 ≠ 0 ∧ bits / 2 ^ 23 % 2 = 0 ∧ bits % 2 ^ 23 < 256 ^ (3 - bits / 2 ^ 24)

/- The work of a chain of headers, added up in the order of the list. -/
def addWorks (chain : Chain) (headers : List UInt32) : Except ChaintracksError Nat :=
  headers.foldlM (fun sum bits => do addWork sum (← convertBitsToWork bits.toNat chain)) 0

variable {bits target work : Nat} {chain : Chain}

theorem hexNumber_append (text : JsString) (c : Char) :
  hexNumber (text ++ [c]) = 16 * hexNumber text + (hexCharToValue c).getD 0 := by
  unfold hexNumber
  rw [foldl_append]
  rfl

theorem toDigits_spec (work : Nat) : hexNumber (Nat.toDigits 16 work) = work ∧
  ∀ c ∈ Nat.toDigits 16 work, (hexCharToValue c).isSome = true := by
  induction work using Nat.strongRecOn with
  | ind work ih =>
    rw [Nat.toDigits_eq_if (by decide)]
    split_ifs with hSmall
    · have hDigit := hexCharToValue_digitChar hSmall
      simp [hexNumber, hDigit]
    · rcases ih (work / 16) (by omega) with ⟨hNum, hDigits⟩
      have hDigit := hexCharToValue_digitChar (Nat.mod_lt work (by decide : 0 < 16))
      refine ⟨?_, fun c hMem => ?_⟩
      · rw [hexNumber_append, hNum, hDigit, Option.getD_some, Nat.div_add_mod]
      · rcases mem_concat_iff.mp hMem with hFst | hLast
        · exact hDigits c hFst
        · rw [hLast, hDigit]
          rfl

theorem workText_spec (hWork : work < 2 ^ 256) :
  (workText work).length = 64 ∧ isHex32Bytes (workText work) = true ∧
    hexNumber (workText work) = work := by
  rcases toDigits_spec work with ⟨hNum, hDigits⟩
  have hShort : (Nat.toDigits 16 work).length ≤ 64 :=
    (Nat.length_toDigits_le_iff (by decide) (by decide)).mpr hWork
  have hLen : (workText work).length = 64 := by
    unfold workText
    rw [length_append, length_replicate]
    omega
  have hZeros : ∀ n, (replicate n '0').foldl
      (fun value c => 16 * value + (hexCharToValue c).getD 0) 0 = 0 := by
    intro n
    induction n with
    | zero => rfl
    | succ n ih =>
      rw [replicate_succ, foldl_cons]
      exact ih
  refine ⟨hLen, ?_, ?_⟩
  · unfold isHex32Bytes
    rw [decide_eq_true_eq, List.all_eq_true]
    refine ⟨hLen, fun c hMem => ?_⟩
    rcases mem_append.mp hMem with hZero | hDigit
    · rw [(mem_replicate.mp hZero).2]
      rfl
    · exact hDigits c hDigit
  · unfold hexNumber at hNum ⊢
    rw [workText, foldl_append, hZeros, hNum]

theorem targetWork_eq (hTgt : target < 2 ^ 256) : targetWork target = 2 ^ 256 / (target + 1) := by
  unfold targetWork
  rw [← Nat.add_div_right _ (Nat.succ_pos target)]
  congr 1
  omega

theorem convertBitsToTarget_eq (hBits : bits < 2 ^ 32) :
  convertBitsToTarget bits = consensusTarget bits := by
  have hSize : bits / 2 ^ 24 % 256 = bits / 2 ^ 24 := by omega
  unfold convertBitsToTarget consensusTarget
  dsimp only
  rw [hSize]
  split_ifs with hSmall
  · have hPow : 256 ^ 3 = 256 ^ (bits / 2 ^ 24) * 256 ^ (3 - bits / 2 ^ 24) := by
      rw [← Nat.pow_add]
      congr 1
      omega
    rw [hPow, Nat.mul_comm (bits % 2 ^ 23), Nat.mul_div_mul_left _ _ (Nat.pow_pos (by decide)),
      Nat.pow_mul]
  · have hPow : 256 ^ (bits / 2 ^ 24) = 256 ^ (bits / 2 ^ 24 - 3) * 256 ^ 3 := by
      rw [← Nat.pow_add]
      congr 1
      omega
    rw [hPow, ← Nat.mul_assoc, Nat.mul_div_cancel _ (by decide), Nat.pow_mul]

theorem consensusTarget_limit (chain : Chain) :
  consensusTarget (proofOfWorkLimitBits chain) < 2 ^ 255 := by
  unfold proofOfWorkLimitBits
  split_ifs <;> decide

/- A target of too many digits is above every limit. -/
theorem limit_lt_of_overflow (hBits : bits < 2 ^ 32)
  (hOverflow : bits / 2 ^ 24 > 34 ∨ bits % 2 ^ 23 > 0xff ∧ bits / 2 ^ 24 > 33 ∨
    bits % 2 ^ 23 > 0xffff ∧ bits / 2 ^ 24 > 32) (hWord : bits % 2 ^ 23 ≠ 0) :
  2 ^ 255 < consensusTarget bits := by
  rw [← convertBitsToTarget_eq hBits]
  have hSize : bits / 2 ^ 24 % 256 = bits / 2 ^ 24 := by omega
  unfold convertBitsToTarget
  dsimp only
  rw [hSize, if_neg (by omega)]
  have hPow : ∀ size word, size ≤ bits / 2 ^ 24 → word ≤ bits % 2 ^ 23 →
      word * 2 ^ (8 * (size - 3)) ≤ bits % 2 ^ 23 * 2 ^ (8 * (bits / 2 ^ 24 - 3)) := by
    intro size word hLe hWordLe
    exact Nat.mul_le_mul hWordLe (Nat.pow_le_pow_right (by decide) (by omega))
  rcases hOverflow with hLarge | ⟨hByte, hLarge⟩ | ⟨hTwo, hLarge⟩
  · exact Nat.lt_of_lt_of_le (by decide) (hPow 35 1 (by omega) (by omega))
  · exact Nat.lt_of_lt_of_le (by decide) (hPow 34 0x100 (by omega) (by omega))
  · exact Nat.lt_of_lt_of_le (by decide) (hPow 33 0x10000 (by omega) (by omega))

theorem validateCompactTarget_iff (hBits : bits < 2 ^ 32) :
  validateCompactTarget bits chain = .ok target ↔ target = consensusTarget bits ∧
    bits % 2 ^ 23 ≠ 0 ∧ bits / 2 ^ 23 % 2 = 0 ∧
      consensusTarget bits ≤ consensusTarget (proofOfWorkLimitBits chain) := by
  have hLimit : proofOfWorkLimitBits chain < 2 ^ 32 := by
    unfold proofOfWorkLimitBits
    split_ifs <;> decide
  have hSmall := consensusTarget_limit chain
  have hHigh := @limit_lt_of_overflow bits hBits
  unfold validateCompactTarget
  dsimp only
  rw [convertBitsToTarget_eq hBits, convertBitsToTarget_eq hLimit]
  split_ifs with hLarge hRefused hAbove
  · omega
  · simp only [false_iff]
    rintro ⟨-, hWord, hSign, hLe⟩
    rcases hRefused with hZero | ⟨-, hNegative⟩ | ⟨-, hOverflow⟩
    · exact hWord hZero
    · omega
    · have hMore := hHigh hOverflow hWord
      omega
  · simp only [false_iff]
    rintro ⟨-, -, -, hLe⟩
    exact absurd hLe (Nat.not_le.mpr hAbove)
  · rw [Except.ok.injEq]
    refine ⟨fun hSame => ⟨hSame.symm, ?_⟩, fun hSame => hSame.1.symm⟩
    omega

theorem consensusTarget_pos_iff (hBits : bits < 2 ^ 32) :
  0 < consensusTarget bits ↔ 256 ^ (3 - bits / 2 ^ 24) ≤ bits % 2 ^ 23 := by
  rw [← convertBitsToTarget_eq hBits]
  have hSize : bits / 2 ^ 24 % 256 = bits / 2 ^ 24 := by omega
  unfold convertBitsToTarget
  dsimp only
  rw [hSize]
  split_ifs with hSmall
  · rw [Nat.div_pos_iff, Nat.pow_mul]
    exact and_iff_right (Nat.pow_pos (by decide))
  · rw [show 3 - bits / 2 ^ 24 = 0 by omega, Nat.pow_zero]
    exact Nat.mul_pos_iff_of_pos_right (Nat.pow_pos (by decide))

theorem addWorks_eq_ok (headers : List UInt32)
  (hAcc : ∀ bits ∈ headers, ∃ target, validateCompactTarget bits.toNat chain = .ok target) (hSum :
    work + (headers.map fun bits => 2 ^ 256 / (consensusTarget bits.toNat + 1)).sum < 2 ^ 256) :
  headers.foldlM (fun sum bits => do addWork sum (← convertBitsToWork bits.toNat chain)) work =
    .ok (work + (headers.map fun bits => 2 ^ 256 / (consensusTarget bits.toNat + 1)).sum) := by
  induction headers generalizing work with
  | nil => rfl
  | cons bits headers ih =>
    rw [map_cons, sum_cons] at hSum ⊢
    rcases hAcc bits mem_cons_self with ⟨target, hTgt⟩
    rcases (validateCompactTarget_iff bits.toNat_lt).mp hTgt with ⟨rfl, -, -, hLimit⟩
    have hSmall := consensusTarget_limit chain
    have hWork : convertBitsToWork bits.toNat chain =
        .ok (2 ^ 256 / (consensusTarget bits.toNat + 1)) := by
      rw [convertBitsToWork, hTgt, ok_bind, targetWork_eq (by omega)]
      rfl
    have hAdd : addWork work (2 ^ 256 / (consensusTarget bits.toNat + 1)) =
        .ok (work + 2 ^ 256 / (consensusTarget bits.toNat + 1)) :=
      addWork_eq_ok_iff.mpr ⟨by omega, rfl⟩
    rw [foldlM_cons, hWork, ok_bind, hAdd, ok_bind, ih, Nat.add_assoc]
    · exact fun other hMem => hAcc other (mem_cons_of_mem _ hMem)
    · omega

/-
  The compact target and its work are those of consensus but where a positive mantissa is
  shifted out; the work of accepted headers adds up exactly, and `subWork` undoes `addWork`.
-/
theorem compactWork_iff (chain : Chain) :
  (∀ bits : UInt32, MeetsConsensus bits.toNat chain ↔ ¬ShiftedOut bits.toNat) ∧
  (∀ headers : List UInt32,
    (∀ bits ∈ headers, ∃ target, validateCompactTarget bits.toNat chain = .ok target) →
    (headers.map fun bits => 2 ^ 256 / (consensusTarget bits.toNat + 1)).sum < 2 ^ 256 →
      addWorks chain headers =
        .ok (headers.map fun bits => 2 ^ 256 / (consensusTarget bits.toNat + 1)).sum) ∧
  ∀ work1 work2 sum, addWork work1 work2 = .ok sum → subWork sum work2 = .ok work1 := by
  have hSmall := consensusTarget_limit chain
  refine ⟨fun word => ?_, fun headers hAcc hSum => ?_, fun work1 work2 sum hSum => ?_⟩
  · have hBits := word.toNat_lt
    generalize word.toNat = bits at hBits ⊢
    have hPos := consensusTarget_pos_iff hBits
    constructor
    · rintro hMeets ⟨hWord, hSign, hLess⟩
      have hZero : consensusTarget bits = 0 := by omega
      rcases hMeets.accepts.mp ⟨_, (validateCompactTarget_iff hBits).mpr
        ⟨rfl, hWord, hSign, by omega⟩⟩ with ⟨-, hTgt, -⟩
      omega
    · intro hKept
      have hLeft : bits % 2 ^ 23 ≠ 0 → bits / 2 ^ 23 % 2 = 0 → 0 < consensusTarget bits :=
        fun hWord hSign => hPos.mpr (Nat.not_lt.mp fun hLess => hKept ⟨hWord, hSign, hLess⟩)
      refine ⟨⟨?_, ?_⟩, ?_, ?_⟩
      · rintro ⟨target, hTgt⟩
        rcases (validateCompactTarget_iff hBits).mp hTgt with ⟨-, hWord, hSign, hLimit⟩
        exact ⟨hSign, hLeft hWord hSign, by omega, hLimit⟩
      · rintro ⟨hSign, hTgt, -, hLimit⟩
        refine ⟨_, (validateCompactTarget_iff hBits).mpr ⟨rfl, fun hZero => ?_, hSign, hLimit⟩⟩
        rw [consensusTarget, hZero, Nat.zero_mul] at hTgt
        exact absurd hTgt (by decide)
      · intro target hTgt
        exact ⟨((validateCompactTarget_iff hBits).mp hTgt).1, convertBitsToTarget_eq hBits⟩
      · intro text hText
        rcases bind_eq_ok_iff.mp hText with ⟨work, hWork, hReturn⟩
        rcases bind_eq_ok_iff.mp hWork with ⟨target, hTgt, hDone⟩
        cases hReturn
        cases hDone
        rcases (validateCompactTarget_iff hBits).mp hTgt with ⟨rfl, hWord, hSign, hLimit⟩
        rw [targetWork_eq (by omega)]
        apply workText_spec
        exact Nat.div_lt_self (by decide) (by have := hLeft hWord hSign; omega)
  · have hAll := @addWorks_eq_ok 0 chain headers hAcc (by rwa [Nat.zero_add])
    rw [Nat.zero_add] at hAll
    exact hAll
  · rcases addWork_eq_ok_iff.mp hSum with ⟨hLt, rfl⟩
    simp only [subWork, validateWork, workBNtoBuffer, if_pos hLt, ok_bind,
      if_pos (show work2 < 2 ^ 256 by omega), if_neg (show ¬work1 + work2 < work2 by omega),
      Nat.add_sub_cancel, if_pos (show work1 < 2 ^ 256 by omega)]

/- The target of these bits is zero, and the text of its work has a digit too many. -/
theorem shiftedOut_accepted :
  validateCompactTarget 0x01000001 .main = .ok 0 ∧ consensusTarget 0x01000001 = 0 ∧
    (convertBitsToWorkText 0x01000001 .main).map List.length = .ok 65 := by
  decide +kernel

end TsStack.Chaintracks
