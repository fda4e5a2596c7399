import TsStack.Primitives.BigNumber

/-
  The Base58 text of bytes, `toBase58` and `fromBase58` of
  `primitives/utils.ts`.

  Both are arithmetic on digits in place: the digits of one
  base are multiplied by the other base, and a digit is
  added.  The ratio of the logarithms is written as the
  decimal that the quotient of the two doubles prints.
-/

-- Digits

open List

namespace TsStack

open BigNumber

def base58chars : JsString :=
  ['1', '2', '3', '4', '5', '6', '7', '8', '9',
    'A', 'B', 'C', 'D', 'E', 'F', 'G', 'H', 'J', 'K', 'L',
    'M', 'N', 'P', 'Q', 'R', 'S', 'T', 'U', 'V', 'W', 'X', 'Y', 'Z',
    'a', 'b', 'c', 'd', 'e', 'f', 'g', 'h', 'i', 'j', 'k',
    'm', 'n', 'o', 'p', 'q', 'r', 's', 't', 'u', 'v', 'w', 'x', 'y', 'z']

def base58Char (digit : Nat) : Char :=
  base58chars.getD digit '1'

def base58Index (char : Char) : Nat :=
  base58chars.idxOf char

/- One byte of `toBase58`, on digits with the least significant one first. -/
def addByteToDigits : List Nat → Nat → List Nat
| [], carry => Nat.digits 58 carry
| digit :: digits, carry =>
  let x := digit * 256 + carry
  x % 58 :: addByteToDigits digits (x / 58)

def base58Digits (bin : Bytes) : List Nat :=
  bin.foldl (fun digits byte => addByteToDigits digits byte.toNat) []

/- `toBase58`: a leading zero byte is a leading digit. -/
def toBase58 (bin : Bytes) : JsString :=
  ((base58Digits bin).map base58Char ++ (bin.takeWhile (· == 0)).map fun _ => '1').reverse

/-
  One digit of `fromBase58`, on bytes with the least
  significant one first.  What does not fit is dropped.
-/
def addDigitToBytes : Bytes → Nat → Bytes
| [], _ => []
| byte :: bytes, carry =>
  let x := byte.toNat * 58 + carry
  UInt8.ofNat x :: addDigitToBytes bytes (x / 256)

/- The number of bytes that `fromBase58` makes room for. -/
def base58Size (length : Nat) : Nat :=
  length * 7322476243909465 / 10000000000000000 + 1

def fromBase58 (str : JsString) : Except JsError Bytes :=
  if str = [] then
    .error (.error (String.ofList ("Expected base58 string but got “".toList ++ str ++ "”".toList)))
  else if str.any (!base58chars.contains ·) then
    .error (.error (String.ofList ("Invalid base58 character “".toList ++
          str.filter (!base58chars.contains ·) ++ "”".toList)))
  else
    let psz := (str.takeWhile (· == '1')).length
    let bytes := (str.map base58Index).foldl addDigitToBytes
      (List.replicate (base58Size (str.length - psz)) 0)
    .ok (List.replicate psz 0 ++ bytes.reverse.dropWhile (· == 0))

theorem base58Index_base58Char {digit : Nat} (hDigit : digit < 58) :
  base58Index (base58Char digit) = digit := by
  have hAll : ∀ digit < 58, base58Index (base58Char digit) = digit := by decide
  exact hAll digit hDigit

theorem base58Char_mem {digit : Nat} (hDigit : digit < 58) : base58Char digit ∈ base58chars := by
  have hAll : ∀ digit < 58, base58Char digit ∈ base58chars := by decide
  exact hAll digit hDigit

theorem base58Index_lt {char : Char} (hChar : char ∈ base58chars) : base58Index char < 58 :=
  idxOf_lt_length_of_mem hChar

-- The Digits of Bytes

variable {digits : List Nat}

theorem addByteToDigits_lt {carry : Nat} : ∀ digit ∈ addByteToDigits digits carry, digit < 58 := by
  induction digits generalizing carry with
  | nil =>
    intro digit hDigit
    exact Nat.digits_lt_base (by decide) hDigit
  | cons head digits ih =>
    intro digit hDigit
    unfold addByteToDigits at hDigit
    rcases mem_cons.mp hDigit with hHead | hTail
    · rw [hHead]
      exact Nat.mod_lt _ (by decide)
    · exact ih digit hTail

theorem ofDigits_addByteToDigits (digits : List Nat) (carry : Nat) :
  Nat.ofDigits 58 (addByteToDigits digits carry) = 256 * Nat.ofDigits 58 digits + carry := by
  induction digits generalizing carry with
  | nil =>
    unfold addByteToDigits
    rw [Nat.ofDigits_digits]
    simp
  | cons digit digits ih =>
    unfold addByteToDigits
    dsimp only
    rw [Nat.ofDigits_cons, Nat.ofDigits_cons, ih]
    have hDivision := Nat.mod_add_div (digit * 256 + carry) 58
    linarith

theorem length_addByteToDigits_le
  {carry : Nat} (hDigits : ∀ digit ∈ digits, digit < 58) (hCarry : carry < 256) :
  digits.length ≤ (addByteToDigits digits carry).length ∧
    (addByteToDigits digits carry).length ≤ digits.length + 2 := by
  induction digits generalizing carry with
  | nil =>
    unfold addByteToDigits
    constructor
    · exact Nat.zero_le _
    · apply (Nat.digits_length_le_iff (by decide) _).mpr
      exact Nat.lt_trans hCarry (by decide)
  | cons digit digits ih =>
    unfold addByteToDigits
    dsimp only
    have hDigit := hDigits digit mem_cons_self
    have hTail :=
      @ih ((digit * 256 + carry) / 58) (fun other hOther =>
          hDigits other (mem_cons_of_mem digit hOther))
        (by omega)
    rw [length_cons, length_cons]
    omega

theorem base58Digits_append (bin : Bytes) (byte : UInt8) :
  base58Digits (bin ++ [byte]) = addByteToDigits (base58Digits bin) byte.toNat := by
  unfold base58Digits
  rw [foldl_append]
  rfl

theorem base58Digits_lt (bin : Bytes) : ∀ digit ∈ base58Digits bin, digit < 58 := by
  induction bin using reverseRecOn with
  | nil => simp [base58Digits]
  | append_singleton bin byte ih =>
    rw [base58Digits_append]
    exact addByteToDigits_lt

theorem ofDigits_base58Digits (bin : Bytes) :
  ((Nat.ofDigits 58 (base58Digits bin) : Nat) : Int) = ofArray bin := by
  induction bin using reverseRecOn with
  | nil => rfl
  | append_singleton bin byte ih =>
    rw [base58Digits_append, ofDigits_addByteToDigits, Nat.cast_add, Nat.cast_mul, ih]
    unfold ofArray
    rw [foldl_append]
    simp only [foldl_cons, foldl_nil, shiftIn]
    push_cast
    ring

-- The Text of Bytes

variable {bin : Bytes}

theorem toBase58_mem {char : Char} (hChar : char ∈ toBase58 bin) : char ∈ base58chars := by
  unfold toBase58 at hChar
  rw [mem_reverse, mem_append] at hChar
  rcases hChar with hDigit | hZero
  · rcases List.mem_map.mp hDigit with ⟨digit, hMem, hEq⟩
    rw [← hEq]
    exact base58Char_mem (base58Digits_lt bin digit hMem)
  · rcases List.mem_map.mp hZero with ⟨_, _, hEq⟩
    rw [← hEq]
    decide

theorem base58Digits_zeros {zeros : Bytes} (hZeros : ∀ byte ∈ zeros, byte = 0) :
  base58Digits (zeros ++ bin) = base58Digits bin := by
  induction zeros with
  | nil => rfl
  | cons byte zeros ih =>
    have hByte := hZeros byte mem_cons_self
    subst hByte
    exact ih fun other hOther => hZeros other (mem_cons_of_mem 0 hOther)

theorem length_base58Digits_le (bin : Bytes) : (base58Digits bin).length ≤ 2 * bin.length := by
  induction bin using reverseRecOn with
  | nil => exact Nat.le_refl _
  | append_singleton bin byte ih =>
    rw [base58Digits_append, length_append, length_singleton]
    have hStep := length_addByteToDigits_le (base58Digits_lt bin) byte.toNat_lt
    omega

theorem takeWhile_zero_eq (bin : Bytes) : ∀ byte ∈ bin.takeWhile (· == 0), byte = 0 := by
  have hAll := all_takeWhile
    (p := (· == (0 : UInt8))) (l := bin)
  intro byte hByte
  exact beq_iff_eq.mp (List.all_eq_true.mp hAll byte hByte)

/- Two characters for a byte are enough. -/
theorem length_toBase58_le (bin : Bytes) : (toBase58 bin).length ≤ 2 * bin.length := by
  have hSplit := takeWhile_append_dropWhile
    (p := (· == (0 : UInt8))) (l := bin)
  have hDigits : base58Digits bin = base58Digits (bin.dropWhile (· == 0)) := by
    conv_lhs => rw [← hSplit]
    exact base58Digits_zeros (takeWhile_zero_eq bin)
  have hLen := congrArg List.length hSplit
  rw [length_append] at hLen
  have hRest := length_base58Digits_le (bin.dropWhile (· == 0))
  unfold toBase58
  rw [length_reverse, length_append, length_map, length_map, hDigits]
  omega

theorem foldl_addByteToDigits_ne_nil
  (hNonempty : digits ≠ []) (hDigits : ∀ digit ∈ digits, digit < 58) :
  bin.foldl (fun digits byte => addByteToDigits digits byte.toNat) digits ≠ [] := by
  induction bin generalizing digits with
  | nil => exact hNonempty
  | cons byte bin ih =>
    apply ih
    · intro hNil
      change addByteToDigits digits byte.toNat = [] at hNil
      have hStep := length_addByteToDigits_le hDigits byte.toNat_lt
      rw [hNil, length_nil] at hStep
      apply hNonempty
      exact length_eq_zero_iff.mp (Nat.le_zero.mp hStep.1)
    · exact addByteToDigits_lt

theorem toBase58_ne_nil (hBin : bin ≠ []) : toBase58 bin ≠ [] := by
  cases bin with
  | nil => exact absurd rfl hBin
  | cons byte bin =>
    unfold toBase58
    by_cases hZero : byte = 0
    · subst hZero
      simp
    · have hDigits : base58Digits (byte :: bin) ≠ [] := by
        change bin.foldl (fun digits byte =>
          addByteToDigits digits byte.toNat) (Nat.digits 58 byte.toNat) ≠ []
        apply foldl_addByteToDigits_ne_nil
        · rw [Ne, Nat.digits_eq_nil_iff_eq_zero]
          intro hNone
          apply hZero
          exact UInt8.toNat_inj.mp hNone
        · intro digit hDigit
          exact Nat.digits_lt_base (by decide) hDigit
      simp [hDigits]

-- The Bytes of Text

/- The number that Base58 text writes. -/
def base58Value (str : JsString) : Nat :=
  (str.map base58Index).foldl (fun value digit => 58 * value + digit) 0

theorem base58Value_reverse (str : JsString) :
  base58Value str.reverse = Nat.ofDigits 58 (str.map base58Index) := by
  unfold base58Value
  rw [map_reverse, foldl_reverse, Nat.ofDigits_eq_foldr]
  congr 1
  funext digit value
  exact Nat.add_comm _ _

theorem base58Value_toBase58 (bin : Bytes) : (base58Value (toBase58 bin) : Int) = ofArray bin := by
  unfold toBase58
  rw [base58Value_reverse, map_append, List.map_map, List.map_map]
  have hDigits : (base58Digits bin).map (base58Index ∘ base58Char) = base58Digits bin := by
    conv_rhs => rw [← List.map_id (base58Digits bin)]
    apply map_congr_left
    intro digit hDigit
    exact base58Index_base58Char (base58Digits_lt bin digit hDigit)
  have hZeros : (bin.takeWhile (· == 0)).map (base58Index ∘ fun _ => '1') =
        replicate (bin.takeWhile (· == 0)).length 0 := by
    rw [eq_replicate_iff]
    constructor
    · exact length_map _
    · intro digit hDigit
      rcases List.mem_map.mp hDigit with ⟨_, _, hEq⟩
      rw [← hEq]
      rfl
  rw [hDigits, hZeros, Nat.ofDigits_append_replicate_zero]
  exact ofDigits_base58Digits bin

variable {str : JsString} (bytes : Bytes)

theorem length_addDigitToBytes (carry : Nat) :
  (addDigitToBytes bytes carry).length = bytes.length := by
  induction bytes generalizing carry with
  | nil => rfl
  | cons byte bytes ih =>
    unfold addDigitToBytes
    rw [length_cons, length_cons, ih]

theorem magnitudeLE_addDigitToBytes (carry : Nat) : magnitudeLE (addDigitToBytes bytes carry) =
    (58 * magnitudeLE bytes + carry) % 256 ^ bytes.length := by
  induction bytes generalizing carry with
  | nil =>
    unfold addDigitToBytes
    simp [magnitudeLE, Nat.mod_one]
  | cons byte bytes ih =>
    unfold addDigitToBytes
    dsimp only
    have hCons :
        ∀ (byte : UInt8) (bytes : Bytes), magnitudeLE (byte :: bytes) = byte.toNat +
          256 * magnitudeLE bytes := by
      intro byte bytes
      unfold magnitudeLE
      rw [map_cons, Nat.ofDigits_cons]
    rw [hCons, hCons, ih, length_cons, pow_succ,
      Nat.mul_comm (256 ^ bytes.length), Nat.mod_mul]
    have hLow : (58 * (byte.toNat + 256 * magnitudeLE bytes) + carry) % 256 =
      (byte.toNat * 58 + carry) % 256 := by omega
    have hHigh : (58 * (byte.toNat + 256 * magnitudeLE bytes) + carry) / 256 =
      58 * magnitudeLE bytes + (byte.toNat * 58 + carry) / 256 := by omega
    rw [hLow, hHigh, UInt8.toNat_ofNat']

theorem magnitudeLE_foldl (digits : List Nat) (bytes : Bytes) :
  magnitudeLE (digits.foldl addDigitToBytes bytes) % 256 ^ bytes.length =
    (digits.foldl (fun value digit => 58 * value + digit)
      (magnitudeLE bytes)) % 256 ^ bytes.length ∧
    (digits.foldl addDigitToBytes bytes).length =
      bytes.length := by
  induction digits using reverseRecOn with
  | nil => exact ⟨rfl, rfl⟩
  | append_singleton digits digit ih =>
    simp only [foldl_append, foldl_cons, foldl_nil]
    constructor
    · rw [magnitudeLE_addDigitToBytes, ih.2, Nat.mod_mod]
      exact Nat.ModEq.add_right digit (Nat.ModEq.mul_left 58 ih.1)
    · rw [length_addDigitToBytes]
      exact ih.2

-- Round Trip

theorem base58Value_lt_aux (value : Nat) (hDigits : ∀ digit ∈ digits, digit < 58) :
  digits.foldl (fun value digit => 58 * value + digit) value <
    (value + 1) * 58 ^ digits.length := by
  induction digits generalizing value with
  | nil => simp
  | cons digit digits ih =>
    rw [foldl_cons, length_cons]
    have hDigit := hDigits digit mem_cons_self
    have hTail := ih (58 * value + digit) fun other hOther =>
      hDigits other (mem_cons_of_mem digit hOther)
    calc digits.foldl (fun value digit => 58 * value + digit) (58 * value + digit) <
        (58 * value + digit + 1) * 58 ^ digits.length := hTail
      _ ≤ (value + 1) * 58 * 58 ^ digits.length := by
        apply Nat.mul_le_mul_right
        omega
      _ = (value + 1) * 58 ^ (digits.length + 1) := by
        rw [pow_succ]
        ring

/- Leading ones add nothing to the number. -/
theorem base58Value_lt (hStr : ∀ char ∈ str, char ∈ base58chars) :
  base58Value str < 58 ^ (str.length - (str.takeWhile (· == '1')).length) := by
  induction str with
  | nil => simp [base58Value]
  | cons char str ih =>
    by_cases hOne : char = '1'
    · subst hOne
      rw [takeWhile_cons_of_pos rfl, length_cons, length_cons, Nat.add_sub_add_right]
      exact ih fun other hOther => hStr other (mem_cons_of_mem '1' hOther)
    · have hNone : (char :: str).takeWhile (· == '1') = [] :=
        takeWhile_cons_of_neg (by simp [hOne])
      rw [hNone, length_nil, Nat.sub_zero]
      have hDigits : ∀ digit ∈ (char :: str).map base58Index, digit < 58 := by
        intro digit hDigit
        rcases List.mem_map.mp hDigit with ⟨c, hChar, hEq⟩
        rw [← hEq]
        exact base58Index_lt (hStr c hChar)
      have hLt := base58Value_lt_aux 0 hDigits
      rw [length_map, Nat.zero_add, Nat.one_mul] at hLt
      exact hLt

/- There is room for a number of up to 64 digits. -/
theorem pow_le_base58Size {length : Nat} (hLen : length ≤ 64) :
  58 ^ length ≤ 256 ^ base58Size length := by
  have hAll : ∀ length < 65, 58 ^ length ≤ 256 ^ base58Size length := by decide +kernel
  exact hAll length (Nat.lt_succ_of_le hLen)

theorem ofArray_zeros {zeros bytes : Bytes} (hZeros : ∀ byte ∈ zeros, byte = 0) :
  ofArray (zeros ++ bytes) = ofArray bytes := by
  induction zeros with
  | nil => rfl
  | cons byte zeros ih =>
    have hByte := hZeros byte mem_cons_self
    subst hByte
    exact ih fun other hOther => hZeros other (mem_cons_of_mem 0 hOther)

theorem ofArray_dropZeros : ofArray (bytes.dropWhile (· == 0)) = ofArray bytes := by
  conv_rhs => rw [← takeWhile_append_dropWhile (p := (· == (0 : UInt8))) (l := bytes)]
  exact (ofArray_zeros (takeWhile_zero_eq bytes)).symm

section

variable (hNonempty : str ≠ []) (hStr : ∀ char ∈ str, char ∈ base58chars)

include hNonempty hStr

/-
  Text of the alphabet is read as its leading zeros and the
  bytes of the number it writes, where they fit.
-/
theorem fromBase58_eq
  (hValue : base58Value str < 256 ^ base58Size (str.length - (str.takeWhile (· == '1')).length)) :
  ∃ bytes, fromBase58 str = .ok (replicate (str.takeWhile (· == '1')).length 0 ++
        bytes.dropWhile (· == 0)) ∧
      ofArray bytes = base58Value str := by
  have hValid : str.any (!base58chars.contains ·) = false := by
    apply List.any_eq_false.mpr
    intro char hChar
    simp [hStr char hChar]
  unfold fromBase58
  rw [if_neg hNonempty, hValid, if_neg Bool.false_ne_true]
  refine ⟨_, rfl, ?_⟩
  generalize base58Size (str.length - (str.takeWhile (· == '1')).length) = room at hValue ⊢
  rw [ofArray_eq, reverse_reverse]
  congr 1
  have hFold := magnitudeLE_foldl (str.map base58Index) (replicate room 0)
  have hStart : magnitudeLE (replicate room 0) = 0 := by
    unfold magnitudeLE
    rw [map_replicate]
    exact Nat.ofDigits_replicate_zero
  rw [hStart, length_replicate] at hFold
  have hBytes : magnitudeLE ((str.map base58Index).foldl addDigitToBytes
            (replicate room 0)) < 256 ^ room := by
    unfold magnitudeLE
    have hLt := Nat.ofDigits_lt_base_pow_length
      (b := 256)
      (l := ((str.map base58Index).foldl addDigitToBytes (replicate room 0)).map UInt8.toNat)
      (by decide)
      (by
        intro digit hDigit
        rcases List.mem_map.mp hDigit with ⟨byte, _, hEq⟩
        rw [← hEq]
        exact byte.toNat_lt)
    rwa [length_map, hFold.2] at hLt
  rw [Nat.mod_eq_of_lt hBytes] at hFold
  rw [hFold.1]
  exact Nat.mod_eq_of_lt hValue

/- Text of up to 64 digits is read as the number it writes. -/
theorem fromBase58_eq_ok (hLen : str.length ≤ 64) :
  ∃ bytes, fromBase58 str = .ok bytes ∧ ofArray bytes = base58Value str := by
  have hValue := Nat.lt_of_lt_of_le (base58Value_lt hStr) (pow_le_base58Size (by omega))
  rcases fromBase58_eq hNonempty hStr hValue with ⟨bytes, hBytes, hNum⟩
  refine ⟨_, hBytes, ?_⟩
  rw [ofArray_zeros (fun byte hByte => eq_of_mem_replicate hByte), ofArray_dropZeros]
  exact hNum

end

theorem fromBase58_toBase58 (hNonempty : bin ≠ []) (hLen : bin.length ≤ 32) :
  ∃ bytes, fromBase58 (toBase58 bin) = .ok bytes ∧
      ofArray bytes = ofArray bin := by
  have hText : (toBase58 bin).length ≤ 64 := by
    have hBound := length_toBase58_le bin
    omega
  rcases fromBase58_eq_ok (toBase58_ne_nil hNonempty)
      (fun char hChar => toBase58_mem hChar) hText with
    ⟨bytes, hBytes, hValue⟩
  refine ⟨bytes, hBytes, ?_⟩
  rw [hValue]
  exact base58Value_toBase58 bin

end TsStack
