import TsStack.Primitives.Base58

/-
  Base58 text and bytes are each other's inverses, and so
  are `toBase58Check` and `fromBase58Check`.

  The digits of both bases are those of one number, and the
  leading zeros are counted apart.
-/

-- Digits without Leading Zeros

open List

namespace TsStack

open BigNumber

theorem digits_dropWhile
  {α : Type} {base : Nat} {value : α → Nat} {isZero : α → Bool} {items : List α}
  (hBase : 1 < base) (hLt : ∀ item ∈ items, value item < base)
  (hZero : ∀ item ∈ items, isZero item = true ↔ value item = 0) :
  Nat.digits base (Nat.ofDigits base (items.map value).reverse) =
    ((items.dropWhile isZero).map value).reverse := by
  induction items with
  | nil => simp
  | cons item items ih =>
    have hHead := hZero item mem_cons_self
    by_cases hDrop : isZero item = true
    · have hTail := ih (fun other hOther => hLt other (mem_cons_of_mem _ hOther))
        (fun other hOther => hZero other (mem_cons_of_mem _ hOther))
      rw [dropWhile_cons_of_pos hDrop, ← hTail, map_cons,
        reverse_cons, Nat.ofDigits_append, hHead.mp hDrop]
      simp
    · rw [dropWhile_cons_of_neg hDrop]
      apply Nat.digits_ofDigits _ hBase
      · intro digit hDigit
        rcases List.mem_map.mp (mem_reverse.mp hDigit) with ⟨other, hOther, rfl⟩
        exact hLt other hOther
      · intro hNonempty
        simpa using mt hHead.mpr hDrop

theorem addByteToDigits_digits (number carry : Nat) :
  addByteToDigits (Nat.digits 58 number) carry = Nat.digits 58 (256 * number + carry) := by
  induction number using Nat.strong_induction_on generalizing carry with
  | _ number ih =>
    rcases Nat.eq_zero_or_pos number with rfl | hPos
    · simp [addByteToDigits]
    · have hSum : 0 < 256 * number + carry := by omega
      have hLow : (number % 58 * 256 + carry) % 58 = (256 * number + carry) % 58 := by omega
      have hHigh : 256 * (number / 58) + (number % 58 * 256 + carry) / 58 =
        (256 * number + carry) / 58 := by omega
      rw [Nat.digits_def' (by decide) hPos, addByteToDigits, Nat.digits_def' (by decide) hSum,
        ih _ (Nat.div_lt_self hPos (by decide)), hLow, hHigh]

theorem base58Digits_eq_digits (bin : Bytes) :
  base58Digits bin = Nat.digits 58 (Nat.ofDigits 58 (base58Digits bin)) := by
  induction bin using reverseRecOn with
  | nil => simp [base58Digits]
  | append_singleton bin byte ih =>
    rw [base58Digits_append, ofDigits_addByteToDigits, ← addByteToDigits_digits, ← ih]

-- Text and Bytes by their Number

variable {bin : Bytes} {str : JsString}

/- The zero digit is `1`. -/
theorem base58Index_eq_zero (char : Char) : (char == '1') = true ↔ base58Index char = 0 := by
  rw [BEq.comm, base58Index, base58chars, idxOf_cons]
  cases '1' == char with
  | true => simp
  | false => simp

theorem base58Char_base58Index {char : Char} (hChar : char ∈ base58chars) :
  base58Char (base58Index char) = char := by
  have hLt := idxOf_lt_length_of_mem hChar
  rw [base58Char, base58Index, getD_eq_getElem?_getD, getElem?_eq_getElem hLt,
    Option.getD_some, getElem_idxOf hLt]

theorem digits_base58Value (hStr : ∀ char ∈ str, char ∈ base58chars) :
  Nat.digits 58 (base58Value str) = ((str.dropWhile (· == '1')).map base58Index).reverse := by
  rw [← digits_dropWhile (by decide) (fun char hChar => base58Index_lt (hStr char hChar))
      (fun char _ => base58Index_eq_zero char),
    ← map_reverse, ← base58Value_reverse, reverse_reverse]

theorem dropWhile_eq_of_ofArray {other : Bytes} (hNum : ofArray bin = ofArray other) :
  bin.dropWhile (· == 0) = other.dropWhile (· == 0) := by
  have hDigits : ∀ bytes : Bytes, Nat.digits 256 (magnitudeLE bytes.reverse) =
        ((bytes.dropWhile (· == 0)).map UInt8.toNat).reverse := by
    intro bytes
    rw [← digits_dropWhile (by decide) (fun byte _ => byte.toNat_lt) (fun byte _ => by
      rw [beq_iff_eq, ← UInt8.toNat_inj]
      rfl), magnitudeLE, map_reverse]
  rw [ofArray_eq, ofArray_eq] at hNum
  have hEq := (hDigits bin).symm.trans
    ((congrArg _ (Int.ofNat_inj.mp hNum)).trans (hDigits other))
  exact map_injective_iff.mpr (fun _ _ hSame => UInt8.toNat_inj.mp hSame)
    (reverse_injective hEq)

/- The bytes `fromBase58` makes room for hold the number. -/
def HasRoom (str : JsString) : Prop :=
  (Nat.digits 256 (base58Value str)).length ≤
    base58Size (str.length - (str.takeWhile (· == '1')).length)

theorem HasRoom.value_lt (hRoom : HasRoom str) :
  base58Value str < 256 ^ base58Size (str.length - (str.takeWhile (· == '1')).length) :=
  (Nat.lt_base_pow_length_digits (by decide)).trans_le (Nat.pow_le_pow_right (by decide) hRoom)

-- Round Trips

theorem takeWhile_eq_replicate {α : Type} [BEq α] [LawfulBEq α] (item : α) (items : List α) :
  items.takeWhile (· == item) = replicate (items.takeWhile (· == item)).length item := by
  refine eq_replicate_iff.mpr ⟨rfl, ?_⟩
  intro other hOther
  have hAll := all_takeWhile (p := (· == item)) (l := items)
  exact beq_iff_eq.mp (List.all_eq_true.mp hAll other hOther)

theorem digits_of_ofArray
  (hStr : ∀ char ∈ str, char ∈ base58chars) (hNum : ofArray bin = base58Value str) :
  base58Digits bin = ((str.dropWhile (· == '1')).map base58Index).reverse := by
  have hEq := (ofDigits_base58Digits bin).trans hNum
  rw [base58Digits_eq_digits, Int.ofNat_inj.mp hEq, digits_base58Value hStr]

theorem length_takeWhile_toBase58 (bin : Bytes) :
  ((toBase58 bin).takeWhile (· == '1')).length = (bin.takeWhile (· == 0)).length := by
  have hDigits := congrArg length (digits_of_ofArray (fun char hChar => toBase58_mem hChar)
    (base58Value_toBase58 bin).symm)
  have hSplit := congrArg length (takeWhile_append_dropWhile
    (p := (· == '1')) (l := toBase58 bin))
  have hLen : (toBase58 bin).length = (base58Digits bin).length +
        (bin.takeWhile (· == 0)).length := by
    simp [toBase58, Nat.add_comm]
  rw [length_reverse, length_map] at hDigits
  rw [length_append] at hSplit
  omega

theorem fromBase58_toBase58_eq (hNonempty : bin ≠ []) (hRoom : HasRoom (toBase58 bin)) :
  fromBase58 (toBase58 bin) = .ok bin := by
  rcases fromBase58_eq (toBase58_ne_nil hNonempty)
      (fun char hChar => toBase58_mem hChar) hRoom.value_lt with
    ⟨bytes, hBytes, hNum⟩
  rw [base58Value_toBase58] at hNum
  rw [hBytes, dropWhile_eq_of_ofArray hNum,
    length_takeWhile_toBase58, ← takeWhile_eq_replicate, takeWhile_append_dropWhile]

theorem toBase58_fromBase58_eq
  (hNonempty : str ≠ []) (hStr : ∀ char ∈ str, char ∈ base58chars) (hRoom : HasRoom str) :
  ∃ bytes, fromBase58 str = .ok bytes ∧ toBase58 bytes = str := by
  rcases fromBase58_eq hNonempty hStr hRoom.value_lt with ⟨bytes, hBytes, hNum⟩
  refine ⟨_, hBytes, ?_⟩
  generalize hZeros : (str.takeWhile (· == '1')).length = zeros
  have hAll : ∀ byte ∈ replicate zeros (0 : UInt8),
    byte = 0 := fun byte hByte => eq_of_mem_replicate hByte
  have hDigits := digits_of_ofArray hStr ((ofArray_zeros hAll).trans
    ((ofArray_dropZeros bytes).trans hNum))
  have hRest : (bytes.dropWhile (· == 0)).takeWhile (· == 0) = [] := by
    have hHead := head?_dropWhile_not (· == (0 : UInt8)) bytes
    cases hRest : bytes.dropWhile (· == 0) with
    | nil => rfl
    | cons byte rest =>
      rw [hRest] at hHead
      exact takeWhile_cons_of_neg (by simpa using hHead)
  have hTake : (replicate zeros 0 ++ bytes.dropWhile (· == 0)).takeWhile (· == 0) =
        replicate zeros 0 := by
    rw [takeWhile_append_of_pos fun byte hByte =>
      beq_iff_eq.mpr (hAll byte hByte), hRest, append_nil]
  have hChars : ((str.dropWhile (· == '1')).map base58Index).map
      base58Char = str.dropWhile (· == '1') := by
    rw [List.map_map]
    conv_rhs => rw [← List.map_id (str.dropWhile (· == '1'))]
    apply map_congr_left
    intro char hChar
    exact base58Char_base58Index (hStr char (dropWhile_sublist _ |>.subset hChar))
  rw [toBase58, hDigits, hTake, map_reverse, hChars,
    map_replicate, reverse_append, reverse_reverse,
    reverse_replicate, ← hZeros, ← takeWhile_eq_replicate, takeWhile_append_dropWhile]

-- Checksums

/- What `fromBase58Check` returns, by its `enc`. -/
inductive Base58CheckResult where
| bytes (data prefixBytes : Bytes)
| hex (data prefixHex : JsString)
deriving DecidableEq, Repr

def toBase58Check (hash256 : Bytes → Bytes) (bin : Bytes) (prefixBytes : Bytes := [0]) : JsString :=
  let hash := hash256 (prefixBytes ++ bin)
  toBase58 (prefixBytes ++ bin ++ hash.take 4)

/- `fromBase58Check`; `hex` is the encoding of the result. -/
def fromBase58Check (hash256 : Bytes → Bytes) (str : JsString) (hex : Bool)
  (prefixLength : Nat := 1) : Except JsError Base58CheckResult := do
  let bin ← fromBase58 str
  let prefixBytes := bin.take prefixLength
  let data := (bin.take (bin.length - 4)).drop prefixLength
  let hash := hash256 (prefixBytes ++ data)
  if (bin.drop (bin.length - 4)).zipIdx.any (fun (check, index) => hash[index]? ≠ some check) then
    .error (.error "Invalid checksum")
  else if hex then .ok (.hex (toHex data) (toHex prefixBytes))
  else .ok (.bytes data prefixBytes)

/- A payload with its checksum comes back in its parts. -/
theorem fromBase58Check_toBase58Check {hash256 : Bytes → Bytes} {data prefixBytes : Bytes}
  (hHash : ∀ bytes, 4 ≤ (hash256 bytes).length)
  (hRoom : HasRoom (toBase58Check hash256 data prefixBytes)) :
  fromBase58Check hash256 (toBase58Check hash256 data prefixBytes) false prefixBytes.length =
    .ok (.bytes data prefixBytes) := by
  have hFour : ((hash256 (prefixBytes ++ data)).take 4).length = 4 := by
    simpa using hHash (prefixBytes ++ data)
  have hNonempty : prefixBytes ++ data ++ (hash256 (prefixBytes ++ data)).take 4 ≠ [] := by
    intro hNil
    have hLen := congrArg length hNil
    simp only [length_append, hFour, length_nil] at hLen
    omega
  have hLen : (prefixBytes ++ data ++ (hash256 (prefixBytes ++ data)).take 4).length - 4 =
        (prefixBytes ++ data).length := by
    rw [length_append, hFour, Nat.add_sub_cancel]
  unfold fromBase58Check
  rw [toBase58Check, fromBase58_toBase58_eq hNonempty hRoom, ok_bind]
  dsimp only
  rw [hLen, drop_left, take_left, drop_left, append_assoc, take_left]
  have hSum : ¬((hash256 (prefixBytes ++ data)).take 4).zipIdx.any (fun (check, index) =>
        (hash256 (prefixBytes ++ data))[index]? ≠ some check) =
          true := by
    rw [Bool.not_eq_true, List.any_eq_false]
    rintro ⟨check, index⟩ hCheck
    have hTake := mem_zipIdx_iff_getElem?.mp hCheck
    rw [getElem?_take] at hTake
    split_ifs at hTake
    simpa using hTake
  rw [if_neg hSum]
  rfl

/-
  Bytes come back from their text, text of the alphabet from
  its bytes, and a payload with any prefix from its text.
-/
theorem base58_round_trips
  (hash256 : Bytes → Bytes) (hHash : ∀ bytes, (hash256 bytes).length = 32) :
  (∀ bin : Bytes, bin ≠ [] → HasRoom (toBase58 bin) → fromBase58 (toBase58 bin) = .ok bin) ∧
  (∀ str : JsString, str ≠ [] → (∀ char ∈ str, char ∈ base58chars) → HasRoom str →
      ∃ bytes, fromBase58 str = .ok bytes ∧ toBase58 bytes = str) ∧
  ∀ data prefixBytes, HasRoom (toBase58Check hash256 data prefixBytes) →
      fromBase58Check hash256 (toBase58Check hash256 data prefixBytes) false prefixBytes.length =
        .ok (.bytes data prefixBytes) :=
  ⟨fun _ => fromBase58_toBase58_eq,
    fun _ => toBase58_fromBase58_eq,
    fun _ _ => fromBase58Check_toBase58Check fun bytes => by
      rw [hHash]
      decide⟩

theorem base58_round_trips_zeros : fromBase58 (toBase58 [0, 0, 1]) = .ok [0, 0, 1] :=
  (base58_round_trips (fun _ => List.replicate 32 0)
    fun _ => List.length_replicate).1 [0, 0, 1] (by decide) (by unfold HasRoom; decide +kernel)

end TsStack
