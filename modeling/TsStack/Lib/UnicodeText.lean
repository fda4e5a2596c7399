import Mathlib.Data.List.Basic

/-
  Text as UTF-16 code units and as UTF-8 bytes.

  A text of code units may hold lone surrogates; its
  characters replace each of them by U+FFFD.  Strict decoding
  accepts exactly the encodings of characters.
-/

-- Code Units

open List

namespace UnicodeText

def isHighSurrogate (codeUnit : UInt16) : Bool :=
  0xd800 ≤ codeUnit.toNat && codeUnit.toNat < 0xdc00

def isLowSurrogate (codeUnit : UInt16) : Bool :=
  0xdc00 ≤ codeUnit.toNat && codeUnit.toNat < 0xe000

def charOfUnit (codeUnit : UInt16) : Char :=
  if isHighSurrogate codeUnit || isLowSurrogate codeUnit then '\uFFFD'
  else Char.ofNat codeUnit.toNat

def charOfPair (high low : UInt16) : Char :=
  Char.ofNat (0x10000 + (high.toNat - 0xd800) * 0x400 + (low.toNat - 0xdc00))

def scalars : List UInt16 → List Char
| [] => []
| [codeUnit] => [charOfUnit codeUnit]
| codeUnit :: next :: rest =>
  if isHighSurrogate codeUnit && isLowSurrogate next then charOfPair codeUnit next :: scalars rest
  else charOfUnit codeUnit :: scalars (next :: rest)

def unitsOfChar (char : Char) : List UInt16 :=
  if char.toNat < 0x10000 then [UInt16.ofNat char.toNat]
  else
    [UInt16.ofNat (0xd800 + (char.toNat - 0x10000) / 0x400),
      UInt16.ofNat (0xdc00 + (char.toNat - 0x10000) % 0x400)]

def units (text : List Char) : List UInt16 :=
  text.flatMap unitsOfChar

/- The surrogates of a text come in pairs. -/
def isWellFormed : List UInt16 → Bool
| [] => true
| [codeUnit] => !isHighSurrogate codeUnit && !isLowSurrogate codeUnit
| codeUnit :: next :: rest =>
  if isHighSurrogate codeUnit && isLowSurrogate next then isWellFormed rest
  else !isHighSurrogate codeUnit && !isLowSurrogate codeUnit && isWellFormed (next :: rest)

theorem toNat_charOfNat {number : Nat} (hNum : number.isValidChar) :
  (Char.ofNat number).toNat = number := by
  rw [Char.ofNat, dif_pos hNum]
  rfl

theorem unitsOfChar_charOfUnit {codeUnit : UInt16} (hHigh : isHighSurrogate codeUnit = false)
  (hLow : isLowSurrogate codeUnit = false) : unitsOfChar (charOfUnit codeUnit) = [codeUnit] := by
  have hBound := codeUnit.toNat_lt
  have hOutside : codeUnit.toNat < 0xd800 ∨ 0xe000 ≤ codeUnit.toNat := by
    simp only [isHighSurrogate, isLowSurrogate, Bool.and_eq_false_iff, decide_eq_false_iff_not]
      at hHigh hLow
    omega
  have hValid : codeUnit.toNat.isValidChar := by
    unfold Nat.isValidChar
    omega
  unfold charOfUnit
  rw [hHigh, hLow, if_neg (by decide)]
  unfold unitsOfChar
  rw [toNat_charOfNat hValid, if_pos hBound]
  rw [UInt16.ofNat_toNat]

theorem unitsOfChar_charOfPair
  {high low : UInt16} (hHigh : isHighSurrogate high = true) (hLow : isLowSurrogate low = true) :
  unitsOfChar (charOfPair high low) = [high, low] := by
  simp only [isHighSurrogate, isLowSurrogate, Bool.and_eq_true, decide_eq_true_eq] at hHigh hLow
  have hValid : (0x10000 + (high.toNat - 0xd800) * 0x400 + (low.toNat - 0xdc00)).isValidChar := by
    unfold Nat.isValidChar
    omega
  have hHighUnit :
      0xd800 + (0x10000 + (high.toNat - 0xd800) * 0x400 + (low.toNat - 0xdc00) - 0x10000) / 0x400 =
        high.toNat := by
    omega
  have hLowUnit :
      0xdc00 + (0x10000 + (high.toNat - 0xd800) * 0x400 + (low.toNat - 0xdc00) - 0x10000) % 0x400 =
        low.toNat := by
    omega
  unfold charOfPair unitsOfChar
  rw [toNat_charOfNat hValid, if_neg (by omega), hHighUnit,
    hLowUnit, UInt16.ofNat_toNat, UInt16.ofNat_toNat]

theorem units_scalars (text : List UInt16) (hText : isWellFormed text = true) :
  units (scalars text) = text := by
  induction text using scalars.induct with
  | case1 => rfl
  | case2 codeUnit =>
    simp only [isWellFormed, Bool.and_eq_true, Bool.not_eq_true'] at hText
    change unitsOfChar (charOfUnit codeUnit) ++ [] = _
    rw [unitsOfChar_charOfUnit hText.1 hText.2]
    rfl
  | case3 codeUnit next rest hPair ih =>
    unfold isWellFormed at hText
    rw [if_pos hPair] at hText
    unfold scalars
    rw [if_pos hPair]
    rw [Bool.and_eq_true] at hPair
    unfold units at ih ⊢
    rw [flatMap_cons, ih hText, unitsOfChar_charOfPair hPair.1 hPair.2]
    rfl
  | case4 codeUnit next rest hPair ih =>
    unfold isWellFormed at hText
    rw [if_neg hPair] at hText
    simp only [Bool.and_eq_true, Bool.not_eq_true'] at hText
    unfold scalars
    rw [if_neg hPair]
    unfold units at ih ⊢
    rw [flatMap_cons, ih hText.2, unitsOfChar_charOfUnit hText.1.1 hText.1.2]
    rfl

theorem scalars_cons_of_single {codeUnit : UInt16} (hHigh : isHighSurrogate codeUnit = false)
  (hLow : isLowSurrogate codeUnit = false) (rest : List UInt16) :
  scalars (codeUnit :: rest) = charOfUnit codeUnit :: scalars rest ∧
    isWellFormed (codeUnit :: rest) = isWellFormed rest := by
  cases rest with
  | nil => simp only [scalars, isWellFormed, hHigh, hLow, Bool.not_false, Bool.and_self, and_self]
  | cons next rest =>
    simp only [scalars, isWellFormed, hHigh, hLow, Bool.false_and, Bool.false_eq_true, if_false,
      Bool.not_false, Bool.true_and, and_self]

/- The code units of a character are read as that character. -/
theorem scalars_unitsOfChar (char : Char) (rest : List UInt16) :
  scalars (unitsOfChar char ++ rest) = char :: scalars rest ∧
    isWellFormed (unitsOfChar char ++ rest) = isWellFormed rest := by
  have hValid : char.toNat < 0xd800 ∨ (0xdfff < char.toNat ∧ char.toNat < 0x110000) := char.valid
  have hUnit : ∀ n : Nat, n < 0x10000 → (UInt16.ofNat n).toNat = n := by
    intro n hn
    rw [UInt16.toNat_ofNat', Nat.mod_eq_of_lt hn]
  unfold unitsOfChar
  split
  · rename_i hSmall
    have hSelf := hUnit _ hSmall
    have hHigh : isHighSurrogate (UInt16.ofNat char.toNat) = false := by
      simp only [isHighSurrogate, hSelf, Bool.and_eq_false_iff, decide_eq_false_iff_not]
      omega
    have hLow : isLowSurrogate (UInt16.ofNat char.toNat) = false := by
      simp only [isLowSurrogate, hSelf, Bool.and_eq_false_iff, decide_eq_false_iff_not]
      omega
    have hChar : charOfUnit (UInt16.ofNat char.toNat) = char := by
      unfold charOfUnit
      rw [hHigh, hLow, hSelf, Char.ofNat_toNat]
      rfl
    rw [singleton_append, (scalars_cons_of_single hHigh hLow rest).1, hChar,
      (scalars_cons_of_single hHigh hLow rest).2]
    exact ⟨rfl, rfl⟩
  · rename_i hLarge
    have hFst := hUnit (0xd800 + (char.toNat - 0x10000) / 0x400) (by omega)
    have hSnd := hUnit (0xdc00 + (char.toNat - 0x10000) % 0x400) (by omega)
    have hHigh : isHighSurrogate (UInt16.ofNat
          (0xd800 + (char.toNat - 0x10000) / 0x400)) = true := by
      simp only [isHighSurrogate, hFst, Bool.and_eq_true, decide_eq_true_eq]
      omega
    have hLow : isLowSurrogate (UInt16.ofNat (0xdc00 + (char.toNat - 0x10000) % 0x400)) = true := by
      simp only [isLowSurrogate, hSnd, Bool.and_eq_true, decide_eq_true_eq]
      omega
    have hChar : charOfPair (UInt16.ofNat (0xd800 + (char.toNat - 0x10000) / 0x400))
        (UInt16.ofNat (0xdc00 + (char.toNat - 0x10000) % 0x400)) = char := by
      have hNat : 0x10000 + (0xd800 + (char.toNat - 0x10000) / 0x400 - 0xd800) * 0x400 +
            (0xdc00 + (char.toNat - 0x10000) % 0x400 - 0xdc00) = char.toNat := by
        omega
      unfold charOfPair
      rw [hFst, hSnd, hNat, Char.ofNat_toNat]
    simp only [cons_append, nil_append, scalars,
      isWellFormed, hHigh, hLow, Bool.and_self, if_true, hChar, and_self]

variable (text : List Char)

theorem scalars_units : scalars (units text) = text ∧ isWellFormed (units text) = true := by
  induction text with
  | nil => exact ⟨rfl, rfl⟩
  | cons char text ih =>
    unfold units at ih ⊢
    rw [flatMap_cons, (scalars_unitsOfChar char _).1,
      (scalars_unitsOfChar char _).2, ih.1, ih.2]
    exact ⟨rfl, rfl⟩

-- UTF-8

def encodeUtf8 (text : List Char) : List UInt8 :=
  text.flatMap String.utf8EncodeChar

def decodeUtf8 (bytes : List UInt8) : Option (List Char) :=
  bytes.toByteArray.utf8Decode?.map Array.toList

theorem toByteArray_encodeUtf8 : (encodeUtf8 text).toByteArray = text.utf8Encode := rfl

@[simp] theorem decodeUtf8_encodeUtf8 : decodeUtf8 (encodeUtf8 text) = some text := by
  unfold decodeUtf8
  rw [toByteArray_encodeUtf8, utf8Decode?_utf8Encode]
  rfl

theorem not_isUTF8FirstByte_of_inside {char : Char} {index : Nat} {byte : UInt8} (hPos : 0 < index)
  (hByte : (String.utf8EncodeChar char)[index]? = some byte) : ¬byte.IsUTF8FirstByte := by
  rcases List.getElem?_eq_some_iff.mp hByte with ⟨hIdx, rfl⟩
  rw [UInt8.isUTF8FirstByte_getElem_utf8EncodeChar]
  exact Nat.ne_of_gt hPos

theorem take_encodeUtf8 {text : List Char} {size : Nat}
  (hCut : ∀ byte, (encodeUtf8 text)[size]? = some byte → byte.IsUTF8FirstByte) :
  ∃ part, part <+: text ∧ (encodeUtf8 text).take size = encodeUtf8 part := by
  induction text generalizing size with
  | nil => exact ⟨[], prefix_refl [], take_nil⟩
  | cons char text ih =>
    have hCons : encodeUtf8 (char :: text) = String.utf8EncodeChar char ++ encodeUtf8 text :=
      flatMap_cons
    rw [hCons] at hCut ⊢
    rcases Nat.eq_zero_or_pos size with rfl | hPos
    · exact ⟨[], nil_prefix, take_zero⟩
    · by_cases hInside : size < (String.utf8EncodeChar char).length
      · -- The cut would be inside the first character.
        rw [getElem?_append_left hInside] at hCut
        have hByte := getElem?_eq_getElem hInside
        exact absurd (hCut _ hByte) (not_isUTF8FirstByte_of_inside hPos hByte)
      · have hAfter := Nat.le_of_not_lt hInside
        rw [getElem?_append_right hAfter] at hCut
        rcases ih hCut with ⟨part, hPart, hTake⟩
        refine ⟨char :: part, ?_, ?_⟩
        · exact cons_prefix_cons.mpr ⟨rfl, hPart⟩
        · rw [take_append, take_of_length_le hAfter, hTake]
          exact flatMap_cons.symm

end UnicodeText
