import TsStack.Lib.UnicodeText
import Mathlib.Algebra.Order.Ring.Nat

/-
  The codec's own check that bytes are UTF-8: lead bytes with
  their continuation bytes, no overlong form, no surrogate and
  nothing past U+10FFFF.
-/

-- Scanning Bytes

open List

namespace TsStack.Cbor

/- A lead byte's count of continuation bytes, its least code point and its payload bits. -/
def utf8Lead (c : UInt8) : Option (Nat × Nat × Nat) :=
  let c := c.toNat
  if 0xc2 ≤ c ∧ c ≤ 0xdf then some (1, 0x80, c &&& 0x1f)
  else if 0xe0 ≤ c ∧ c ≤ 0xef then some (2, 0x800, c &&& 0x0f)
  else if 0xf0 ≤ c ∧ c ≤ 0xf4 then some (3, 0x10000, c &&& 0x07)
  else none

/- The code point with its continuation bytes read in. -/
def continued : Nat → Nat → List UInt8 → Option Nat
| 0, cp, _ => some cp
| _ + 1, _, [] => none
| need + 1, cp, x :: rest =>
  if x.toNat &&& 0xc0 ≠ 0x80 then none
  else continued need (cp <<< 6 ||| (x.toNat &&& 0x3f)) rest

def utf8SequenceLength : List UInt8 → Nat
| [] => 0
| c :: rest =>
  match utf8Lead c with
  | none => 0
  | some (need, min, bits) =>
    match continued need bits rest with
    | none => 0
    | some cp =>
      if cp < min ∨ cp > 0x10ffff ∨ (cp ≥ 0xd800 ∧ cp ≤ 0xdfff) then 0
      else need + 1

def validFrom : Nat → List UInt8 → Bool
| _, [] => true
| 0, _ :: _ => false
| fuel + 1, c :: rest =>
  if c.toNat < 0x80 then validFrom fuel rest
  else
    let size := utf8SequenceLength (c :: rest)
    if size = 0 then false
    else validFrom fuel ((c :: rest).drop size)

def validUtf8 (b : List UInt8) : Bool :=
  validFrom b.length b

-- Bits and Numbers

/- The bits of a continuation byte. -/
theorem and_c0_iff (x : UInt8) : x.toNat &&& 0xc0 = 0x80 ↔ 0x80 ≤ x.toNat ∧ x.toNat < 0xc0 := by
  have hAll : ∀ n : Fin 256, n.val &&& 0xc0 = 0x80 ↔ 0x80 ≤ n.val ∧ n.val < 0xc0 := by
    decide +kernel
  exact hAll ⟨x.toNat, x.toNat_lt⟩

theorem shift_or (cp x : Nat) : cp <<< 6 ||| (x &&& 0x3f) = cp * 64 + x % 64 := by
  have hMod : x &&& 0x3f = x % 64 := Nat.and_two_pow_sub_one_eq_mod x 6
  have hLess : x % 64 < 2 ^ 6 := Nat.mod_lt x (by decide)
  rw [hMod, Nat.shiftLeft_eq, Nat.mul_comm, ← Nat.two_pow_add_eq_or_of_lt hLess]

theorem continued_cons {x : UInt8} (hLow : 0x80 ≤ x.toNat) (hHigh : x.toNat < 0xc0) (need cp : Nat)
  (rest : List UInt8) :
  continued (need + 1) cp (x :: rest) = continued need (cp * 64 + x.toNat % 64) rest := by
  have hByte := (and_c0_iff x).mpr ⟨hLow, hHigh⟩
  simp only [continued, hByte, ne_eq, not_true_eq_false, if_false, shift_or]

variable
    {need : Nat} {bytes : List UInt8}

theorem continued_cons_eq_some
  {cp result : Nat} (hSome : continued (need + 1) cp bytes = some result) :
  ∃ x rest, bytes = x :: rest ∧ 0x80 ≤ x.toNat ∧ x.toNat < 0xc0 ∧
    continued need (cp * 64 + x.toNat % 64) rest = some result := by
  cases bytes with
  | nil => cases hSome
  | cons x rest =>
    by_cases hByte : x.toNat &&& 0xc0 = 0x80
    · rcases (and_c0_iff x).mp hByte with ⟨hLow, hHigh⟩
      rw [continued_cons hLow hHigh] at hSome
      exact ⟨x, rest, rfl, hLow, hHigh, hSome⟩
    · simp only [continued, hByte, ne_eq, not_false_eq_true, if_true, reduceCtorEq] at hSome

variable {c : UInt8}

theorem utf8Lead_one (hLow : 0xc2 ≤ c.toNat) (hHigh : c.toNat ≤ 0xdf) :
  utf8Lead c = some (1, 0x80, c.toNat - 0xc0) := by
  have hBits : c.toNat &&& 0x1f = c.toNat % 32 := Nat.and_two_pow_sub_one_eq_mod c.toNat 5
  have hPayload : c.toNat % 32 = c.toNat - 0xc0 := by omega
  simp only [utf8Lead, hLow, hHigh, hBits, hPayload, and_self, if_true]

theorem utf8Lead_two (hLow : 0xe0 ≤ c.toNat) (hHigh : c.toNat ≤ 0xef) :
  utf8Lead c = some (2, 0x800, c.toNat - 0xe0) := by
  have hBits : c.toNat &&& 0x0f = c.toNat % 16 := Nat.and_two_pow_sub_one_eq_mod c.toNat 4
  have hPayload : c.toNat % 16 = c.toNat - 0xe0 := by omega
  have hNot : ¬(0xc2 ≤ c.toNat ∧ c.toNat ≤ 0xdf) := by omega
  simp only [utf8Lead, if_neg hNot, hLow, hHigh, hBits, hPayload, and_self, if_true]

theorem utf8Lead_three (hLow : 0xf0 ≤ c.toNat) (hHigh : c.toNat ≤ 0xf4) :
  utf8Lead c = some (3, 0x10000, c.toNat - 0xf0) := by
  have hBits : c.toNat &&& 0x07 = c.toNat % 8 := Nat.and_two_pow_sub_one_eq_mod c.toNat 3
  have hPayload : c.toNat % 8 = c.toNat - 0xf0 := by omega
  have hNot : ¬(0xc2 ≤ c.toNat ∧ c.toNat ≤ 0xdf) := by omega
  have hNor : ¬(0xe0 ≤ c.toNat ∧ c.toNat ≤ 0xef) := by omega
  simp only [utf8Lead, if_neg hNot, if_neg hNor, hLow, hHigh, hBits, hPayload, and_self, if_true]

theorem utf8Lead_cases {min bits : Nat} (hLead : utf8Lead c = some (need, min, bits)) :
  (need = 1 ∧ min = 0x80 ∧ bits = c.toNat - 0xc0 ∧ 0xc2 ≤ c.toNat ∧ c.toNat ≤ 0xdf) ∨
    (need = 2 ∧ min = 0x800 ∧ bits = c.toNat - 0xe0 ∧ 0xe0 ≤ c.toNat ∧ c.toNat ≤ 0xef) ∨
    (need = 3 ∧ min = 0x10000 ∧ bits = c.toNat - 0xf0 ∧ 0xf0 ≤ c.toNat ∧ c.toNat ≤ 0xf4) := by
  by_cases hOne : 0xc2 ≤ c.toNat ∧ c.toNat ≤ 0xdf
  · rw [utf8Lead_one hOne.1 hOne.2] at hLead
    cases hLead
    exact .inl ⟨rfl, rfl, rfl, hOne⟩
  by_cases hTwo : 0xe0 ≤ c.toNat ∧ c.toNat ≤ 0xef
  · rw [utf8Lead_two hTwo.1 hTwo.2] at hLead
    cases hLead
    exact .inr (Or.inl ⟨rfl, rfl, rfl, hTwo⟩)
  by_cases hThree : 0xf0 ≤ c.toNat ∧ c.toNat ≤ 0xf4
  · rw [utf8Lead_three hThree.1 hThree.2] at hLead
    cases hLead
    exact .inr (Or.inr ⟨rfl, rfl, rfl, hThree⟩)
  · simp only [utf8Lead, if_neg hOne, if_neg hTwo, if_neg hThree, reduceCtorEq] at hLead

-- Sequences and Characters

open UnicodeText

theorem utf8SequenceLength_of_continued
  {rest : List UInt8} {min bits cp : Nat} (hLead : utf8Lead c = some (need, min, bits))
  (hCp : continued need bits rest = some cp) (hMin : min ≤ cp) (hValid : cp.isValidChar) :
  utf8SequenceLength (c :: rest) = need + 1 := by
  unfold Nat.isValidChar at hValid
  have hNot : ¬(cp < min ∨ cp > 0x10ffff ∨ (cp ≥ 0xd800 ∧ cp ≤ 0xdfff)) := by omega
  simp only [utf8SequenceLength, hLead, hCp, if_neg hNot]

theorem utf8SequenceLength_encode (char : Char) (rest : List UInt8) (hLarge : 0x80 ≤ char.toNat) :
  utf8SequenceLength (String.utf8EncodeChar char ++ rest) = (String.utf8EncodeChar char).length ∧
    ∃ c tail, String.utf8EncodeChar char = c :: tail ∧ 0x80 ≤ c.toNat := by
  have hValid : char.toNat.isValidChar := char.valid
  have hBound : char.toNat < 0x110000 := by
    unfold Nat.isValidChar at hValid
    omega
  have hByte : ∀ n : Nat, n < 256 → (UInt8.ofNat n).toNat = n := by
    intro n hn
    rw [UInt8.toNat_ofNat', Nat.mod_eq_of_lt hn]
  unfold String.utf8EncodeChar
  change _ ≤ char.val.toNat at hLarge
  change char.val.toNat.isValidChar at hValid
  change char.val.toNat < _ at hBound
  generalize char.val.toNat = v at hLarge hValid hBound
  simp only
  rw [if_neg (by omega : ¬v ≤ 0x7f)]
  by_cases hTwo : v ≤ 0x7ff
  · rw [if_pos hTwo]
    have hLead := hByte (v / 64 % 0x20 + 0xc0) (by omega)
    have hNext := hByte (v % 0x40 + 0x80) (by omega)
    refine ⟨?_, _, _, rfl, by omega⟩
    have hCp : continued 1 ((UInt8.ofNat (v / 64 % 0x20 + 0xc0)).toNat - 0xc0)
        (UInt8.ofNat (v % 0x40 + 0x80) :: rest) = some v := by
      rw [continued_cons (by omega) (by omega), hLead, hNext]
      change some _ = some _
      congr 1
      omega
    exact utf8SequenceLength_of_continued (utf8Lead_one (by omega) (by omega)) hCp hLarge hValid
  rw [if_neg hTwo]
  by_cases hThree : v ≤ 0xffff
  · rw [if_pos hThree]
    have hLead := hByte (v / 4096 % 0x10 + 0xe0) (by omega)
    have hNext := hByte (v / 64 % 0x40 + 0x80) (by omega)
    have hLast := hByte (v % 0x40 + 0x80) (by omega)
    refine ⟨?_, _, _, rfl, by omega⟩
    have hCp : continued 2 ((UInt8.ofNat (v / 4096 % 0x10 + 0xe0)).toNat - 0xe0)
        (UInt8.ofNat (v / 64 % 0x40 + 0x80) :: UInt8.ofNat (v % 0x40 + 0x80) :: rest) = some v := by
      rw [continued_cons (by omega) (by omega), continued_cons (by omega) (by omega), hLead, hNext,
        hLast]
      change some _ = some _
      congr 1
      omega
    exact utf8SequenceLength_of_continued (utf8Lead_two (by omega) (by omega)) hCp
      (by omega : 0x800 ≤ v) hValid
  · rw [if_neg hThree]
    have hLead := hByte (v / 262144 % 0x08 + 0xf0) (by omega)
    have hNext := hByte (v / 4096 % 0x40 + 0x80) (by omega)
    have hThird := hByte (v / 64 % 0x40 + 0x80) (by omega)
    have hLast := hByte (v % 0x40 + 0x80) (by omega)
    refine ⟨?_, _, _, rfl, by omega⟩
    have hCp : continued 3 ((UInt8.ofNat (v / 262144 % 0x08 + 0xf0)).toNat - 0xf0)
        (UInt8.ofNat (v / 4096 % 0x40 + 0x80) ::
          UInt8.ofNat (v / 64 % 0x40 + 0x80) ::
          UInt8.ofNat (v % 0x40 + 0x80) :: rest) = some v := by
      rw [continued_cons (by omega) (by omega), continued_cons (by omega) (by omega),
        continued_cons (by omega) (by omega), hLead, hNext, hThird, hLast]
      change some _ = some _
      congr 1
      omega
    exact utf8SequenceLength_of_continued (utf8Lead_three (by omega) (by omega)) hCp
      (by omega : 0x10000 ≤ v) hValid

theorem eq_ofNat {byte : UInt8} {n : Nat} (hByte : byte.toNat = n) : byte = UInt8.ofNat n := by
  rw [← hByte, UInt8.ofNat_toNat]

theorem encode_of_utf8SequenceLength (hSize : utf8SequenceLength bytes ≠ 0) :
  ∃ char rest, bytes = String.utf8EncodeChar char ++ rest ∧
      utf8SequenceLength bytes = (String.utf8EncodeChar char).length := by
  cases bytes with
  | nil => exact absurd rfl hSize
  | cons c rest =>
  cases hLead : utf8Lead c with
  | none => simp only [utf8SequenceLength, hLead, ne_eq, not_true_eq_false] at hSize
  | some lead =>
  rcases lead with ⟨need, min, bits⟩
  cases hCp : continued need bits rest with
  | none => simp only [utf8SequenceLength, hLead, hCp, ne_eq, not_true_eq_false] at hSize
  | some cp =>
  by_cases hBad : cp < min ∨ cp > 0x10ffff ∨ (cp ≥ 0xd800 ∧ cp ≤ 0xdfff)
  · simp only [utf8SequenceLength, hLead, hCp, if_pos hBad, ne_eq, not_true_eq_false] at hSize
  have hValid : cp.isValidChar := by
    unfold Nat.isValidChar
    omega
  have hMin : min ≤ cp := by omega
  have hLen := utf8SequenceLength_of_continued hLead hCp hMin hValid
  have hChar : (Char.ofNat cp).val.toNat = cp := toNat_charOfNat hValid
  refine ⟨Char.ofNat cp, ?_⟩
  rw [hLen]
  unfold String.utf8EncodeChar
  rw [hChar]
  simp only
  rcases utf8Lead_cases hLead with ⟨hNeed, hLeast, hBits, hLow, hHigh⟩ |
    ⟨hNeed, hLeast, hBits, hLow, hHigh⟩ | ⟨hNeed, hLeast, hBits, hLow, hHigh⟩
  · subst hNeed
    rcases continued_cons_eq_some hCp with ⟨x, tail, rfl, hX, hX', hEnd⟩
    have hValue := Option.some.inj hEnd
    rw [if_neg (by omega), if_pos (by omega)]
    refine ⟨tail, ?_, rfl⟩
    rw [eq_ofNat (by omega : c.toNat = cp / 64 % 0x20 + 0xc0),
      eq_ofNat (by omega : x.toNat = cp % 0x40 + 0x80)]
    rfl
  · subst hNeed
    rcases continued_cons_eq_some hCp with ⟨x, tail, rfl, hX, hX', hRest⟩
    rcases continued_cons_eq_some hRest with ⟨y, tail, rfl, hY, hY', hEnd⟩
    have hValue := Option.some.inj hEnd
    rw [if_neg (by omega), if_neg (by omega), if_pos (by omega)]
    refine ⟨tail, ?_, rfl⟩
    rw [eq_ofNat (by omega : c.toNat = cp / 4096 % 0x10 + 0xe0),
      eq_ofNat (by omega : x.toNat = cp / 64 % 0x40 + 0x80),
      eq_ofNat (by omega : y.toNat = cp % 0x40 + 0x80)]
    rfl
  · subst hNeed
    rcases continued_cons_eq_some hCp with ⟨x, tail, rfl, hX, hX', hRest⟩
    rcases continued_cons_eq_some hRest with ⟨y, tail, rfl, hY, hY', hMore⟩
    rcases continued_cons_eq_some hMore with ⟨z, tail, rfl, hZ, hZ', hEnd⟩
    have hValue := Option.some.inj hEnd
    rw [if_neg (by omega), if_neg (by omega), if_neg (by omega)]
    refine ⟨tail, ?_, rfl⟩
    rw [eq_ofNat (by omega : c.toNat = cp / 262144 % 0x08 + 0xf0),
      eq_ofNat (by omega : x.toNat = cp / 4096 % 0x40 + 0x80),
      eq_ofNat (by omega : y.toNat = cp / 64 % 0x40 + 0x80),
      eq_ofNat (by omega : z.toNat = cp % 0x40 + 0x80)]
    rfl

-- Valid Bytes

theorem validFrom_ascii (hAscii : c.toNat < 0x80) (fuel : Nat) (rest : List UInt8) :
  validFrom (fuel + 1) (c :: rest) = validFrom fuel rest :=
  if_pos hAscii

theorem utf8EncodeChar_of_ascii {char : Char} (hSmall : char.toNat < 0x80) :
  String.utf8EncodeChar char = [UInt8.ofNat char.toNat] := by
  unfold String.utf8EncodeChar
  exact if_pos (Nat.le_of_lt_succ hSmall)

theorem validFrom_encodeUtf8 (text : List Char) {fuel : Nat} (hFuel : text.length ≤ fuel) :
  validFrom fuel (encodeUtf8 text) = true := by
  induction text generalizing fuel with
  | nil =>
    change validFrom fuel [] = true
    cases fuel <;> rfl
  | cons char text ih =>
    cases fuel with
    | zero => cases hFuel
    | succ fuel =>
      have hRest := ih (Nat.le_of_succ_le_succ hFuel)
      change validFrom (fuel + 1) (String.utf8EncodeChar char ++ encodeUtf8 text) = true
      by_cases hSmall : char.toNat < 0x80
      · rw [utf8EncodeChar_of_ascii hSmall, singleton_append, validFrom_ascii]
        · exact hRest
        · rw [UInt8.toNat_ofNat']
          omega
      · rcases utf8SequenceLength_encode char (encodeUtf8 text) (by omega) with
          ⟨hLen, c, tail, hChar, hFst⟩
        rw [hChar] at hLen ⊢
        rw [cons_append] at hLen ⊢
        unfold validFrom
        rw [if_neg (by omega), hLen]
        simp only
        rw [if_neg (by exact Nat.succ_ne_zero _), ← cons_append, drop_left]
        exact hRest

theorem encode_of_validFrom {fuel : Nat} (hValid : validFrom fuel bytes = true) :
  ∃ text, bytes = encodeUtf8 text := by
  induction fuel generalizing bytes with
  | zero =>
    cases bytes with
    | nil => exact ⟨[], rfl⟩
    | cons c rest => cases hValid
  | succ fuel ih =>
    cases bytes with
    | nil => exact ⟨[], rfl⟩
    | cons c rest =>
      by_cases hAscii : c.toNat < 0x80
      · rw [validFrom_ascii hAscii] at hValid
        rcases ih hValid with ⟨text, hText⟩
        have hNat : (Char.ofNat c.toNat).toNat = c.toNat :=
          toNat_charOfNat (by
            unfold Nat.isValidChar
            omega)
        refine ⟨Char.ofNat c.toNat :: text, ?_⟩
        unfold encodeUtf8 at hText ⊢
        rw [flatMap_cons, ← hText, utf8EncodeChar_of_ascii (by omega), hNat, UInt8.ofNat_toNat]
        rfl
      · unfold validFrom at hValid
        rw [if_neg hAscii] at hValid
        simp only at hValid
        split at hValid
        · cases hValid
        · rename_i hSize
          rcases encode_of_utf8SequenceLength hSize with ⟨char, tail, hBytes, hLen⟩
          rw [hLen, hBytes, drop_left] at hValid
          rcases ih hValid with ⟨text, hText⟩
          refine ⟨char :: text, ?_⟩
          rw [hBytes, hText]
          rfl

/- The check accepts exactly the encodings of characters. -/
theorem validUtf8_iff (bytes : List UInt8) :
  validUtf8 bytes = true ↔ ∃ text, bytes = encodeUtf8 text := by
  constructor
  · exact encode_of_validFrom
  · rintro ⟨text, rfl⟩
    apply validFrom_encodeUtf8
    induction text with
    | nil => exact Nat.le_refl 0
    | cons char text ih =>
      change _ ≤ (String.utf8EncodeChar char ++ encodeUtf8 text).length
      rw [length_append, length_cons]
      have hPos := length_pos_of_ne_nil (String.utf8EncodeChar_ne_nil (c := char))
      omega

end TsStack.Cbor
