import TsStack.Cbor.StrictCbor

/-
  Headers: the reader takes exactly the minimal header of a
  major type and its argument.
-/

-- Big-Endian Numbers

open List

namespace TsStack.Cbor

open LittleEndian

theorem shift_or_byte (v : Nat) (x : UInt8) : v <<< 8 ||| x.toNat = x.toNat + 256 * v := by
  have hLess : x.toNat < 2 ^ 8 := x.toNat_lt
  rw [Nat.shiftLeft_eq, Nat.mul_comm, ← Nat.two_pow_add_eq_or_of_lt hLess]
  omega

variable (bytes : List UInt8)

theorem bigEndianValue_reverse : bigEndianValue bytes.reverse = leToNat bytes := by
  unfold bigEndianValue
  rw [foldl_reverse]
  induction bytes with
  | nil => rfl
  | cons x bytes ih =>
    rw [foldr_cons, ih, shift_or_byte]
    rfl

variable {value : Nat}

theorem bigEndianValue_bigEndian {size : Nat} (hValue : value < 256 ^ size) :
  bigEndianValue (bigEndian value size) = value := by
  unfold bigEndian
  rw [bigEndianValue_reverse, leToNat_leBytes hValue]

theorem length_bigEndian (value size : Nat) : (bigEndian value size).length = size := by
  unfold bigEndian
  rw [length_reverse, length_leBytes]

theorem bigEndian_bigEndianValue : bigEndian (bigEndianValue bytes) bytes.length = bytes := by
  have hValue := bigEndianValue_reverse bytes.reverse
  rw [reverse_reverse] at hValue
  unfold bigEndian
  rw [hValue, ← length_reverse, leBytes_leToNat, reverse_reverse]

theorem bigEndianValue_lt : bigEndianValue bytes < 256 ^ bytes.length := by
  have hValue := bigEndianValue_reverse bytes.reverse
  rw [reverse_reverse] at hValue
  rw [hValue, ← length_reverse]
  exact leToNat_lt _

-- Head Bytes

def headByte (major info : Nat) : UInt8 :=
  UInt8.ofNat (major <<< 5 ||| info)

variable {major info : Nat}

section

variable (hMajor : major < 8) (hInfo : info < 32)

include hMajor hInfo

theorem toNat_headByte : (headByte major info).toNat = major * 32 + info := by
  have hLess : info < 2 ^ 5 := hInfo
  unfold headByte
  rw [Nat.shiftLeft_eq, Nat.mul_comm, ← Nat.two_pow_add_eq_or_of_lt hLess, UInt8.toNat_ofNat']
  omega

theorem major_headByte : (headByte major info).toNat >>> 5 = major := by
  rw [toNat_headByte hMajor hInfo, Nat.shiftRight_eq_div_pow]
  omega

theorem info_headByte : (headByte major info).toNat &&& 0x1f = info := by
  have hMod := Nat.and_two_pow_sub_one_eq_mod (headByte major info).toNat 5
  rw [toNat_headByte hMajor hInfo] at hMod ⊢
  rw [hMod]
  omega

end

theorem eq_headByte (b : UInt8) : b = headByte (b.toNat >>> 5) (b.toNat &&& 0x1f) ∧
    b.toNat >>> 5 < 8 ∧ b.toNat &&& 0x1f < 32 := by
  have hByte := b.toNat_lt
  have hShift : b.toNat >>> 5 = b.toNat / 32 := Nat.shiftRight_eq_div_pow b.toNat 5
  have hMod : b.toNat &&& 0x1f = b.toNat % 32 := Nat.and_two_pow_sub_one_eq_mod b.toNat 5
  have hMajor : b.toNat >>> 5 < 8 := by omega
  have hInfo : b.toNat &&& 0x1f < 32 := by omega
  refine ⟨?_, hMajor, hInfo⟩
  rw [← UInt8.toNat_inj, toNat_headByte hMajor hInfo]
  omega

-- Heads

open ListParser

structure HeadRead (h : Head) (tokens : List UInt8) : Prop where
  major : h.major < 8
  read : (h.info < 24 ∧ h.argument = h.info ∧ tokens = [headByte h.major h.info]) ∨
      (24 ≤ h.info ∧ h.info ≤ 27 ∧ ∃ bytes, bytes.length = 1 <<< (h.info - 24) ∧
            h.argument = bigEndianValue bytes ∧ tokens = headByte h.major h.info :: bytes ∧
            (h.major = 7 → ¬(h.info = 24 ∧ h.argument < 32)) ∧
            (h.major ≠ 7 → leastArgument h.info ≤ h.argument))

theorem parses_byte : byte.Parses fun b tokens => tokens = [b] := by
  intro input b rest hRun
  cases input with
  | nil => cases hRun
  | cons first more =>
    cases hRun
    exact ⟨[b], rfl, rfl⟩

theorem reads_byte (b : UInt8) : byte.Reads b [b] :=
  fun _ => rfl

theorem parses_head : head.Parses HeadRead := by
  apply parses_byte.bind
  rintro b _ rfl
  rcases eq_headByte b with ⟨hByte, hMajor, hInfo⟩
  apply Parses.ite
  · intro hShort
    apply parses_pure
    refine ⟨hMajor, .inl ⟨hShort, rfl, ?_⟩⟩
    exact congrArg (fun b => [b]) hByte
  intro hLong
  apply Parses.ite
  · intro _
    exact parses_fail _ _
  intro hKnown
  have hLow : 24 ≤ b.toNat &&& 0x1f := by omega
  have hHigh : b.toNat &&& 0x1f ≤ 27 := by omega
  apply (parses_take truncated _).bind
  rintro bytes _ ⟨rfl, hLen⟩
  have hTokens : [b] ++ (bytes ++ []) = headByte (b.toNat >>> 5) (b.toNat &&& 0x1f) ::
          bytes := by
    rw [append_nil, ← hByte]
    rfl
  apply Parses.ite
  · intro hSeven
    apply Parses.ite
    · intro _
      exact parses_fail _ _
    · intro hSimple
      apply parses_pure
      refine ⟨hMajor, .inr ⟨hLow, hHigh, bytes, hLen, rfl, hTokens, fun _ => hSimple, ?_⟩⟩
      intro hNot
      exact absurd hSeven hNot
  · intro hNot
    apply Parses.ite
    · intro _
      exact parses_fail _ _
    · intro hLeast
      apply parses_pure
      refine ⟨hMajor, .inr ⟨hLow, hHigh, bytes, hLen, rfl,
        hTokens, ?_, fun _ => Nat.le_of_not_lt hLeast⟩⟩
      intro hSeven
      exact absurd hSeven hNot

theorem HeadRead.reads {h : Head} {tokens : List UInt8} (hRead : HeadRead h tokens) :
  head.Reads h tokens := by
  rcases h with ⟨major, info, argument⟩
  rcases hRead with ⟨hMajor, hShort | hLong⟩
  · rcases hShort with ⟨hInfo, hArg, rfl⟩
    simp only at hMajor hInfo hArg
    subst hArg
    have hBound : argument < 32 := by omega
    apply (reads_byte _).bind_nil
    rw [major_headByte hMajor hBound, info_headByte hMajor hBound]
    simp only [if_pos hInfo]
    exact reads_pure _
  · rcases hLong with ⟨hLow, hHigh, bytes, hLen, hArg, rfl, hSeven, hLeast⟩
    simp only at hMajor hLow hHigh hLen hArg
    simp only at hSeven hLeast
    have hBound : info < 32 := by omega
    refine (reads_byte (headByte major info)).bind ?_
    rw [major_headByte hMajor hBound, info_headByte hMajor hBound]
    simp only [if_neg (by omega : ¬info < 24), if_neg (by omega : ¬info > 27), ← hLen]
    apply (reads_take truncated bytes).bind_nil
    simp only [← hArg]
    by_cases hCase : major = 7
    · rw [if_pos hCase, if_neg (hSeven hCase)]
      exact reads_pure _
    · have hNot := hLeast hCase
      rw [if_neg hCase, if_neg (by omega)]
      exact reads_pure _

-- Minimal Headers

/- The additional info of a minimal header. -/
def infoOf (value : Nat) : Nat :=
  if value < 24 then value
  else if value < 0x100 then 24
  else if value < 0x10000 then 25
  else if value < 0x100000000 then 26
  else 27

theorem headRead_header (hMajor : major < 7) (hValue : value < 2 ^ 64) :
  HeadRead ⟨major, infoOf value, value⟩ (header major value) := by
  refine ⟨by simp only; omega, ?_⟩
  unfold header infoOf
  by_cases hShort : value < 24
  · left
    simp only [if_pos hShort]
    exact ⟨hShort, trivial, rfl⟩
  right
  simp only [if_neg hShort]
  have hSeven : ¬major = 7 := by omega
  by_cases hByte : value < 0x100
  · simp only [if_pos hByte]
    refine ⟨by decide, by decide, [UInt8.ofNat value], rfl, ?_, rfl,
      fun h => absurd h hSeven, fun _ => ?_⟩
    · change value = 0 <<< 8 ||| (UInt8.ofNat value).toNat
      rw [shift_or_byte, UInt8.toNat_ofNat']
      omega
    · change 24 ≤ value
      omega
  simp only [if_neg hByte]
  by_cases hTwo : value < 0x10000
  · simp only [if_pos hTwo]
    exact ⟨by decide, by decide, bigEndian value 2, length_bigEndian _ _,
      (bigEndianValue_bigEndian hTwo).symm, rfl, fun h => absurd h hSeven,
      fun _ => (by omega : 0x100 ≤ value)⟩
  simp only [if_neg hTwo]
  by_cases hFour : value < 0x100000000
  · simp only [if_pos hFour]
    exact ⟨by decide, by decide, bigEndian value 4, length_bigEndian _ _,
      (bigEndianValue_bigEndian hFour).symm, rfl, fun h => absurd h hSeven,
      fun _ => (by omega : 0x10000 ≤ value)⟩
  · simp only [if_neg hFour]
    exact ⟨by decide, by decide, bigEndian value 8, length_bigEndian _ _,
      (bigEndianValue_bigEndian hValue).symm, rfl, fun h => absurd h hSeven,
      fun _ => (by omega : 0x100000000 ≤ value)⟩

theorem reads_header (hMajor : major < 7) (hValue : value < 2 ^ 64) :
  head.Reads ⟨major, infoOf value, value⟩ (header major value) :=
  (headRead_header hMajor hValue).reads

theorem HeadRead.eq_header
  {h : Head} {tokens : List UInt8} (hRead : HeadRead h tokens) (hMajor : h.major ≠ 7) :
  tokens = header h.major h.argument ∧ h.argument < 2 ^ 64 := by
  rcases h with ⟨major, info, argument⟩
  rcases hRead with ⟨-, hShort | hLong⟩
  · rcases hShort with ⟨hInfo, hArg, rfl⟩
    simp only at hInfo hArg
    subst hArg
    unfold header
    simp only [if_pos hInfo]
    exact ⟨rfl, by omega⟩
  · rcases hLong with ⟨hLow, hHigh, bytes, hLen, hArg, rfl, -, hLeast⟩
    simp only at hMajor hLow hHigh hLen hArg hLeast
    have hMin := hLeast hMajor
    have hBound := bigEndianValue_lt bytes
    have hBytes := bigEndian_bigEndianValue bytes
    rw [← hArg] at hBound hBytes
    have hCases : info = 24 ∨ info = 25 ∨ info = 26 ∨ info = 27 := by omega
    unfold header
    rcases hCases with rfl | rfl | rfl | rfl
    · change bytes.length = 1 at hLen
      change 24 ≤ argument at hMin
      rw [hLen] at hBound hBytes
      have hSmall : argument < 0x100 := hBound
      simp only [if_neg (by omega : ¬argument < 24), if_pos hSmall]
      refine ⟨?_, by omega⟩
      rw [← hBytes]
      rfl
    · change bytes.length = 2 at hLen
      change 0x100 ≤ argument at hMin
      rw [hLen] at hBound hBytes
      have hSmall : argument < 0x10000 := hBound
      simp only [if_neg (by omega : ¬argument < 24),
        if_neg (by omega : ¬argument < 0x100), if_pos hSmall]
      refine ⟨?_, by omega⟩
      rw [hBytes]
      rfl
    · change bytes.length = 4 at hLen
      change 0x10000 ≤ argument at hMin
      rw [hLen] at hBound hBytes
      have hSmall : argument < 0x100000000 := hBound
      simp only [if_neg (by omega : ¬argument < 24), if_neg (by omega : ¬argument < 0x100),
        if_neg (by omega : ¬argument < 0x10000),
        if_pos hSmall]
      refine ⟨?_, by omega⟩
      rw [hBytes]
      rfl
    · change bytes.length = 8 at hLen
      change 0x100000000 ≤ argument at hMin
      rw [hLen] at hBound hBytes
      simp only [if_neg (by omega : ¬argument < 24), if_neg (by omega : ¬argument < 0x100),
        if_neg (by omega : ¬argument < 0x10000),
        if_neg (by omega : ¬argument < 0x100000000)]
      refine ⟨?_, hBound⟩
      rw [hBytes]
      rfl

theorem header_length_pos (major value : Nat) : 0 < (header major value).length := by
  unfold header
  simp only
  split
  · exact Nat.succ_pos _
  split
  · exact Nat.succ_pos _
  split
  · exact Nat.succ_pos _
  split
  · exact Nat.succ_pos _
  · exact Nat.succ_pos _

end TsStack.Cbor
