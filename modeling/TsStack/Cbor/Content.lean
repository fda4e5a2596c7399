import TsStack.Cbor.Header

/-
  What a head begins: texts, numbers, byte strings and links
  are read from their encodings, and from nothing else.
-/

-- Texts

open List

namespace TsStack.Cbor

open ListParser UnicodeText

theorem decodeText_textBytes {text : CborText} (hText : isWellFormed text = true) :
  decodeText (textBytes text) = pure text := by
  have hValid : validUtf8 (textBytes text) = true := (validUtf8_iff _).mpr ⟨scalars text, rfl⟩
  unfold decodeText
  rw [if_pos hValid]
  unfold textBytes
  rw [decodeUtf8_encodeUtf8, Option.getD_some, units_scalars text hText]

theorem parses_decodeText (bytes : List UInt8) : (decodeText bytes).Parses fun text tokens =>
    tokens = [] ∧ isWellFormed text = true ∧ textBytes text = bytes := by
  unfold decodeText
  apply Parses.ite
  · intro hValid
    rcases (validUtf8_iff bytes).mp hValid with ⟨chars, rfl⟩
    rw [decodeUtf8_encodeUtf8, Option.getD_some]
    apply parses_pure
    rcases scalars_units chars with ⟨hScalars, hWf⟩
    refine ⟨rfl, hWf, ?_⟩
    unfold textBytes
    rw [hScalars]
  · intro _
    exact parses_fail _ _

variable {total : Nat}

theorem reads_count {n : Nat} (hCount : n ≤ total) : (count total n).Reads n [] := by
  unfold count
  rw [if_neg (Nat.not_lt.mpr hCount)]
  exact reads_pure n

theorem parses_count (total v : Nat) :
  (count total v).Parses fun n tokens => tokens = [] ∧ n = v := by
  unfold count
  apply Parses.ite
  · intro _
    exact parses_fail _ _
  · intro _
    exact parses_pure ⟨rfl, rfl⟩

theorem reads_counted {α : Type} {bytes : List UInt8} (hLen : bytes.length ≤ total) {value : α}
  {finish : List UInt8 → CborReader α} (hFinish : (finish bytes).Reads value []) : (do
    let n ← count total bytes.length
    let taken ← ListParser.take truncated n
    finish taken : CborReader α).Reads value bytes := by
  have hTaken := (reads_take truncated bytes).bind_nil hFinish
  exact (reads_count hLen).bind hTaken

theorem parses_counted
  {α : Type} {v : Nat} {R : α → List UInt8 → Prop} {finish : List UInt8 → CborReader α} (hFinish :
    ∀ bytes : List UInt8, bytes.length = v → (finish bytes).Parses fun value more =>
        R value (bytes ++ more)) :
  (do
    let n ← count total v
    let taken ← ListParser.take truncated n
    finish taken : CborReader α).Parses R := by
  apply (parses_count total v).bind
  rintro n _ ⟨rfl, rfl⟩
  apply (parses_take truncated n).bind
  rintro bytes _ ⟨rfl, hLen⟩
  exact hFinish bytes hLen

theorem length_lt_of_le {n : Nat} (hTotal : total < 2 ^ 64) (hLen : n ≤ total) : n < 2 ^ 64 :=
  Nat.lt_of_le_of_lt hLen hTotal

theorem reads_readKey (hTotal : total < 2 ^ 64) {key : CborText} (hKey : isWellFormed key = true)
  (hLen : (textBytes key).length ≤ total) : (readKey total).Reads key (encodedText key) := by
  have hHead := reads_header (by decide : 3 < 7) (length_lt_of_le hTotal hLen)
  refine hHead.bind ?_
  simp only [ne_eq, not_true_eq_false, if_false]
  apply reads_counted hLen
  rw [decodeText_textBytes hKey]
  exact reads_pure key

theorem parses_readKey (total : Nat) : (readKey total).Parses fun key tokens =>
    isWellFormed key = true ∧ tokens = encodedText key := by
  apply parses_head.bind
  intro h tokens hRead
  apply Parses.ite
  · intro _
    exact parses_fail _ _
  intro hMajor
  have hThree : h.major = 3 := not_not.mp hMajor
  rcases hRead.eq_header (by omega) with ⟨hTokens, -⟩
  apply parses_counted
  intro bytes hBytes
  apply (parses_decodeText bytes).mono
  rintro key _ ⟨rfl, hKey, rfl⟩
  refine ⟨hKey, ?_⟩
  unfold encodedText
  rw [append_nil, hTokens, hThree, hBytes]

theorem encodedText_injective
  {left right : CborText} (hLeft : isWellFormed left = true) (hRight : isWellFormed right = true)
  (hSize : (encodedText left).length < 2 ^ 64) (hBytes : encodedText left = encodedText right) :
  left = right := by
  have hBound : ∀ text : CborText, (textBytes text).length ≤ (encodedText text).length := by
    intro text
    unfold encodedText
    rw [length_append]
    omega
  have hFst := reads_readKey hSize hLeft (hBound left) []
  have hSnd := reads_readKey hSize hRight (by rw [hBytes]; exact hBound right) []
  rw [← hBytes, hFst] at hSnd
  exact (Prod.mk.inj (Except.ok.inj hSnd)).1

-- Leaves

def isContainer : StrictCborValue → Bool
| .array _ => true
| .map _ => true
| _ => false

def encodeLeaf : StrictCborValue → Encoded :=
  encodeWith encodeFloat (fun _ => .error tooDeep) (fun _ => .error tooDeep)

variable {value : StrictCborValue}

theorem encodeWith_of_leaf
  (hLeaf : isContainer value = false) (array : List StrictCborValue → Encoded)
  (map : List (CborText × StrictCborValue) → Encoded) :
  encodeWith encodeFloat array map value = encodeLeaf value := by
  cases value with
  | array items => cases hLeaf
  | map entries => cases hLeaf
  | boolean value => cases value <;> rfl
  | _ => rfl

theorem encodeInteger_nat {argument : Nat} (hArg : argument < 2 ^ 64) :
  encodeInteger (argument : Int) = .ok (header 0 argument) := by
  have hNat : ((argument : Int)).toNat = argument := Int.toNat_natCast argument
  unfold encodeInteger
  rw [if_pos (Int.natCast_nonneg argument), hNat, if_neg]
  unfold MAX_UINT64
  omega

theorem encodeInteger_negative {argument : Nat} (hArg : argument < 2 ^ 64) :
  encodeInteger (-1 - (argument : Int)) = .ok (header 1 argument) := by
  have hNat : (-1 - (-1 - (argument : Int))).toNat =
    argument := by omega
  unfold encodeInteger
  rw [if_neg (by omega)]
  simp only [hNat]
  rw [if_neg]
  unfold MAX_UINT64
  omega

variable {tokens : List UInt8}

theorem encodeInteger_cases {value : Int} (hEnc : encodeInteger value = .ok tokens) :
  ∃ argument : Nat, argument < 2 ^ 64 ∧ ((value = argument ∧ tokens = header 0 argument) ∨
      (value = -1 - (argument : Int) ∧ tokens = header 1 argument)) := by
  unfold encodeInteger MAX_UINT64 at hEnc
  split at hEnc
  · rename_i hNonneg
    split at hEnc
    · cases hEnc
    · rename_i hRange
      refine ⟨value.toNat, by omega, .inl ⟨by omega, ?_⟩⟩
      exact (Except.ok.inj hEnc).symm
  · rename_i hNegative
    simp only at hEnc
    split at hEnc
    · cases hEnc
    · rename_i hRange
      refine ⟨(-1 - value).toNat, by omega, .inr ⟨by omega, ?_⟩⟩
      exact (Except.ok.inj hEnc).symm

-- Reading Content

variable {total : Nat} {arrayBody mapBody : Nat → CborReader StrictCborValue}

variable
    {h : Head} {headTokens : List UInt8}

theorem reads_content {more : List UInt8} (hHead : head.Reads h headTokens) (hTag : h.major ≠ 6)
  (hCont : (decodeContent total arrayBody mapBody h).Reads value more) :
  (decodeWith total arrayBody mapBody).Reads value (headTokens ++ more) := by
  refine hHead.bind ?_
  rw [if_neg hTag]
  exact hCont

theorem reads_simple
  {info : Nat} (hInfo : info < 24) (hValue : decodeSimpleOrFloat info info = pure value) :
  (decodeWith total arrayBody mapBody).Reads value [headByte 7 info] := by
  have hSeven : (7 : Nat) < 8 := by decide
  have hTag : (7 : Nat) ≠ 6 := by decide
  have hRead : HeadRead ⟨7, info, info⟩ [headByte 7 info] := ⟨hSeven, .inl ⟨hInfo, rfl, rfl⟩⟩
  have hCont : (decodeContent total arrayBody mapBody ⟨7, info, info⟩).Reads value [] := by
    change (decodeSimpleOrFloat info info).Reads value []
    rw [hValue]
    exact reads_pure value
  exact reads_content hRead.reads hTag hCont

theorem reads_float {bits : UInt64} (hFinite : isFinite bits = true) :
  (decodeWith total arrayBody mapBody).Reads (.number bits) (0xfb :: bigEndian bits.toNat 8) := by
  have hSeven : (7 : Nat) < 8 := by decide
  have hTag : (7 : Nat) ≠ 6 := by decide
  have hBits : bits.toNat < 256 ^ 8 := bits.toNat_lt
  have hRead : HeadRead ⟨7, 27, bits.toNat⟩ (headByte 7 27 :: bigEndian bits.toNat 8) :=
    ⟨hSeven, .inr ⟨(by decide : 24 ≤ 27), Nat.le_refl 27,
      bigEndian bits.toNat 8, length_bigEndian _ _, (bigEndianValue_bigEndian hBits).symm, rfl,
      fun _ hByte => absurd hByte.1 (by decide : ¬(27 : Nat) = 24), fun hNot => absurd rfl hNot⟩⟩
  have hCont :
      (decodeContent total arrayBody mapBody ⟨7, 27, bits.toNat⟩).Reads (.number bits) [] := by
    change (decodeSimpleOrFloat 27 bits.toNat).Reads _ []
    unfold decodeSimpleOrFloat
    rw [if_pos rfl, UInt64.ofNat_toNat, if_pos hFinite]
    exact reads_pure _
  have hReads := reads_content hRead.reads hTag hCont
  rw [append_nil] at hReads
  exact hReads

theorem reads_link (hTotal : total < 2 ^ 64) {cid : List UInt8} (hCid : isCid cid = true)
  (hLen : cid.length ≤ total) : (decodeWith total arrayBody mapBody).Reads (.link cid)
    (header 6 CID_TAG ++ (header 2 cid.length ++ cid)) := by
  have hTag := reads_header (by decide : 6 < 7) (by decide : CID_TAG < 2 ^ 64)
  have hHead := reads_header (by decide : 2 < 7) (length_lt_of_le hTotal hLen)
  have hSkip : (skipTags (total + 1) false).Reads (false, ⟨2, infoOf cid.length, cid.length⟩)
        (header 2 cid.length) := by
    apply hHead.bind_nil
    have hMajor : (2 : Nat) ≠ 6 := by decide
    rw [if_pos hMajor]
    exact reads_pure _
  have hCont :
      (decodeContent total arrayBody mapBody ⟨2, infoOf cid.length, cid.length⟩).Reads (.bytes cid)
        cid :=
    reads_counted hLen (reads_pure _)
  refine hTag.bind ?_
  have hSix : (6 : Nat) = 6 := rfl
  rw [if_pos hSix]
  unfold decodeLink
  rw [if_neg (not_not.mpr rfl)]
  refine hSkip.bind ?_
  apply hCont.bind_nil
  unfold linkOf
  simp only
  rw [if_pos ⟨trivial, hCid⟩]
  exact reads_pure _

theorem reads_leaf (hTotal : total < 2 ^ 64) (hLeaf : isContainer value = false)
  (hEnc : encodeLeaf value = .ok tokens) (hLen : tokens.length ≤ total) :
  (decodeWith total arrayBody mapBody).Reads value
    tokens := by
  cases value with
  | array items => cases hLeaf
  | map entries => cases hLeaf
  | integer value =>
    rcases encodeInteger_cases hEnc with ⟨argument, hArg, ⟨rfl, rfl⟩ | ⟨rfl, rfl⟩⟩
    · rw [← append_nil (header 0 argument)]
      exact reads_content
        (reads_header (by decide : 0 < 7) hArg)
        (by decide : (0 : Nat) ≠ 6) (reads_pure _)
    · rw [← append_nil (header 1 argument)]
      exact reads_content
        (reads_header (by decide : 1 < 7) hArg)
        (by decide : (1 : Nat) ≠ 6) (reads_pure _)
  | number bits =>
    change encodeFloat bits = .ok tokens at hEnc
    unfold encodeFloat at hEnc
    split at hEnc
    · rename_i hFinite
      rw [← Except.ok.inj hEnc]
      exact reads_float hFinite
    · cases hEnc
  | bytes value =>
    have hTokens := Except.ok.inj hEnc
    rw [← hTokens, length_append] at hLen
    have hBytes : value.length ≤ total := by omega
    rw [← hTokens]
    exact reads_content
      (reads_header (by decide : 2 < 7) (length_lt_of_le hTotal hBytes))
      (by decide : (2 : Nat) ≠ 6)
      (reads_counted hBytes (reads_pure _))
  | text value =>
    change encodeText value = .ok tokens at hEnc
    unfold encodeText at hEnc
    split at hEnc
    · rename_i hText
      have hTokens := Except.ok.inj hEnc
      rw [← hTokens] at hLen
      unfold encodedText at hLen
      rw [length_append] at hLen
      have hBytes : (textBytes value).length ≤ total := by omega
      rw [← hTokens]
      refine reads_content
        (reads_header (by decide : 3 < 7) (length_lt_of_le hTotal hBytes))
        (by decide : (3 : Nat) ≠ 6)
        (reads_counted hBytes ?_)
      rw [decodeText_textBytes hText]
      exact reads_pure _
    · cases hEnc
  | null =>
    rw [← Except.ok.inj hEnc]
    exact reads_simple (by decide : 22 < 24) rfl
  | boolean value =>
    cases value with
    | true =>
      rw [← Except.ok.inj hEnc]
      exact reads_simple (by decide : 21 < 24) rfl
    | false =>
      rw [← Except.ok.inj hEnc]
      exact reads_simple (by decide : 20 < 24) rfl
  | link cid =>
    change encodeLink cid = .ok tokens at hEnc
    unfold encodeLink at hEnc
    split at hEnc
    · rename_i hCid
      have hTokens := Except.ok.inj hEnc
      rw [← hTokens, length_cons, length_cons, length_append] at hLen
      rw [← hTokens]
      exact reads_link hTotal hCid (by omega)
    · cases hEnc

-- What Is Read

variable {R : StrictCborValue → List UInt8 → Prop}

structure Covers (arrayBody mapBody : Nat → CborReader StrictCborValue)
  (R : StrictCborValue → List UInt8 → Prop) : Prop where
  leaf : ∀ value tokens, isContainer value = false → encodeLeaf value = .ok tokens → R value tokens
  array : ∀ n, n < 2 ^ 64 → (arrayBody n).Parses fun value more => R value (header 4 n ++ more)
  map : ∀ n, n < 2 ^ 64 → (mapBody n).Parses fun value more => R value (header 5 n ++ more)
  bytes : ∀ cid tokens, R (.bytes cid) tokens → tokens = header 2 cid.length ++ cid

section

variable (hCovers : Covers arrayBody mapBody R) (hRead : HeadRead h headTokens)

include hCovers hRead

theorem parses_simple (hSeven : h.major = 7) : (decodeSimpleOrFloat h.info h.argument).Parses
    fun value more => R value (headTokens ++ more) := by
  rcases h with ⟨major, info, argument⟩
  simp only at hSeven
  subst hSeven
  unfold decodeSimpleOrFloat
  apply Parses.ite
  · intro hInfo
    apply Parses.ite
    · intro hFinite
      apply parses_pure
      rw [append_nil]
      rcases hRead.read with ⟨hShort, -⟩ | hLong
      · simp only at hShort hInfo
        omega
      rcases hLong with ⟨-, -, bytes, hLen, hArg, rfl, -⟩
      simp only at hInfo
      subst hInfo
      change bytes.length = 8 at hLen
      change argument = bigEndianValue bytes at hArg
      apply hCovers.leaf _ _ rfl
      change encodeFloat (UInt64.ofNat argument) = _
      unfold encodeFloat
      rw [if_pos hFinite]
      have hBound := bigEndianValue_lt bytes
      have hBytes := bigEndian_bigEndianValue bytes
      rw [hLen, ← hArg] at hBound hBytes
      have hSmall : argument < 2 ^ 64 := hBound
      have hNat : (UInt64.ofNat argument).toNat = argument := by
        rw [UInt64.toNat_ofNat', Nat.mod_eq_of_lt hSmall]
      have hFst : headByte 7 27 = 0xfb := by decide
      rw [hNat, hBytes, hFst]
    · intro _
      exact parses_fail _ _
  intro hNotFloat
  apply Parses.ite
  · intro _
    exact parses_fail _ _
  intro hNotShort
  -- A simple value is in the head byte itself.
  have hSimple : ∀ simple : Nat, simple < 24 → argument = simple →
        headTokens = [headByte 7 simple] := by
    intro simple hSmall hEq
    rcases hRead.read with ⟨-, hSame, hTokens⟩ | hLong
    · simp only at hSame
      rw [hTokens, ← hSame, hEq]
    · rcases hLong with ⟨hLow, hHigh, bytes, -, -, -, hLeast, -⟩
      have hNot := hLeast rfl
      simp only at hLow hHigh hNot hNotFloat hNotShort
      omega
  apply Parses.ite
  · intro hFalse
    apply parses_pure
    rw [hSimple 20 (by decide) hFalse]
    exact hCovers.leaf _ _ rfl rfl
  intro _
  apply Parses.ite
  · intro hTrue
    apply parses_pure
    rw [hSimple 21 (by decide) hTrue]
    exact hCovers.leaf _ _ rfl rfl
  intro _
  apply Parses.ite
  · intro hNull
    apply parses_pure
    rw [hSimple 22 (by decide) hNull]
    exact hCovers.leaf _ _ rfl rfl
  · intro _
    exact parses_fail _ _

theorem parses_decodeContent (hTag : h.major ≠ 6) : (decodeContent total arrayBody mapBody h).Parses
    fun value more => R value (headTokens ++ more) := by
  by_cases hSeven : h.major = 7
  · unfold decodeContent
    rw [hSeven]
    exact parses_simple hCovers hRead hSeven
  rcases hRead.eq_header hSeven with ⟨hTokens, hArg⟩
  have hMajor := hRead.major
  rcases h with ⟨major, info, argument⟩
  simp only at hTag hSeven hTokens hArg hMajor
  have hCases : major = 0 ∨ major = 1 ∨ major = 2 ∨ major = 3 ∨ major = 4 ∨ major = 5 := by omega
  rcases hCases with rfl | rfl | rfl | rfl | rfl | rfl
  · apply parses_pure
    rw [append_nil, hTokens]
    exact hCovers.leaf _ _ rfl (encodeInteger_nat hArg)
  · apply parses_pure
    rw [append_nil, hTokens]
    exact hCovers.leaf _ _ rfl (encodeInteger_negative hArg)
  · apply parses_counted
    intro bytes hBytes
    simp only at hBytes
    apply parses_pure
    rw [append_nil, hTokens, ← hBytes]
    exact hCovers.leaf _ _ rfl rfl
  · apply parses_counted
    intro bytes hBytes
    simp only at hBytes
    apply (parses_decodeText bytes).bind
    rintro text _ ⟨rfl, hText, rfl⟩
    apply parses_pure
    simp only [append_nil]
    apply hCovers.leaf _ _ rfl
    change encodeText text = _
    unfold encodeText encodedText
    rw [if_pos hText, hTokens, hBytes]
  · apply (parses_count total argument).bind
    rintro n _ ⟨rfl, rfl⟩
    rw [hTokens]
    exact hCovers.array n hArg
  · apply (parses_count total argument).bind
    rintro n _ ⟨rfl, rfl⟩
    rw [hTokens]
    exact hCovers.map n hArg

end

theorem parses_skipTags (fuel : Nat) (chained : Bool) :
  (skipTags fuel chained).Parses fun result tokens =>
    result.2.major ≠ 6 ∧ (chained = true → result.1 = true) ∧
      ∃ before headTokens, tokens = before ++ headTokens ∧ HeadRead result.2 headTokens ∧
          (result.1 = false → before = []) := by
  induction fuel generalizing chained with
  | zero => exact parses_fail _ _
  | succ fuel ih =>
    apply parses_head.bind
    intro h tokens hRead
    apply Parses.ite
    · intro hMajor
      apply parses_pure
      rw [append_nil]
      exact ⟨hMajor, id, [], tokens, rfl, hRead, fun _ => rfl⟩
    intro _
    apply Parses.ite
    · intro _
      exact parses_fail _ _
    · intro _
      apply (ih true).mono
      rintro result more ⟨hMajor, hChained, before, headTokens, hMore, hHead, -⟩
      have hTrue := hChained rfl
      refine ⟨hMajor, fun _ => hTrue, tokens ++ before, headTokens, ?_, hHead, ?_⟩
      · rw [hMore, append_assoc]
      · intro hFalse
        rw [hTrue] at hFalse
        cases hFalse

theorem parses_linkOf {chained : Bool} {content : StrictCborValue} {before : List UInt8}
  (hUnchained : chained = false → before = []) (hCovers : Covers arrayBody mapBody R)
  (hCont : R content tokens) : (linkOf chained content).Parses fun value more =>
    R value (header 6 CID_TAG ++ (before ++ tokens ++ more)) := by
  cases content with
  | bytes cid =>
    apply Parses.ite
    · rintro ⟨hFalse, hCid⟩
      apply parses_pure
      rw [hUnchained hFalse, append_nil, nil_append, hCovers.bytes cid tokens hCont]
      apply hCovers.leaf _ _ rfl
      exact if_pos hCid
    · intro _
      exact parses_fail _ _
  | _ => exact parses_fail _ _

theorem parses_decodeLink (hCovers : Covers arrayBody mapBody R) :
  (decodeLink total arrayBody mapBody CID_TAG).Parses
    fun value more => R value (header 6 CID_TAG ++ more) := by
  unfold decodeLink
  rw [if_neg (not_not.mpr rfl)]
  apply (parses_skipTags _ _).bind
  rintro ⟨chained, h⟩ _ ⟨hMajor, -, before, headTokens, rfl, hRead, hUnchained⟩
  apply (parses_decodeContent hCovers hRead hMajor).bind
  intro content more hCont
  apply (parses_linkOf hUnchained hCovers hCont).mono
  intro value rest hValue
  simpa only [append_assoc] using hValue

theorem parses_decodeWith (hCovers : Covers arrayBody mapBody R) :
  (decodeWith total arrayBody mapBody).Parses R := by
  apply parses_head.bind
  intro h tokens hRead
  apply Parses.ite
  · intro hTag
    by_cases hCid : h.argument = CID_TAG
    · rcases hRead.eq_header (by omega) with ⟨hTokens, -⟩
      rw [hTokens, hTag, hCid]
      exact parses_decodeLink hCovers
    · unfold decodeLink
      rw [if_pos hCid]
      exact parses_fail _ _
  · intro hTag
    exact parses_decodeContent hCovers hRead hTag

end TsStack.Cbor
