import TsStack.Cbor.KeyOrder

/-
  The decoder accepts exactly the canonical encodings: what it
  reads has ascending keys at every map, and is read from the
  only bytes that encode it.
-/

-- Canonical Values

open List

namespace TsStack.Cbor

def Canonical : Nat → StrictCborValue → Prop
| 0, value => isContainer value = false
| fuel + 1, .array items => ∀ item ∈ items, Canonical fuel item
| fuel + 1, .map entries => Ascending entries ∧ ∀ entry ∈ entries, Canonical fuel entry.2
| _ + 1, _ => True

variable {value : StrictCborValue}

theorem canonical_of_leaf (hLeaf : isContainer value = false) (fuel : Nat) :
  Canonical fuel value := by
  cases fuel with
  | zero => exact hLeaf
  | succ fuel =>
    cases value with
    | array items => cases hLeaf
    | map entries => cases hLeaf
    | _ => trivial

def encodeWire : Nat → StrictCborValue → Encoded :=
  encodeBy encodeFloat

theorem encodeWire_of_leaf (hLeaf : isContainer value = false) (fuel : Nat) :
  encodeWire fuel value = encodeLeaf value := by
  cases fuel with
  | zero => exact encodeWith_of_leaf hLeaf _ _
  | succ fuel => exact encodeWith_of_leaf hLeaf _ _

-- Entries

open ListParser

variable {total : Nat} {decode : CborReader StrictCborValue} {encode : StrictCborValue → Encoded}

def ReadsEncoded
  (total : Nat) (encode : StrictCborValue → Encoded) (decode : CborReader StrictCborValue)
  (value : StrictCborValue) : Prop :=
  ∀ tokens, encode value = .ok tokens → tokens.length ≤ total → decode.Reads value tokens

variable {parts : List (List UInt8)}

theorem reads_decodeEntries (hTotal : total < 2 ^ 64) {entries : CborEntries}
  (hKeys : ∀ entry ∈ entries, UnicodeText.isWellFormed entry.1 = true)
  (hAscending : Ascending entries)
  (hValues : ∀ entry ∈ entries, ReadsEncoded total encode decode entry.2)
  (hParts : List.Forall₂ (EntryTokens encode) entries parts)
  (hLen : parts.flatten.length ≤ total) (previous : Option (List UInt8))
  (hPrev : ∀ before ∈ previous, ∀ entry ∈ entries,
    compareBytes before (encodedText entry.1) < 0) :
  (decodeEntries total decode entries.length previous).Reads entries parts.flatten := by
  induction hParts generalizing previous with
  | nil => exact reads_pure []
  | @cons entry part entries parts hEntry _ ih =>
    rcases hEntry with ⟨value, hValue, rfl⟩
    rcases forall_mem_cons.mp hKeys with ⟨hKey, hRestKeys⟩
    rcases forall_mem_cons.mp hValues with ⟨hReads, hRestValues⟩
    rcases (ascending_cons _ _).mp hAscending with ⟨hFst, hRest⟩
    rw [flatten_cons, length_append, length_append] at hLen
    have hText : (textBytes entry.1).length ≤ total := by
      have hEnc : (textBytes entry.1).length ≤ (encodedText entry.1).length := by
        unfold encodedText
        rw [length_append]
        omega
      omega
    have hReadKey := (reads_readKey hTotal hKey hText).consumed
    have hReadValue := hReads value hValue (by omega)
    have hAscends : ascends previous (encodedText entry.1) = true := by
      cases previous with
      | none => rfl
      | some before => exact decide_eq_true (hPrev before rfl entry mem_cons_self)
    have hTail := ih hRestKeys hRest hRestValues (by omega) (some (encodedText entry.1)) (by
      rintro before hPre other hOther
      cases hPre
      exact hFst other hOther)
    rw [flatten_cons, append_assoc]
    refine hReadKey.bind ?_
    simp only [hAscends, if_true]
    exact hReadValue.bind (hTail.bind_nil (reads_pure _))

structure EntriesRead (R : StrictCborValue → List UInt8 → Prop) (previous : Option (List UInt8))
  (entries : CborEntries) (parts : List (List UInt8)) : Prop where
  keys : ∀ entry ∈ entries, UnicodeText.isWellFormed entry.1 = true
  ascending : Ascending entries
  previous : ∀ before ∈ previous, ∀ entry ∈ entries, compareBytes before (encodedText entry.1) < 0
  each :
    List.Forall₂ (fun entry part => ∃ value, R entry.2 value ∧ part = encodedText entry.1 ++ value)
      entries parts

theorem parses_decodeEntries
  {R : StrictCborValue → List UInt8 → Prop} (hDecode : decode.Parses R) (n : Nat)
  (previous : Option (List UInt8)) : (decodeEntries total decode n previous).Parses
    fun entries tokens =>
      entries.length = n ∧ ∃ parts, EntriesRead R previous entries parts ∧
          tokens = parts.flatten := by
  induction n generalizing previous with
  | zero =>
    apply parses_pure
    refine ⟨rfl, [], ⟨?_, .nil, ?_, .nil⟩, rfl⟩
    · intro entry hEntry
      exact absurd hEntry not_mem_nil
    · intro before _ entry hEntry
      exact absurd hEntry not_mem_nil
  | succ n ih =>
    apply (parses_readKey total).consumed.bind
    rintro ⟨encodedKey, key⟩ _ ⟨rfl, hKey, hTokens⟩
    simp only at hTokens
    subst hTokens
    apply Parses.ite
    · intro hAscends
      apply hDecode.bind
      intro value tokens hValue
      apply (ih (some (encodedText key))).bind
      rintro entries _ ⟨hCount, parts, hRead, rfl⟩
      apply parses_pure
      have hAscending : Ascending ((key, value) :: entries) :=
        (ascending_cons _ _).mpr ⟨hRead.previous _ rfl, hRead.ascending⟩
      refine ⟨by rw [length_cons, hCount], (encodedText key ++ tokens) :: parts,
        ⟨forall_mem_cons.mpr ⟨hKey, hRead.keys⟩, hAscending, ?_,
          .cons ⟨tokens, hValue, rfl⟩ hRead.each⟩, ?_⟩
      · rintro before hPre
        cases hPre
        exact compareBytes_lt_of_ascending (of_decide_eq_true hAscends) hAscending
      · rw [flatten_cons, append_nil, append_assoc]
    · intro _
      exact parses_fail _ _

-- Reading What Was Encoded

variable {arrayBody mapBody : Nat → CborReader StrictCborValue}

/- Nothing is read from no bytes. -/
theorem length_pos_of_reads
  {tokens : List UInt8} (hReads : (decodeWith total arrayBody mapBody).Reads value tokens) :
  0 < tokens.length := by
  cases tokens with
  | nil => cases hReads []
  | cons b tokens => exact Nat.succ_pos _

theorem length_le_flatten (hParts : ∀ part ∈ parts, 0 < part.length) :
  parts.length ≤ parts.flatten.length := by
  induction parts with
  | nil => exact Nat.le_refl 0
  | cons part parts ih =>
    rcases forall_mem_cons.mp hParts with ⟨hPart, hRest⟩
    have hTail := ih hRest
    rw [flatten_cons, length_append, length_cons]
    omega

theorem length_le_of_mem {part : List UInt8} (hPart : part ∈ parts) :
  part.length ≤ parts.flatten.length := by
  induction parts with
  | nil => cases hPart
  | cons first parts ih =>
    rw [flatten_cons, length_append]
    rcases mem_cons.mp hPart with rfl | hRest
    · omega
    · have hTail := ih hRest
      omega

theorem reads_container
  (hTotal : total < 2 ^ 64) {major n : Nat} {body : Nat → CborReader StrictCborValue}
  {more : List UInt8} (hMajor : major < 6) (hCont : ∀ info,
    decodeContent total arrayBody mapBody ⟨major, info, n⟩ = (do
        let n ← count total n
        body n))
  (hCount : n ≤ total) (hBody : (body n).Reads value more) :
  (decodeWith total arrayBody mapBody).Reads value (header major n ++ more) := by
  apply reads_content (reads_header (by omega) (length_lt_of_le hTotal hCount))
    (by simp only; omega)
  rw [hCont, ← nil_append more]
  exact (reads_count hCount).bind hBody

-- Both Directions

theorem reads_decodeArrayBody
  {items : List StrictCborValue} (hParts : List.Forall₂ decode.Reads items parts) :
  (decodeArrayBody decode items.length).Reads (.array items)
    parts.flatten :=
  (Reads.times_of_forall₂ hParts).bind_nil (reads_pure _)

theorem reads_encodedEntries (hTotal : total < 2 ^ 64) {entries : CborEntries} {tokens : List UInt8}
  (hAscending : Ascending entries)
  (hValues : ∀ entry ∈ entries, ReadsEncoded total encode decode entry.2)
  (hEnc : encodeMap encode entries = .ok tokens) (hLen : tokens.length ≤ total) :
  ∃ more, tokens = header 5 entries.length ++ more ∧ entries.length ≤ total ∧
      (decodeEntries total decode entries.length none).Reads entries more := by
  rcases encodeMap_eq_ok_iff.mp hEnc with ⟨hKeys, parts, hParts, rfl⟩
  rw [sortEntries_of_ascending hAscending] at hParts
  rw [length_append] at hLen
  have hCount : entries.length ≤ parts.flatten.length := by
    rw [hParts.length_eq]
    apply length_le_flatten
    intro part hPart
    rcases Traversal.exists_left hParts hPart with ⟨entry, -, value, -, rfl⟩
    have hHeader := header_length_pos 3 (textBytes entry.1).length
    unfold encodedText
    rw [length_append, length_append]
    omega
  refine ⟨_, rfl, by omega, ?_⟩
  exact reads_decodeEntries hTotal hKeys hAscending hValues hParts
    (by omega) none (fun before hPre => by cases hPre)

theorem reads_decodeValue (hTotal : total < 2 ^ 64) (fuel : Nat) (value : StrictCborValue)
  (hCanon : Canonical fuel value) :
  ReadsEncoded total (encodeWire fuel) (decodeValue total fuel) value := by
  induction fuel generalizing value with
  | zero =>
    intro tokens hEnc hLen
    rw [encodeWire_of_leaf hCanon] at hEnc
    exact reads_leaf hTotal hCanon hEnc hLen
  | succ fuel ih =>
  intro tokens hEnc hLen
  by_cases hLeaf : isContainer value = false
  · rw [encodeWire_of_leaf hLeaf] at hEnc
    exact reads_leaf hTotal hLeaf hEnc hLen
  cases value with
  | array items =>
    rcases encodeArray_eq_ok_iff.mp hEnc with ⟨parts, hParts, rfl⟩
    rw [length_append] at hLen
    have hReads : List.Forall₂ (decodeValue total fuel).Reads items parts := by
      apply forall₂_iff_zip.mpr
      refine ⟨hParts.length_eq, ?_⟩
      intro item part hZip
      have hItem := (of_mem_zip hZip).1
      have hPart := length_le_of_mem (of_mem_zip hZip).2
      have hOk := (forall₂_iff_zip.mp hParts).2 hZip
      exact ih item (hCanon item hItem) part hOk (by omega)
    have hCount : items.length ≤ parts.flatten.length := by
      rw [hParts.length_eq]
      apply length_le_flatten
      intro part hPart
      rcases Traversal.exists_left hReads hPart with ⟨item, -, hItem⟩
      cases fuel with
      | zero => exact length_pos_of_reads hItem
      | succ fuel => exact length_pos_of_reads hItem
    exact reads_container hTotal (by decide) (fun _ => rfl)
      (by omega) (reads_decodeArrayBody hReads)
  | map entries =>
    rcases hCanon with ⟨hAscending, hValues⟩
    rcases reads_encodedEntries hTotal hAscending (fun entry hEntry =>
            ih entry.2 (hValues entry hEntry))
          hEnc hLen with
      ⟨more, rfl, hCount, hReads⟩
    exact reads_container hTotal (by decide) (fun _ => rfl) hCount (hReads.bind_nil (reads_pure _))
  | _ => exact absurd rfl hLeaf

theorem EntriesRead.canonical {fuel : Nat} {entries : CborEntries} (hRead :
    EntriesRead (fun value tokens => Canonical fuel value ∧ encodeWire fuel value = .ok tokens)
      none entries parts) :
  (Ascending entries ∧ ∀ entry ∈ entries, Canonical fuel entry.2) ∧
    encodeMap (encodeWire fuel) entries = .ok (header 5 entries.length ++ parts.flatten) := by
  refine ⟨⟨hRead.ascending, ?_⟩, ?_⟩
  · intro entry hEntry
    rcases Traversal.exists_right hRead.each hEntry with ⟨part, -, value, ⟨hCanon, -⟩, -⟩
    exact hCanon
  · apply encodeMap_eq_ok_iff.mpr
    refine ⟨hRead.keys, parts, ?_, rfl⟩
    rw [sortEntries_of_ascending hRead.ascending]
    apply hRead.each.imp
    rintro entry part ⟨value, ⟨-, hValue⟩, hPart⟩
    exact ⟨value, hValue, hPart⟩

theorem parses_decodeValue (fuel : Nat) : (decodeValue total fuel).Parses fun value tokens =>
    Canonical fuel value ∧ encodeWire fuel value = .ok tokens := by
  have hLeaf : ∀ fuel value tokens, isContainer value = false →
        encodeLeaf value = .ok tokens → Canonical fuel value ∧
          encodeWire fuel value = .ok tokens := by
    intro fuel value tokens hLeaf hEnc
    rw [encodeWire_of_leaf hLeaf]
    exact ⟨canonical_of_leaf hLeaf fuel, hEnc⟩
  have hBytes :
      ∀ fuel cid tokens, (Canonical fuel (.bytes cid) ∧ encodeWire fuel (.bytes cid) = .ok tokens) →
        tokens = header 2 cid.length ++ cid := by
    rintro fuel cid tokens ⟨-, hEnc⟩
    rw [encodeWire_of_leaf rfl] at hEnc
    exact (Except.ok.inj hEnc).symm
  induction fuel with
  | zero =>
    apply parses_decodeWith
    exact ⟨hLeaf 0, fun n _ => parses_fail _ _, fun n _ => parses_fail _ _, hBytes 0⟩
  | succ fuel ih =>
    apply parses_decodeWith
    refine ⟨hLeaf _, ?_, ?_, hBytes _⟩
    · intro n hCount
      apply (ih.times_forall₂ n).bind
      rintro items _ ⟨rfl, parts, hParts, rfl⟩
      apply parses_pure
      rw [append_nil]
      refine ⟨?_, encodeArray_eq_ok_iff.mpr ⟨parts, hParts.imp fun _ _ h => h.2, rfl⟩⟩
      intro item hItem
      rcases Traversal.exists_right hParts hItem with ⟨part, -, hCanon, -⟩
      exact hCanon
    · intro n hCount
      apply (parses_decodeEntries ih n none).bind
      rintro entries _ ⟨rfl, parts, hRead, rfl⟩
      apply parses_pure
      rw [append_nil]
      exact hRead.canonical

-- Whole Inputs

variable {entries : CborEntries} {bytes : List UInt8}

def CanonicalMap (entries : CborEntries) : Prop :=
  Ascending entries ∧ ∀ entry ∈ entries, Canonical (STRICT_CBOR_MAX_DEPTH - 1) entry.2

def encodeWireMap (entries : CborEntries) : Encoded :=
  encodeMap (encodeWire (STRICT_CBOR_MAX_DEPTH - 1)) entries

theorem reads_decodeTop (hTotal : total < 2 ^ 64) (hCanon : CanonicalMap entries)
  (hEnc : encodeWireMap entries = .ok bytes) (hLen : bytes.length ≤ total) :
  (decodeTop total).Reads entries bytes := by
  rcases reads_encodedEntries hTotal hCanon.1 (fun entry hEntry =>
          reads_decodeValue hTotal _ entry.2 (hCanon.2 entry hEntry))
        hEnc hLen with
    ⟨more, rfl, hCount, hReads⟩
  refine (reads_header (by decide : 5 < 7) (length_lt_of_le hTotal hCount)).bind ?_
  simp only [ne_eq, not_true_eq_false, if_false]
  rw [← nil_append more]
  exact (reads_count hCount).bind hReads

theorem parses_decodeTop : (decodeTop total).Parses fun entries tokens =>
    CanonicalMap entries ∧ encodeWireMap entries = .ok tokens := by
  apply parses_head.bind
  intro h tokens hRead
  apply Parses.ite
  · intro _
    exact parses_fail _ _
  intro hMajor
  have hFive : h.major = 5 := not_not.mp hMajor
  rcases hRead.eq_header (by omega) with ⟨hTokens, -⟩
  apply (parses_count total h.argument).bind
  rintro n _ ⟨rfl, rfl⟩
  apply (parses_decodeEntries (parses_decodeValue _) _ _).mono
  rintro entries _ ⟨hCount, parts, hEnts, rfl⟩
  have hCanon := hEnts.canonical
  rw [hTokens, hFive, ← hCount]
  exact hCanon

theorem decodeStrictCbor_eq_ok :
  decodeStrictCbor bytes = .ok entries ↔ decodeTop bytes.length bytes = .ok (entries, []) := by
  unfold decodeStrictCbor
  rw [bind_eq_ok_iff]
  constructor
  · rintro ⟨⟨found, rest⟩, hTop, hRun⟩
    cases rest with
    | nil =>
      cases hRun
      exact hTop
    | cons b rest => cases hRun
  · intro hTop
    exact ⟨(entries, []), hTop, rfl⟩

theorem canonical_of_decodeStrictCbor (hDec : decodeStrictCbor bytes = .ok entries) :
  CanonicalMap entries ∧ encodeWireMap entries = .ok bytes := by
  rcases parses_decodeTop _ _ _ (decodeStrictCbor_eq_ok.mp hDec) with
    ⟨tokens, hBytes, hCanon, hEnc⟩
  rw [hBytes, append_nil]
  exact ⟨hCanon, hEnc⟩

theorem decodeStrictCbor_eq_ok_iff (hBytes : bytes.length < 2 ^ 64) :
  decodeStrictCbor bytes = .ok entries ↔ CanonicalMap entries ∧
      encodeWireMap entries = .ok bytes := by
  constructor
  · exact canonical_of_decodeStrictCbor
  · rintro ⟨hCanon, hEnc⟩
    apply decodeStrictCbor_eq_ok.mpr
    have hReads := reads_decodeTop hBytes hCanon hEnc (Nat.le_refl _) []
    rw [append_nil] at hReads
    exact hReads

/- No two accepted inputs are read as the same map. -/
theorem decodeStrictCbor_injective
  {other : List UInt8} (hBytes : decodeStrictCbor bytes = .ok entries)
  (hOther : decodeStrictCbor other = .ok entries) : bytes = other := by
  have hFst := (canonical_of_decodeStrictCbor hBytes).2
  have hSnd := (canonical_of_decodeStrictCbor hOther).2
  rw [hFst] at hSnd
  exact Except.ok.inj hSnd

/- Nothing may follow an accepted input. -/
theorem decodeStrictCbor_trailing
  {extra : List UInt8} (hLen : (bytes ++ extra).length < 2 ^ 64) (hExtra : extra ≠ [])
  (hDec : decodeStrictCbor bytes = .ok entries) :
  decodeStrictCbor (bytes ++ extra) = .error ⟨"trailing bytes"⟩ := by
  rcases canonical_of_decodeStrictCbor hDec with ⟨hCanon, hEnc⟩
  have hLe : bytes.length ≤ (bytes ++ extra).length := by
    rw [length_append]
    omega
  have hReads := reads_decodeTop hLen hCanon hEnc hLe extra
  have hRest : extra.length ≠ 0 := fun hZero => hExtra (length_eq_zero_iff.mp hZero)
  unfold decodeStrictCbor
  rw [hReads, ok_bind]
  simp only
  rw [if_pos hRest]
  rfl

end TsStack.Cbor
