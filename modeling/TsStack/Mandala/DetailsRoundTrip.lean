import TsStack.Mandala.DetailsReading

/-
  Admin details are read from exactly one text: the digits of
  what they are encoded as.
-/

-- Writing Fields

open List

namespace TsStack.MandalaDetails

open Cbor Mandala

variable {publicKeyHex : Bytes → Option JsString} {fields : FieldValues}

structure FieldEntries
  (fields : FieldValues) (list : List Field) (entries : CborEntries) : Prop where
  names : entries.map Prod.fst = (list.filter fun field => (fields field).isSome).map Field.name
  written : ∀ field ∈ list, ∀ decoded, fields field = some decoded →
      ∃ value, field.encode decoded = .ok value ∧ (field.name, value) ∈ entries

theorem fieldEntries_valid (list : List Field)
  (hValid : ∀ field decoded, fields field = some decoded →
    ValidField publicKeyHex field decoded) :
  ∃ entries, fieldEntries fields list = .ok entries ∧ FieldEntries fields list entries := by
  induction list with
  | nil =>
    refine ⟨[], rfl, rfl, ?_⟩
    intro field hField
    exact absurd hField not_mem_nil
  | cons field rest ih =>
    rcases ih with ⟨entries, hEntries, hNames, hWritten⟩
    unfold fieldEntries
    cases hField : fields field with
    | none =>
      have hAbsent : ¬(fields field).isSome = true := by
        rw [hField]
        exact Bool.false_ne_true
      refine ⟨entries, hEntries, ?_, ?_⟩
      · have hFilter :
            ((field :: rest).filter fun f =>
              (fields f).isSome) =
              rest.filter fun f => (fields f).isSome :=
          filter_cons_of_neg hAbsent
        rw [hFilter]
        exact hNames
      · intro other hOther decoded hDec
        rcases mem_cons.mp hOther with rfl | hRest
        · rw [hField] at hDec
          cases hDec
        · exact hWritten other hRest decoded hDec
    | some decoded =>
      have hPresent : (fields field).isSome = true := by
        rw [hField]
        rfl
      rcases read_encode (hValid field decoded hField) with ⟨value, hValue, -, -⟩
      refine ⟨(field.name, value) :: entries, ?_, ?_, ?_⟩
      · simp only [hValue, hEntries, ok_bind]
        rfl
      · have hFilter :
            ((field :: rest).filter fun f =>
              (fields f).isSome) =
              field :: rest.filter fun f => (fields f).isSome :=
          filter_cons_of_pos hPresent
        rw [hFilter, map_cons, map_cons, hNames]
      · intro other hOther found hFound
        rcases mem_cons.mp hOther with rfl | hRest
        · rw [hField] at hFound
          rw [← Option.some.inj hFound]
          exact ⟨value, hValue, mem_cons_self⟩
        · rcases hWritten other hRest found hFound with ⟨written, hOk, hMem⟩
          exact ⟨written, hOk, mem_cons_of_mem _ hMem⟩

theorem nodup_detailKeys : detailKeys.Nodup :=
  List.Nodup.of_map _ nodup_encodedKeys

structure Written
  (publicKeyHex : Bytes → Option JsString) (d : AdminDetails) (entries : CborEntries) : Prop where
  distinct : (entries.map Prod.fst).Nodup
  known : ∀ entry ∈ entries, entry.1 ∈ detailKeys
  kind : (textOf "kind", .text (kindName d.kind)) ∈ entries
  each : ∀ entry ∈ entries, entry = (textOf "kind", .text (kindName d.kind)) ∨
      ∃ field decoded, d.fields field = some decoded ∧ entry.1 = field.name ∧
        field.encode decoded = .ok entry.2
  written : ∀ field decoded, d.fields field = some decoded →
    ∃ value, field.encode decoded = .ok value ∧ (field.name, value) ∈ entries

variable {d : AdminDetails}

theorem detailEntries_valid (hValid : ∀ field decoded, d.fields field = some decoded →
    ValidField publicKeyHex field decoded) :
  ∃ entries, detailEntries d = .ok entries ∧ Written publicKeyHex d entries := by
  rcases fieldEntries_valid allFields hValid with ⟨entries, hEntries, hNames, hWritten⟩
  have hSub : ((textOf "kind" :: entries.map Prod.fst)).Sublist
        detailKeys := by
    rw [hNames]
    exact (filter_sublist.map Field.name).cons_cons _
  have hDist := nodup_detailKeys.sublist hSub
  refine ⟨(textOf "kind", .text (kindName d.kind)) :: entries, ?_,
    hDist, ?_, mem_cons_self, ?_, ?_⟩
  · unfold detailEntries
    rw [hEntries]
    rfl
  · intro entry hEntry
    apply hSub.subset
    exact List.mem_map_of_mem (f := Prod.fst) hEntry
  · intro entry hEntry
    rcases mem_cons.mp hEntry with hKind | hRest
    · exact .inl hKind
    · have hName : entry.1 ∈ entries.map Prod.fst := List.mem_map_of_mem hRest
      rw [hNames] at hName
      rcases List.mem_map.mp hName with ⟨field, hField, hSame⟩
      have hSome := (mem_filter.mp hField).2
      rcases Option.isSome_iff_exists.mp hSome with ⟨decoded, hDec⟩
      rcases hWritten field (mem_allFields field) decoded hDec with ⟨value, hValue, hMem⟩
      have hTail := (nodup_cons.mp hDist).2
      have hPair : entry = (field.name, value) :=
        inj_on_of_nodup_map hTail hRest hMem hSame.symm
      rw [hPair]
      exact .inr ⟨field, decoded, hDec, rfl, hValue⟩
  · intro field decoded hDec
    rcases hWritten field (mem_allFields field) decoded hDec with ⟨value, hValue, hMem⟩
    exact ⟨value, hValue, mem_cons_of_mem _ hMem⟩

variable {entries : CborEntries}

theorem Written.supported (hValid : ∀ field decoded, d.fields field = some decoded →
    ValidField publicKeyHex field decoded)
  (hWritten : Written publicKeyHex d entries) : ∀ entry ∈ entries, SupportedLeaf entry.2 := by
  intro entry hEntry
  rcases hWritten.each entry hEntry with rfl | ⟨field, decoded, hField, -, hValue⟩
  · exact wellFormed_kindName d.kind
  · rcases read_encode (hValid field decoded hField) with ⟨value, hOk, hLeaf, -⟩
    rw [hValue] at hOk
    rw [Except.ok.inj hOk]
    exact hLeaf

theorem mem_returnedMap (hLeaves : ∀ entry ∈ entries, SupportedLeaf entry.2) {key : CborText}
  {value : StrictCborValue} :
  (key, value) ∈ returnedMap entries ↔ ∃ written, (key, written) ∈ entries ∧
      returned 0 written = value := by
  have hSame : ∀ entry ∈ entries, returned (STRICT_CBOR_MAX_DEPTH - 1) entry.2 =
        returned 0 entry.2 := by
    intro entry hEntry
    exact returned_leaf (isContainer_of_supportedLeaf (hLeaves entry hEntry)) _
  unfold returnedMap
  rw [List.mem_map]
  constructor
  · rintro ⟨entry, hSorted, hPair⟩
    have hEntry := (sortEntries_perm entries).mem_iff.mp hSorted
    rcases Prod.mk.inj hPair with ⟨rfl, rfl⟩
    exact ⟨entry.2, hEntry, (hSame entry hEntry).symm⟩
  · rintro ⟨written, hEntry, rfl⟩
    refine ⟨(key, written), (sortEntries_perm entries).mem_iff.mpr hEntry, ?_⟩
    rw [hSame _ hEntry]

theorem ascending_returnedMap
  (hDist : (entries.map Prod.fst).Nodup) (hKnown : ∀ entry ∈ entries, entry.1 ∈ detailKeys) :
  Ascending (returnedMap entries) := by
  have hKeys : ∀ a ∈ entries.map Prod.fst, ∀ b ∈ entries.map Prod.fst,
        encodedText a = encodedText b → a = b := by
    intro a hA b hB
    rcases List.mem_map.mp hA with ⟨left, hLeft, rfl⟩
    rcases List.mem_map.mp hB with ⟨right, hRight, rfl⟩
    exact encodedText_injOn (hKnown left hLeft) (hKnown right hRight)
  have hNodup := List.Nodup.map_on hKeys hDist
  rw [List.map_map] at hNodup
  apply pairwise_map.mpr
  exact ascending_sortEntries hNodup

theorem Written.holds (hValid : ∀ field decoded, d.fields field = some decoded →
    ValidField publicKeyHex field decoded)
  (hWritten : Written publicKeyHex d entries) : Holds publicKeyHex (returnedMap entries) d := by
  have hLeaves := hWritten.supported hValid
  have hAscending := ascending_returnedMap hWritten.distinct hWritten.known
  have hNodup := nodup_keys_of_ascending hAscending
  refine ⟨?_, ?_, ?_, ?_⟩
  · apply lookup_of_mem hNodup
    exact (mem_returnedMap hLeaves).mpr ⟨_, hWritten.kind, rfl⟩
  · intro field decoded hField
    rcases hWritten.written field decoded hField with ⟨value, hValue, hMem⟩
    rcases read_encode (hValid field decoded hField) with ⟨same, hOk, -, hRead⟩
    rw [hValue] at hOk
    rw [← Except.ok.inj hOk] at hRead
    refine ⟨returned 0 value, ?_, hRead⟩
    apply lookup_of_mem hNodup
    exact (mem_returnedMap hLeaves).mpr ⟨value, hMem, rfl⟩
  · intro field hField
    apply lookup_eq_none
    rintro ⟨key, value⟩ hEntry hName
    rcases (mem_returnedMap hLeaves).mp hEntry with ⟨written, hMem, -⟩
    simp only at hName
    rcases hWritten.each _ hMem with hKind | ⟨other, decoded, hOther, hSame, -⟩
    · rw [(Prod.mk.inj hKind).1] at hName
      exact name_ne_kind field hName.symm
    · simp only at hSame
      rw [hSame] at hName
      have hFields := name_injective hName
      subst hFields
      rw [hField] at hOther
      cases hOther
  · rintro ⟨key, value⟩ hEntry
    rcases (mem_returnedMap hLeaves).mp hEntry with ⟨written, hMem, -⟩
    exact hWritten.known (key, written) hMem

-- Round Trips of Details

variable {allowed : List CborText} {outputIndex : Nat}

variable
    {hex : JsString} {bytes : Bytes}

theorem hexToUint8Array_of_lowercase
  (hLower : isLowercaseHex hex = true) (hBytes : hexToUint8Array hex = .ok bytes) :
  hex = toHex bytes := by
  unfold isLowercaseHex at hLower
  simp only [Bool.and_eq_true, beq_iff_eq] at hLower
  rcases hLower with ⟨⟨-, hEven⟩, hAll⟩
  unfold hexToUint8Array at hBytes
  simp only [hEven, if_true] at hBytes
  cases hPairs : hexPairs hex with
  | none =>
    rw [hPairs] at hBytes
    cases hBytes
  | some found =>
    rw [hPairs] at hBytes
    rw [← Except.ok.inj hBytes]
    exact (toHex_hexPairs hAll hPairs).symm

theorem isLowercaseHex_toHex (hBytes : bytes ≠ []) : isLowercaseHex (toHex bytes) = true := by
  have hText : toHex bytes ≠ [] := fun h => hBytes ((toHex_eq_nil_iff bytes).mp h)
  unfold isLowercaseHex
  rw [toHex_lowercase, length_toHex, Nat.mul_mod_right, bne_iff_ne.mpr hText]
  rfl

theorem ne_nil_of_decodeStrictCbor
  {map : CborEntries} (hDec : decodeStrictCbor bytes = .ok map) : bytes ≠ [] := by
  rintro rfl
  cases hDec

theorem decodeAdminDetails_eq_ok_iff {result : DecodedDetails} :
  decodeAdminDetails publicKeyHex hex allowed outputIndex = .ok result ↔
    ∃ bytes map, hex = toHex bytes ∧ decodeStrictCbor bytes = .ok map ∧
      readDetails publicKeyHex map allowed (detailsSchema outputIndex) = .ok result.details ∧
      result.commitment = sha256 bytes := by
  have hRest : ∀ bytes map, decodeStrictCbor bytes = .ok map → ((do
          let map ← decodeMap bytes (detailsSchema outputIndex)
          let kind ← readKind map allowed (detailsSchema outputIndex)
          let schema := SCHEMAS kind
          rejectUnknownKeys map schema (detailsSchema outputIndex)
          let fields ← readFields publicKeyHex map schema (detailsSchema outputIndex)
          return (⟨⟨kind, fields⟩, sha256 bytes⟩ : DecodedDetails)) :
          Except MandalaReject DecodedDetails) =
          (readDetails publicKeyHex map allowed (detailsSchema outputIndex)).map
            fun d => ⟨d, sha256 bytes⟩ := by
    intro bytes map hMap
    unfold decodeMap readDetails
    simp only [hMap, ok_bind]
    cases readKind map allowed (detailsSchema outputIndex) with
    | error e => rfl
    | ok kind =>
      simp only [ok_bind]
      cases rejectUnknownKeys map (SCHEMAS kind) (detailsSchema outputIndex) with
      | error e => rfl
      | ok known =>
        simp only [ok_bind]
        cases readFields publicKeyHex map (SCHEMAS kind) (detailsSchema outputIndex) with
        | error e => rfl
        | ok fields => rfl
  constructor
  · intro hRun
    unfold decodeAdminDetails at hRun
    simp only at hRun
    split at hRun
    · rename_i hLower
      cases hBytes : hexToUint8Array hex with
      | error e =>
        rw [hBytes] at hRun
        cases hRun
      | ok bytes =>
        rw [hBytes] at hRun
        simp only at hRun
        cases hMap : decodeStrictCbor bytes with
        | error e =>
          unfold decodeMap at hRun
          rw [hMap] at hRun
          cases hRun
        | ok map =>
          rw [hRest bytes map hMap] at hRun
          cases hRead : readDetails publicKeyHex map allowed (detailsSchema outputIndex) with
          | error e =>
            rw [hRead] at hRun
            cases hRun
          | ok d =>
            rw [hRead] at hRun
            cases hRun
            exact ⟨bytes, map, hexToUint8Array_of_lowercase hLower hBytes, hMap, hRead, rfl⟩
    · cases hRun
  · rintro ⟨bytes, map, rfl, hMap, hRead, hCommitment⟩
    have hLower := isLowercaseHex_toHex (ne_nil_of_decodeStrictCbor hMap)
    unfold decodeAdminDetails
    simp only [hLower, if_true, hexToUint8Array_toHex]
    rw [hRest bytes map hMap, hRead]
    change Except.ok _ = _
    rw [← hCommitment]

theorem wellFormed_of_decodeStrictCbor
  {map : CborEntries} (hDec : decodeStrictCbor bytes = .ok map) :
  ∀ entry ∈ map, ∀ text, entry.2 = .text text → UnicodeText.isWellFormed text = true := by
  intro entry hEntry text hText
  have hWire := (canonical_of_decodeStrictCbor hDec).2
  rcases encodeMap_eq_ok_iff.mp hWire with ⟨-, parts, hParts, -⟩
  have hSorted := (sortEntries_perm map).mem_iff.mpr hEntry
  rcases Traversal.exists_right hParts hSorted with ⟨part, -, value, hValue, -⟩
  rw [hText, encodeWire_of_leaf rfl] at hValue
  change encodeText text = .ok value at hValue
  unfold encodeText at hValue
  split at hValue
  · rename_i hWf
    exact hWf
  · cases hValue

theorem encodeAdminDetails_eq_ok
  (hEntries : detailEntries d = .ok entries) (hBytes : encodeStrictCbor entries = .ok bytes) :
  encodeAdminDetails d = .ok bytes := by
  unfold encodeAdminDetails
  rw [hEntries, ok_bind]
  simp only [hBytes]

theorem supportedMap_of_written
  (hValid : ValidDetails publicKeyHex allowed d) (hWritten : Written publicKeyHex d entries) :
  SupportedMap entries := by
  refine ⟨⟨?_, hWritten.distinct⟩, ?_⟩
  · intro entry hEntry
    exact wellFormed_detailKeys _ (hWritten.known entry hEntry)
  · intro entry hEntry
    exact supported_of_leaf (hWritten.supported hValid.valid entry hEntry) _

theorem decodeAdminDetails_encodeAdminDetails (hValid : ValidDetails publicKeyHex allowed d) :
  ∃ bytes, encodeAdminDetails d = .ok bytes ∧ (bytes.length < 2 ^ 64 →
      decodeAdminDetails publicKeyHex (toHex bytes) allowed outputIndex =
        .ok ⟨d, sha256 bytes⟩) := by
  rcases detailEntries_valid hValid.valid with ⟨entries, hEntries, hWritten⟩
  have hSupported := supportedMap_of_written hValid hWritten
  rcases encodeStrictCbor_supported hSupported with ⟨bytes, hBytes⟩
  refine ⟨bytes, encodeAdminDetails_eq_ok hEntries hBytes, ?_⟩
  intro hLen
  apply decodeAdminDetails_eq_ok_iff.mpr
  refine ⟨bytes, returnedMap entries, rfl,
    decodeStrictCbor_encodeStrictCbor hSupported hBytes hLen, ?_, rfl⟩
  exact readDetails_of_holds (hWritten.holds hValid.valid) hValid

theorem encodeAdminDetails_decodeAdminDetails {result : DecodedDetails}
  (hDec : decodeAdminDetails publicKeyHex hex allowed outputIndex = .ok result) :
  ∃ bytes, hex = toHex bytes ∧ ValidDetails publicKeyHex allowed result.details ∧
    encodeAdminDetails result.details = .ok bytes ∧ result.commitment = sha256 bytes := by
  rcases decodeAdminDetails_eq_ok_iff.mp hDec with ⟨bytes, map, hHex, hMap, hRead, hCommitment⟩
  rcases holds_of_readDetails (wellFormed_of_decodeStrictCbor hMap) hRead with ⟨hHold, hValid⟩
  rcases canonical_of_decodeStrictCbor hMap with ⟨hCanon, hWire⟩
  rcases detailEntries_valid hValid.valid with ⟨entries, hEntries, hWritten⟩
  have hSupported := supportedMap_of_written hValid hWritten
  rcases encodeStrictCbor_supported hSupported with ⟨written, hEnc⟩
  -- The map that is read is the one that would come back.
  have hSame : returnedMap entries = map :=
    eq_of_holds (ascending_returnedMap hWritten.distinct hWritten.known)
      hCanon.1 (hWritten.holds hValid.valid) hHold
  have hAgain : encodeWireMap (returnedMap entries) = .ok written :=
    encodeWire_returned (STRICT_CBOR_MAX_DEPTH - 1 + 1) (.map entries) written hEnc
  rw [hSame, hWire] at hAgain
  rw [← Except.ok.inj hAgain] at hEnc
  exact ⟨bytes, hHex, hValid, encodeAdminDetails_eq_ok hEntries hEnc, hCommitment⟩

-- The Canonical Codec

/-
  Every supported map is read back from its encoding, with its entries in key order and an integer
  for every integral number; the accepted inputs are exactly the canonical encodings, and admin
  details come from exactly one of them.
-/
theorem canonical_codec (publicKeyHex : Bytes → Option JsString) :
  (∀ entries, SupportedMap entries → ∃ bytes, encodeStrictCbor entries = .ok bytes ∧
      (bytes.length < 2 ^ 64 → decodeStrictCbor bytes = .ok (returnedMap entries))) ∧
  (∀ bytes entries, bytes.length < 2 ^ 64 →
    (decodeStrictCbor bytes = .ok entries ↔ CanonicalMap entries ∧
        encodeWireMap entries = .ok bytes)) ∧
  (∀ bytes entries, decodeStrictCbor bytes = .ok entries →
    NoIntegralFloats entries → encodeStrictCbor entries = .ok bytes) ∧
  (∀ bytes other entries, decodeStrictCbor bytes = .ok entries →
      decodeStrictCbor other = .ok entries → bytes = other) ∧
  (∀ bytes extra entries, (bytes ++ extra).length < 2 ^ 64 → extra ≠ [] →
      decodeStrictCbor bytes = .ok entries →
        decodeStrictCbor (bytes ++ extra) = .error ⟨"trailing bytes"⟩) ∧
  (∀ allowed outputIndex d, ValidDetails publicKeyHex allowed d →
      ∃ bytes, encodeAdminDetails d = .ok bytes ∧ (bytes.length < 2 ^ 64 →
          decodeAdminDetails publicKeyHex (toHex bytes) allowed outputIndex =
            .ok ⟨d, sha256 bytes⟩)) ∧
  (∀ hex allowed outputIndex result,
    decodeAdminDetails publicKeyHex hex allowed outputIndex = .ok result →
      ∃ bytes, hex = toHex bytes ∧ ValidDetails publicKeyHex allowed result.details ∧
        encodeAdminDetails result.details = .ok bytes ∧ result.commitment = sha256 bytes) ∧
  (∀ hex other allowed otherAllowed outputIndex otherIndex first second,
    decodeAdminDetails publicKeyHex hex allowed outputIndex = .ok first →
      decodeAdminDetails publicKeyHex other otherAllowed otherIndex = .ok second →
        first.commitment = second.commitment →
          first.details = second.details ∨ ∃ left right, left ≠ right ∧
              hex = toHex left ∧ other = toHex right ∧ sha256 left = sha256 right) := by
  refine ⟨?_, ?_, ?_, ?_, ?_, ?_, ?_, ?_⟩
  · intro entries hEntries
    rcases encodeStrictCbor_supported hEntries with ⟨bytes, hBytes⟩
    exact ⟨bytes, hBytes, fun hLength => decodeStrictCbor_encodeStrictCbor hEntries hBytes hLength⟩
  · intro bytes entries hLength
    exact decodeStrictCbor_eq_ok_iff hLength
  · intro bytes entries hDecoded hFloats
    exact encodeStrictCbor_decodeStrictCbor hDecoded hFloats
  · intro bytes other entries hBytes hOther
    exact decodeStrictCbor_injective hBytes hOther
  · intro bytes extra entries hLength hExtra hDecoded
    exact decodeStrictCbor_trailing hLength hExtra hDecoded
  · intro allowed outputIndex d hValid
    exact decodeAdminDetails_encodeAdminDetails hValid
  · intro hex allowed outputIndex result hDecoded
    exact encodeAdminDetails_decodeAdminDetails hDecoded
  · intro hex other allowed otherAllowed outputIndex otherIndex first second hFirst hSecond hSame
    rcases decodeAdminDetails_eq_ok_iff.mp hFirst with ⟨left, map, rfl, hMap, hRead, hLeft⟩
    rcases decodeAdminDetails_eq_ok_iff.mp hSecond with
      ⟨right, otherMap, rfl, hOtherMap, hOtherRead, hRight⟩
    by_cases hBytes : left = right
    · subst hBytes
      left
      rw [hMap] at hOtherMap
      rw [← Except.ok.inj hOtherMap] at hOtherRead
      have hText := wellFormed_of_decodeStrictCbor hMap
      exact details_of_holds (holds_of_readDetails hText hRead).1
          (holds_of_readDetails hText hOtherRead).1
    · refine Or.inr ⟨left, right, hBytes, rfl, rfl, ?_⟩
      rw [← hLeft, ← hRight, hSame]

def keyA : CborText := [97]

def pauseDetails : AdminDetails :=
  ⟨.pause, fun _ => none⟩

theorem canonical_codec_pause :
  encodeStrictCbor [(keyA, .integer 1)] = .ok [0xa1, 0x61, 0x61, 0x01] ∧
    ∃ bytes, encodeAdminDetails pauseDetails = .ok bytes ∧ (bytes.length < 2 ^ 64 →
        decodeAdminDetails (fun _ => none) (toHex bytes) [kindName .pause] 0 =
          .ok ⟨pauseDetails, sha256 bytes⟩) := by
  have hAll := canonical_codec fun _ => none
  rcases hAll with ⟨-, -, hMap, -, -, hDetails, -⟩
  constructor
  · apply hMap
    · rfl
    · intro entry hEntry
      rw [List.mem_singleton.mp hEntry]
      trivial
  · apply hDetails
    refine ⟨List.mem_cons_self, fun _ _ => rfl, ?_, ?_⟩
    · intro field hField
      exact absurd hField List.not_mem_nil
    · intro field decoded hField
      cases hField

/- The bytes of a map from `a` to a link. -/
def linkBytes : Bytes :=
  [0xa1, 0x61, 0x61, 0xd8, 0x2a, 0x41, 0x00]

theorem link_accepted :
  decodeStrictCbor linkBytes = .ok [(keyA, .link [0])] ∧
    SupportedMap [(keyA, .number 0x3ff0000000000000)] ∧
    (∃ bytes, encodeStrictCbor [(keyA, .number 0x3ff0000000000000)] = .ok bytes ∧
        decodeStrictCbor bytes = .ok [(keyA, .integer 1)]) := by
  refine ⟨?_, ?_, ?_⟩
  · rfl
  · refine ⟨⟨?_, List.nodup_singleton _⟩, ?_⟩
    · intro entry hEntry
      rw [List.mem_singleton.mp hEntry]
      decide
    · intro entry hEntry
      rw [List.mem_singleton.mp hEntry]
      exact Or.inl ⟨1, by decide, by decide⟩
  · refine ⟨[0xa1, 0x61, 0x61, 0x01], ?_, rfl⟩
    apply encodeMap_eq_ok_iff.mpr
    refine ⟨?_, [[0x61, 0x61, 0x01]], ?_, rfl⟩
    · intro entry hEntry
      rw [List.mem_singleton.mp hEntry]
      decide
    · unfold sortEntries
      rw [List.mergeSort_singleton]
      exact .cons ⟨[0x01], rfl, rfl⟩ .nil

end TsStack.MandalaDetails
